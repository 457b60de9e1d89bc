import RecordStore.Text.Blank
import RecordStore.Text.Numeral
import RecordStore.Store.Session
import RecordStore.Json.Forms
import RecordStore.Main
import RecordStore.Proofs.Page.Codec
import RecordStore.Proofs.Store.Durability
import RecordStore.Proofs.Store.Eviction
import RecordStore.Proofs.Store.Isolation
import RecordStore.Proofs.Store.Serial
import RecordStore.Proofs.Lock.Holdings
import RecordStore.Proofs.Lock.Waiting
import RecordStore.Proofs.Lock.Timeout
import RecordStore.Proofs.Store.Scanning
import RecordStore.Proofs.Disk.Names
import RecordStore.Proofs.Store.Names
import RecordStore.Proofs.Store.Creation
import RecordStore.Proofs.Store.Filling
import RecordStore.Proofs.Store.Recreation
import RecordStore.Proofs.Store.Custody
import RecordStore.Proofs.Store.Finish
import RecordStore.Proofs.Store.Placement
import RecordStore.Proofs.Store.Mirror
import RecordStore.Proofs.Store.Refusal
import RecordStore.Proofs.Store.Restoring
import RecordStore.Proofs.Store.Attempts
import RecordStore.Proofs.Store.Residence
import RecordStore.Proofs.Store.AtRest
import RecordStore.Proofs.Command.Counting
import RecordStore.Proofs.Command.Workers
import RecordStore.Proofs.Command.Books
import RecordStore.Proofs.Command.Stress
import RecordStore.Proofs.Command.Listing
import RecordStore.Proofs.Command.Rows
import RecordStore.Proofs.Page.Access
import RecordStore.Proofs.Page.Edits
import RecordStore.Proofs.Page.Rewriting
import RecordStore.Proofs.Page.Map
import RecordStore.Proofs.Page.Slots
import RecordStore.Proofs.Page.Image
import RecordStore.Proofs.Row.Sequence
import RecordStore.Proofs.Lock.Bounds
import RecordStore.Proofs.Lock.Releasing
import RecordStore.Proofs.Value.Format
import RecordStore.Proofs.Disk.Array
import RecordStore.Proofs.Disk.Allocation
import RecordStore.Proofs.Text.Numeral
import RecordStore.Proofs.Command.RowText
import RecordStore.Proofs.Command.Description
import RecordStore.Proofs.Store.Undoing
import RecordStore.Proofs.Store.Appending
