import RecordStore.Disk.Content
import RecordStore.Failure
import RecordStore.Text.Split

set_option autoImplicit false

/-! A directory with its files. Names are mapped to file numbers and these to contents, so a file
without a name keeps its content for those who have it open, and two openings of one name share it.
Paths are resolved entry by entry below the directory. -/

namespace RecordStore

abbrev FileId := Nat

/-- The root is the name under which the directory stands in canonical paths; folders and files
are named relative to it. -/
structure Directory where
  root : String
  folders : List String
  names : Std.ExtTreeMap String FileId
  contents : Std.ExtTreeMap FileId Content
  nextFile : FileId

inductive Spot where
  | folder (name : String)
  | file (name : String) (id : FileId)
  | vacant (name : String)
  deriving DecidableEq, Inhabited, Repr

def longestName : Nat := 255

def longestPath : Nat := 4095

def longestFile : Nat := 9223372036854775807

namespace Directory

def empty (root : String) (folders : List String) : Directory := ⟨root, folders, ∅, ∅, 0⟩

def childName (folder entry : String) : String :=
  if folder = "" then entry else folder ++ "/" ++ entry

def parentName (folder : String) : String :=
  let entries := (Text.split '/' folder.toList).map String.ofList
  if folder = "" ∨ entries.getLast? = some ".." then childName folder ".."
  else Text.join "/" entries.dropLast

def walk (directory : Directory) : Spot → List String → Except SystemError Spot
  | spot, [] => .ok spot
  | .folder name, "" :: rest => walk directory (.folder name) rest
  | .folder name, "." :: rest => walk directory (.folder name) rest
  | .folder name, ".." :: rest => walk directory (.folder (parentName name)) rest
  | .folder name, entry :: rest =>
      if longestName < entry.utf8ByteSize then .error .nameTooLong
      else
        let child := childName name entry
        if directory.folders.contains child then walk directory (.folder child) rest
        else
          match directory.names[child]? with
          | some id => walk directory (.file child id) rest
          | none => if rest.isEmpty then .ok (.vacant child) else .error .notFound
  | .file _ _, _ :: _ => .error .notDirectory
  | .vacant _, _ :: _ => .error .notFound

def canonicalName (directory : Directory) (name : String) : String :=
  directory.root ++ "/" ++ name

def isRooted (path : String) : Bool := path.toList.head? == some '/'

def locate (directory : Directory) (path : String) : String :=
  if isRooted path then path else directory.canonicalName path

/-- Whether a path stays at the root of all files, which is around itself. -/
def staysAtTop (path : String) : Bool :=
  isRooted path &&
    (Text.split '/' path.toList).all fun entry => ["", ".", ".."].contains (String.ofList entry)

/-- The entries that a path leads through below the directory. A path starts with the name of the
directory, or else in it. Of other folders nothing is known but that they are around it, so nothing
is found in them. -/
def entries (directory : Directory) (path : String) : Except SystemError (List String) :=
  let root := (directory.root ++ "/").toList
  let letters := path.toList
  if letters.contains (Char.ofNat 0) then .error .nulInPath
  else if longestPath < path.utf8ByteSize then .error .nameTooLong
  else if root.isPrefixOf letters then
    .ok ((Text.split '/' (letters.drop root.length)).map String.ofList)
  else if staysAtTop path then .ok [".."]
  else if path = "" ∨ isRooted path then .error .notFound
  else .ok ((Text.split '/' letters).map String.ofList)

def resolve (directory : Directory) (path : String) : Except SystemError Spot :=
  (directory.entries path).bind (directory.walk (.folder ""))

def withoutSlashes? (entries : List String) : Option (List String) :=
  if entries.getLast? = some "" then
    some (entries.reverse.dropWhile fun entry => entry = "").reverse
  else none

/-- Where a file is to be that may still have to be made. A name with a slash behind it can only
be that of a folder, whether it is there or not. -/
def resolveNew (directory : Directory) (path : String) : Except SystemError Spot := do
  let entries ← directory.entries path
  match withoutSlashes? entries with
  | none => directory.walk (.folder "") entries
  | some named =>
      match ← directory.walk (.folder "") (named.dropLast ++ [""]) with
      | .folder _ => .error .isDirectory
      | .file _ _ => .error .notDirectory
      | .vacant _ => .error .notFound

def content (directory : Directory) (file : FileId) : Content :=
  directory.contents.getD file .empty

def store (directory : Directory) (file : FileId) (content : Content) : Directory :=
  { directory with contents := directory.contents.insert file content }

def add (directory : Directory) (name : String) (content : Content) : FileId × Directory :=
  (directory.nextFile,
    { directory with
      names := directory.names.insert name directory.nextFile
      contents := directory.contents.insert directory.nextFile content
      nextFile := directory.nextFile + 1 })

/-- An empty file at the path, with its canonical path. A file that is there already loses its
content and stays the same file. -/
def create (directory : Directory) (path : String) :
    Except SystemError (FileId × String) × Directory :=
  match directory.resolveNew path with
  | .error error => (.error error, directory)
  | .ok (.folder _) => (.error .isDirectory, directory)
  | .ok (.file name id) => (.ok (id, directory.canonicalName name), directory.store id .empty)
  | .ok (.vacant name) =>
      let (id, directory) := directory.add name .empty
      (.ok (id, directory.canonicalName name), directory)

def overwriteFile (directory : Directory) (file : FileId) (offset : Nat) (bytes : List UInt8) :
    Except SystemError Unit × Directory :=
  if longestFile < offset + bytes.length then (.error .invalidArgument, directory)
  else (.ok (), directory.store file ((directory.content file).write offset bytes))

def open? (directory : Directory) (path : String) : Except SystemError (FileId × String) :=
  match directory.resolve path with
  | .error error => .error error
  | .ok (.folder _) => .error .isDirectory
  | .ok (.file name id) => .ok (id, directory.canonicalName name)
  | .ok (.vacant _) => .error .notFound

def overwrite (directory : Directory) (path : String) (offset : Nat) (bytes : List UInt8) :
    Except SystemError Unit × Directory :=
  match directory.resolveNew path with
  | .error error => (.error error, directory)
  | .ok (.folder _) => (.error .isDirectory, directory)
  | .ok (.file _ id) => directory.overwriteFile id offset bytes
  | .ok (.vacant name) =>
      let (id, directory) := directory.add name .empty
      directory.overwriteFile id offset bytes

def resize (directory : Directory) (path : String) (length : Nat) :
    Except SystemError Unit × Directory :=
  match directory.open? path with
  | .error error => (.error error, directory)
  | .ok (id, _) =>
      if longestFile < length then (.error .lengthOutOfRange, directory)
      else (.ok (), directory.store id ((directory.content id).resize length))

def remove (directory : Directory) (path : String) : Except SystemError Unit × Directory :=
  match directory.resolve path with
  | .error error => (.error error, directory)
  | .ok (.folder _) => (.error .isDirectory, directory)
  | .ok (.file name _) => (.ok (), { directory with names := directory.names.erase name })
  | .ok (.vacant _) => (.error .notFound, directory)

def entryCount (directory : Directory) (folder : String) : Nat :=
  (directory.folders ++ directory.names.keys).countP fun name => parentName name = folder

def entrySize : Nat := 20

/-- The length of what is at the path. A folder has an entry for itself and one for the folder
around it beside its own. -/
def length (directory : Directory) (path : String) : Except SystemError Nat :=
  match directory.resolve path with
  | .error error => .error error
  | .ok (.folder name) => .ok ((directory.entryCount name + 2) * entrySize)
  | .ok (.file _ id) => .ok (directory.content id).length
  | .ok (.vacant _) => .error .notFound

end Directory

end RecordStore
