import RecordStore.Proofs.Disk.Pages
import RecordStore.Proofs.Map
import RecordStore.Table

set_option autoImplicit false

/-! File names and table ids. Tables with different ids have different files, and creating or
opening one leaves the files of the others unchanged. -/

namespace RecordStore

namespace Directory

structure Orderly (directory : Directory) : Prop where
  apart : ∀ (first second : String) (file : FileId), directory.names[first]? = some file →
    directory.names[second]? = some file → first = second
  issued : ∀ (name : String) (file : FileId), directory.names[name]? = some file →
    file < directory.nextFile

theorem Orderly.empty (root : String) (folders : List String) :
    (Directory.empty root folders).Orderly := by
  have nameless : ∀ (name : String) (file : FileId),
      (Directory.empty root folders).names[name]? ≠ some file := by
    intro name file here
    change (∅ : Std.ExtTreeMap String FileId)[name]? = some file at here
    rw [Std.ExtTreeMap.getElem?_empty] at here
    cases here
  constructor
  · intro first second file here
    exact absurd here (nameless first file)
  · intro name file here
    exact absurd here (nameless name file)

structure SameNames (after before : Directory) : Prop where
  root : after.root = before.root
  folders : after.folders = before.folders
  names : after.names = before.names
  nextFile : after.nextFile = before.nextFile

theorem SameNames.refl (directory : Directory) : directory.SameNames directory :=
  ⟨rfl, rfl, rfl, rfl⟩

theorem SameNames.trans {first second third : Directory} (later : first.SameNames second)
    (earlier : second.SameNames third) : first.SameNames third where
  root := later.root.trans earlier.root
  folders := later.folders.trans earlier.folders
  names := later.names.trans earlier.names
  nextFile := later.nextFile.trans earlier.nextFile

theorem SameNames.orderly {after before : Directory} (same : after.SameNames before)
    (orderly : before.Orderly) : after.Orderly := by
  constructor
  · intro first second file here there
    rw [same.names] at here there
    exact orderly.apart first second file here there
  · intro name file here
    rw [same.names] at here
    rw [same.nextFile]
    exact orderly.issued name file here

variable {directory after : Directory} {name path canonical : String} {file : FileId}

theorem sameNames_store (directory : Directory) (file : FileId) (content : Content) :
    (directory.store file content).SameNames directory := ⟨rfl, rfl, rfl, rfl⟩

theorem Orderly.add (orderly : directory.Orderly) (name : String) (content : Content) :
    (directory.add name content).2.Orderly := by
  have issued : ∀ (other : String) (file : FileId),
      (directory.add name content).2.names[other]? = some file →
      (name = other ∧ file = directory.nextFile) ∨
        (directory.names[other]? = some file ∧ file < directory.nextFile) := by
    intro other file here
    change (directory.names.insert name directory.nextFile)[other]? = some file at here
    rw [lookup_insert] at here
    split at here
    · next same => exact .inl ⟨same, (Option.some.inj here).symm⟩
    · exact .inr ⟨here, orderly.issued other file here⟩
  constructor
  · intro first second file here there
    rcases issued first file here with ⟨rfl, rfl⟩ | ⟨here, below⟩
    · rcases issued second directory.nextFile there with ⟨rfl, -⟩ | ⟨-, below⟩
      · rfl
      · exact absurd below (Nat.lt_irrefl _)
    · rcases issued second file there with ⟨-, rfl⟩ | ⟨there, -⟩
      · exact absurd below (Nat.lt_irrefl _)
      · exact orderly.apart first second file here there
  · intro other file here
    rcases issued other file here with ⟨-, rfl⟩ | ⟨-, below⟩
    · exact Nat.lt_succ_self _
    · exact Nat.lt_succ_of_lt below

theorem content_add_other {other : FileId} (name : String) (content : Content)
    (apart : directory.nextFile ≠ other) :
    (directory.add name content).2.content other = directory.content other := by
  have same := directory.content_store directory.nextFile other content
  rw [if_neg apart] at same
  exact same

/-! ### Resolving paths -/

theorem folder_named (directory : Directory) (folder name : String) (file : FileId)
    (same : Spot.folder folder = .file name file) : directory.names[name]? = some file := by
  cases same

theorem names_of_walk {spot : Spot} {entries : List String}
    (known : ∀ name file, spot = .file name file → directory.names[name]? = some file)
    (found : directory.walk spot entries = .ok (.file name file)) :
    directory.names[name]? = some file := by
  fun_induction directory.walk spot entries with
  | case1 spot => exact known name file (Except.ok.inj found)
  | case2 folder rest ih => exact ih (directory.folder_named _) found
  | case3 folder rest ih => exact ih (directory.folder_named _) found
  | case4 folder rest ih => exact ih (directory.folder_named _) found
  | case5 => cases found
  | case6 folder entry rest _ _ _ _ child inside ih => exact ih (directory.folder_named _) found
  | case7 folder entry rest _ _ _ _ child outside id present ih =>
      apply ih _ found
      intro other file same
      cases same
      exact present
  | case8 => cases found
  | case9 => cases found
  | case10 => cases found
  | case11 => cases found

theorem names_of_resolve (found : directory.resolve path = .ok (.file name file)) :
    directory.names[name]? = some file := by
  unfold resolve at found
  cases listed : directory.entries path with
  | error error =>
      rw [listed] at found
      cases found
  | ok entries =>
      rw [listed] at found
      exact names_of_walk (directory.folder_named _) found

theorem names_of_resolveNew (found : directory.resolveNew path = .ok (.file name file)) :
    directory.names[name]? = some file := by
  unfold resolveNew at found
  cases listed : directory.entries path with
  | error error =>
      rw [listed] at found
      cases found
  | ok entries =>
      simp only [listed, bind, Except.bind] at found
      split at found
      · exact names_of_walk (directory.folder_named _) found
      · next named slashes =>
          -- a path that ends in a slash is never that of a file
          split at found
          · cases found
          · split at found <;> cases found

theorem create_ok (created : directory.create path = (.ok (file, canonical), after)) :
    ∃ name, canonical = directory.canonicalName name ∧
      ((directory.names[name]? = some file ∧ after = directory.store file .empty) ∨
        (file = directory.nextFile ∧ after = (directory.add name .empty).2)) := by
  unfold create at created
  split at created
  · cases created
  · cases created
  · next name id found =>
      cases created
      exact ⟨name, rfl, .inl ⟨names_of_resolveNew found, rfl⟩⟩
  · next name found =>
      cases created
      exact ⟨name, rfl, .inr ⟨rfl, rfl⟩⟩

theorem open?_ok (opened : directory.open? path = .ok (file, canonical)) :
    ∃ name, canonical = directory.canonicalName name ∧ directory.names[name]? = some file := by
  unfold open? at opened
  split at opened
  · cases opened
  · cases opened
  · next name id found =>
      cases opened
      exact ⟨name, rfl, names_of_resolve found⟩
  · cases opened

theorem SameNames.walk_eq (same : after.SameNames directory) (spot : Spot)
    (entries : List String) : after.walk spot entries = directory.walk spot entries := by
  fun_induction directory.walk spot entries with
  | case1 spot => exact walk.eq_1 after spot
  | case2 folder rest ih => exact ih
  | case3 folder rest ih => exact ih
  | case4 folder rest ih => exact ih
  | _ => grind [walk, same.folders, same.names]

theorem SameNames.open?_eq (same : after.SameNames directory) (path : String) :
    after.open? path = directory.open? path := by
  have canonical (name : String) : after.canonicalName name = directory.canonicalName name := by
    rw [canonicalName, canonicalName, same.root]
  have entries : after.entries path = directory.entries path := by
    rw [Directory.entries, Directory.entries, same.root]
  have walked : after.walk (.folder "") = directory.walk (.folder "") := by
    funext entries
    exact same.walk_eq _ entries
  rw [open?, open?, resolve, resolve, entries, walked]
  simp only [canonical]

end Directory

/-! ### Tables and their files -/

namespace Table

structure Known (table : Table) (directory : Directory) : Prop where
  issued : table.pages.file < directory.nextFile
  named : ∀ name : String, directory.names[name]? = some table.pages.file →
    table.id = idOf (directory.canonicalName name)

inductive Opening (directory : Directory) : Table → Directory → Prop where
  | created {pageSize : Nat} {path : String} {schema : Schema} {table : Table}
      {after : Directory} :
      create directory pageSize path schema = (.ok table, after) →
      Opening directory table after
  | opened {pageSize : Nat} {path : String} {schema : Schema} {table : Table} :
      open? directory pageSize path schema = .ok table → Opening directory table directory

structure Joins (table : Table) (directory after : Directory) : Prop where
  orderly : after.Orderly
  known : table.Known after
  others : ∀ other : Table, other.Known directory → other.Known after
  own : ∀ other : Table, other.Known directory → other.pages.file = table.pages.file →
    other.id = table.id
  contents : ∀ other : Table, other.Known directory → other.pages.file ≠ table.pages.file →
    after.content other.pages.file = directory.content other.pages.file

variable {directory after : Directory} {table other : Table}

theorem Known.of_same (known : table.Known directory) (same : after.SameNames directory) :
    table.Known after := by
  constructor
  · rw [same.nextFile]
    exact known.issued
  · intro name here
    rw [same.names] at here
    rw [known.named name here, Directory.canonicalName, Directory.canonicalName, same.root]

theorem Known.add (known : other.Known directory) (name : String) (content : Content) :
    other.Known (directory.add name content).2 := by
  constructor
  · exact Nat.lt_succ_of_lt known.issued
  · intro place here
    change (directory.names.insert name directory.nextFile)[place]? = _ at here
    rw [lookup_insert] at here
    split at here
    · have issued := known.issued
      rw [← Option.some.inj here] at issued
      exact absurd issued (Nat.lt_irrefl _)
    · exact known.named place here

theorem create_eq {pageSize : Nat} {path : String} {schema : Schema}
    (created : create directory pageSize path schema = (.ok table, after)) :
    ∃ file canonical, directory.create path = (.ok (file, canonical), after) ∧
      table = ofFile pageSize schema file canonical := by
  unfold create at created
  split at created
  · cases created
  · next file canonical made done =>
      cases created
      exact ⟨file, canonical, done, rfl⟩

theorem create_eq_ofFile {file : FileId} {path canonical : String}
    (made : directory.create path = (.ok (file, canonical), after)) (pageSize : Nat)
    (schema : Schema) :
    create directory pageSize path schema =
      (.ok (ofFile pageSize schema file canonical), after) := by
  rw [create, made]

theorem joins_of_named (orderly : directory.Orderly) (same : after.SameNames directory)
    {name : String} (here : directory.names[name]? = some table.pages.file)
    (idIs : table.id = idOf (directory.canonicalName name))
    (contents : ∀ file, file ≠ table.pages.file → after.content file = directory.content file) :
    table.Joins directory after := by
  have known : table.Known directory := by
    refine ⟨orderly.issued name _ here, ?_⟩
    intro other there
    rw [orderly.apart other name _ there here]
    exact idIs
  refine ⟨same.orderly orderly, known.of_same same, fun other found => found.of_same same, ?_, ?_⟩
  · intro other found file
    rw [idIs]
    exact found.named name (file ▸ here)
  · intro other found apart
    exact contents _ apart

theorem joins_of_added (orderly : directory.Orderly) {name : String}
    (fresh : table.pages.file = directory.nextFile)
    (idIs : table.id = idOf (directory.canonicalName name)) (content : Content) :
    table.Joins directory (directory.add name content).2 := by
  have ordered := orderly.add name content
  have here : (directory.add name content).2.names[name]? = some table.pages.file := by
    change (directory.names.insert name directory.nextFile)[name]? = _
    rw [lookup_insert, if_pos rfl, fresh]
  refine ⟨ordered, ⟨?_, ?_⟩, fun other found => found.add name content, ?_, ?_⟩
  · rw [fresh]
    exact Nat.lt_succ_self _
  · intro other there
    rw [ordered.apart other name _ there here]
    exact idIs
  · intro other found file
    have issued := found.issued
    rw [file, fresh] at issued
    exact absurd issued (Nat.lt_irrefl _)
  · intro other found apart
    apply Directory.content_add_other
    rw [← fresh]
    exact apart.symm

theorem Opening.joins (opening : Opening directory table after) (orderly : directory.Orderly) :
    table.Joins directory after := by
  rcases opening with created | opened
  · obtain ⟨file, canonical, made, rfl⟩ := create_eq created
    obtain ⟨name, rfl, ⟨here, rfl⟩ | ⟨rfl, rfl⟩⟩ := Directory.create_ok made
    · apply joins_of_named orderly (directory.sameNames_store file .empty) here rfl
      intro other apart
      exact (directory.content_store file other .empty).trans (if_neg fun same => apart same.symm)
    · exact joins_of_added orderly rfl rfl .empty
  · unfold open? at opened
    split at opened
    · cases opened
    · next file canonical found =>
        cases opened
        obtain ⟨name, rfl, here⟩ := Directory.open?_ok found
        exact joins_of_named orderly (.refl _) here rfl fun _ _ => rfl

theorem content_of_create {pageSize : Nat} {path : String} {schema : Schema}
    (created : create directory pageSize path schema = (.ok table, after)) :
    after.content table.pages.file = .empty ∧ table.pageSize = pageSize := by
  obtain ⟨file, canonical, made, rfl⟩ := create_eq created
  refine ⟨?_, rfl⟩
  obtain ⟨name, -, ⟨-, rfl⟩ | ⟨rfl, rfl⟩⟩ := Directory.create_ok made
  · exact (directory.content_store file file .empty).trans (if_pos rfl)
  · exact (directory.content_store directory.nextFile directory.nextFile .empty).trans (if_pos rfl)

end Table

end RecordStore
