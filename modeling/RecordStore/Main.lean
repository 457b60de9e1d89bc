import RecordStore.Command.Run

set_option autoImplicit false

/-! The program. The file named by the arguments is loaded into a directory, the command runs there,
and the file is written back if it has changed. -/

namespace RecordStore.Command

def splitPath (path : String) : String × String :=
  let backwards := path.toList.reverse
  let isPart (character : Char) : Bool := character != '/'
  (String.ofList ((backwards.dropWhile isPart).drop 1).reverse,
    String.ofList (backwards.takeWhile isPart).reverse)

def splitSlashes (path : String) : String × String :=
  let backwards := path.toList.reverse
  let isSlash (character : Char) : Bool := character == '/'
  (String.ofList (backwards.dropWhile isSlash).reverse,
    String.ofList (backwards.takeWhile isSlash))

structure Workplace where
  path : String
  directory : Directory

def Workplace.vacant (folder name : String) : Workplace :=
  ⟨name, Directory.empty (if folder = "/" then "" else folder) []⟩

def Workplace.file (folder name slashes : String) (bytes : List UInt8) : Workplace :=
  ⟨name ++ slashes, ((Directory.empty folder []).add name (Content.ofList bytes)).2⟩

def Workplace.bytes? (workplace : Workplace) : Option (List UInt8) :=
  match workplace.directory.open? workplace.path with
  | .ok (file, _) => some (workplace.directory.content file).toList
  | .error _ => none

def canonical? (path : String) : IO (Option String) := do
  try
    pure (some (← IO.FS.realPath path).toString)
  catch _ =>
    pure none

def load (path : String) : IO Workplace := do
  let (stem, slashes) := splitSlashes path
  match ← canonical? (if stem = "" then path else stem) with
  | some canonical => do
      let (folder, name) := splitPath canonical
      if ← (← IO.FS.realPath canonical).isDir then
        pure ⟨name ++ slashes, Directory.empty folder [name]⟩
      else
        pure (Workplace.file folder name slashes (← IO.FS.readBinFile canonical).toList)
  | none => do
      let (folder, name) := splitPath stem
      match ← canonical? (if stem.startsWith "/" then folder ++ "/" else "./" ++ folder) with
      | some folder => pure (Workplace.vacant folder (name ++ slashes))
      | none => pure ⟨path, Directory.empty "" []⟩

def save (before : Workplace) (directory : Directory) : IO Unit := do
  match (⟨before.path, directory⟩ : Workplace).bytes? with
  | some bytes =>
      if before.bytes? != some bytes then
        IO.FS.writeBinFile (directory.canonicalName before.path) (ByteArray.mk bytes.toArray)
  | none => pure ()

def present (result : Result) : IO UInt32 := do
  result.lines.forM fun line => IO.println line
  match result.ending with
  | .misused => usage.forM fun line => IO.eprintln line
  | .crashed fault => IO.eprintln fault.text
  | ending => ending.report.forM fun line => IO.eprintln line
  pure (UInt32.ofNat result.ending.code)

def start (words : List String) : IO UInt32 := do
  match Arguments.read words with
  | .error refusal => present (refusal.result (Directory.empty "" []))
  | .ok arguments => do
      let workplace ← load arguments.file
      let result := arguments.run workplace.path workplace.directory
      save workplace result.directory
      present result

end RecordStore.Command

def main (words : List String) : IO UInt32 := RecordStore.Command.start words
