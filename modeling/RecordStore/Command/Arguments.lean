import RecordStore.Text.Numeral

set_option autoImplicit false

/-! Parsing of the command line. Switches of the store come before the command's name, those of the
command after it. A switch is given at most once; its value is in the same word, after an equals
sign or directly after its letter, or is the next word if that does not look like a switch. After a
double dash every word is plain. Words are checked one by one, so help is given only if no earlier
word was wrong. -/

namespace RecordStore.Command

inductive Refusal where
  | misused
  | help
  | version
  deriving DecidableEq, Inhabited, Repr

inductive Form where
  | number
  | pageNumber
  | fileName
  deriving DecidableEq, Inhabited, Repr

def Form.accepts : Form → String → Bool
  | .number, text => (Numeral.unsigned64 text.toList).isOk
  | .pageNumber, text => (Numeral.unsigned32 text.toList).isOk
  | .fileName, text => text != ""

structure Switch where
  name : String
  letter : Option Char
  form : Option Form
  deriving DecidableEq, Inhabited, Repr

structure Given where
  values : List (String × String)
  plain : List String
  deriving DecidableEq, Inhabited, Repr

namespace Given

def nothing : Given := ⟨[], []⟩

def value? (given : Given) (name : String) : Option String := given.values.lookup name

def has (given : Given) (name : String) : Bool := (given.value? name).isSome

def add (given : Given) (name value : String) : Except Refusal Given :=
  if name = "help" then .error .help
  else if name = "version" then .error .version
  else if given.has name then .error .misused
  else .ok { given with values := given.values ++ [(name, value)] }

def addValue (given : Given) (switch : Switch) (form : Form) (value : String) :
    Except Refusal Given :=
  if form.accepts value then given.add switch.name value else .error .misused

end Given

inductive Word where
  | plain
  | dashes
  | long (name : String) (value : Option String)
  | short (letters : List Char)
  deriving DecidableEq, Inhabited, Repr

def beforeEquals (text : List Char) : String :=
  String.ofList (text.takeWhile fun character => character != '=')

def afterEquals? (text : List Char) : Option String :=
  match text.dropWhile fun character => character != '=' with
  | [] => none
  | _ :: value => some (String.ofList value)

def Word.of (word : String) : Word :=
  match word.toList with
  | ['-', '-'] => .dashes
  | '-' :: '-' :: text => .long (beforeEquals text) (afterEquals? text)
  | ['-'] => .plain
  | '-' :: letters => .short letters
  | _ => .plain

abbrev Waiting := Option (Switch × Form)

/-- The switches of a word of letters, and the one that still waits for its value. -/
def takeLetters (switches : List Switch) :
    Given → List Char → Except Refusal (Given × Waiting)
  | given, [] => .ok (given, none)
  | given, letter :: rest =>
      match switches.find? fun switch => switch.letter == some letter with
      | none => .error .misused
      | some switch =>
          match switch.form, rest with
          | none, _ =>
              match given.add switch.name "" with
              | .error refusal => .error refusal
              | .ok given => takeLetters switches given rest
          | some form, [] => .ok (given, some (switch, form))
          | some form, '=' :: value =>
              (given.addValue switch form (String.ofList value)).map fun given => (given, none)
          | some form, value =>
              (given.addValue switch form (String.ofList value)).map fun given => (given, none)

def takeName (switches : List Switch) (given : Given) (name : String) (value : Option String) :
    Except Refusal (Given × Waiting) :=
  match switches.find? fun switch => switch.name == name with
  | none => .error .misused
  | some switch =>
      match switch.form, value with
      | some form, none => .ok (given, some (switch, form))
      | some form, some value => (given.addValue switch form value).map fun given => (given, none)
      | none, none => (given.add name "").map fun given => (given, none)
      | none, some _ => .error .misused

inductive PlainWords where
  | refused
  | kept
  | ending
  deriving DecidableEq, Inhabited, Repr

def takePlain (plainWords : PlainWords) (given : Given) (words : List String) :
    Except Refusal Given :=
  match plainWords, words with
  | _, [] => .ok given
  | .kept, words => .ok { given with plain := given.plain ++ words }
  | _, _ :: _ => .error .misused

/-- Reads words up to the end, or up to and without the plain word that ends them. The waiting
switch takes the next plain word. -/
def takeWords (switches : List Switch) (plainWords : PlainWords) :
    Given → Waiting → List String → Except Refusal (Given × List String)
  | given, none, [] => .ok (given, [])
  | _, some _, [] => .error .misused
  | given, waiting, word :: words =>
      match Word.of word, waiting with
      | .plain, some (switch, form) =>
          match given.addValue switch form word with
          | .error refusal => .error refusal
          | .ok given => takeWords switches plainWords given none words
      | .plain, none =>
          match plainWords with
          | .refused => .error .misused
          | .ending => .ok (given, word :: words)
          | .kept =>
              takeWords switches plainWords { given with plain := given.plain ++ [word] } none
                words
      | _, some _ => .error .misused
      | .dashes, none => (takePlain plainWords given words).map fun given => (given, [])
      | .long name value, none =>
          match takeName switches given name value with
          | .error refusal => .error refusal
          | .ok (given, waiting) => takeWords switches plainWords given waiting words
      | .short letters, none =>
          match takeLetters switches given letters with
          | .error refusal => .error refusal
          | .ok (given, waiting) => takeWords switches plainWords given waiting words

def standardPageSize : Nat := 4096

def standardPoolPages : Nat := 50

inductive Task where
  | create
  | insert (rows : List String)
  | delete (page : UInt32) (slot : Nat)
  | scan (asJson : Bool)
  | info
  | stress (threads inserts : Nat)
  deriving DecidableEq, Inhabited, Repr

structure Arguments where
  pageSize : Nat
  poolPages : Nat
  file : String
  columns : Nat
  task : Task
  deriving DecidableEq, Inhabited, Repr

def storeSwitches : List Switch :=
  [⟨"page-size", none, some .number⟩, ⟨"pool-pages", none, some .number⟩,
    ⟨"debug", some 'd', none⟩, ⟨"help", some 'h', none⟩, ⟨"version", some 'V', none⟩]

def tableSwitches : List Switch :=
  [⟨"file", some 'f', some .fileName⟩, ⟨"columns", some 'c', some .number⟩,
    ⟨"help", some 'h', none⟩]

def switchesOf (command : String) : Option (List Switch) :=
  if command = "create" ∨ command = "insert" ∨ command = "info" then some tableSwitches
  else if command = "delete" then
    some (tableSwitches ++
      [⟨"page", none, some .pageNumber⟩, ⟨"slot", none, some .number⟩])
  else if command = "scan" then some (tableSwitches ++ [⟨"json", none, none⟩])
  else if command = "stress" then
    some (tableSwitches ++
      [⟨"threads", some 't', some .number⟩, ⟨"inserts", some 'i', some .number⟩])
  else none

def plainWordsOf (command : String) : PlainWords :=
  if command = "insert" then .kept else .refused

def number (given : Given) (name : String) (standard : Option Nat) : Except Refusal Nat :=
  match given.value? name, standard with
  | some text, _ =>
      match Numeral.unsigned64 text.toList with
      | .ok value => .ok value
      | .error _ => .error .misused
  | none, some value => .ok value
  | none, none => .error .misused

def pageNumber (given : Given) : Except Refusal UInt32 :=
  match given.value? "page" with
  | none => .error .misused
  | some text =>
      match Numeral.unsigned32 text.toList with
      | .ok value => .ok value
      | .error _ => .error .misused

def fileName (given : Given) : Except Refusal String :=
  match given.value? "file" with
  | none => .error .misused
  | some name => .ok name

def taskOf (command : String) (given : Given) : Except Refusal Task :=
  if command = "insert" then
    if given.plain.isEmpty then .error .misused else .ok (.insert given.plain)
  else if command = "create" then .ok .create
  else if command = "info" then .ok .info
  else if command = "scan" then .ok (.scan (given.has "json"))
  else if command = "delete" then do
    let page ← pageNumber given
    let slot ← number given "slot" none
    pure (.delete page slot)
  else do
    let threads ← number given "threads" (some 4)
    let inserts ← number given "inserts" (some 100)
    pure (.stress threads inserts)

def helpFor : List String → Refusal
  | [] => .help
  | [command] => if (switchesOf command).isSome ∨ command = "help" then .help else .misused
  | _ => .misused

def Arguments.read (words : List String) : Except Refusal Arguments := do
  let (settings, words) ← takeWords storeSwitches .ending Given.nothing none words
  let pageSize ← number settings "page-size" (some standardPageSize)
  let poolPages ← number settings "pool-pages" (some standardPoolPages)
  match words with
  | [] => .error .misused
  | command :: words =>
      if command = "help" then .error (helpFor words)
      else
        match switchesOf command with
        | none => .error .misused
        | some switches => do
            let (given, _) ← takeWords switches (plainWordsOf command) Given.nothing none words
            let file ← fileName given
            let columns ← number given "columns" (some 1)
            let task ← taskOf command given
            pure ⟨pageSize, poolPages, file, columns, task⟩

def usage : List String :=
  ["transactional heap files with page-level locking", "",
    "Usage: heapdb [--page-size BYTES] [--pool-pages PAGES] [-d] COMMAND", "", "Commands:",
    "  create -f FILE [-c COLUMNS]", "  insert -f FILE [-c COLUMNS] ROWS...",
    "  delete -f FILE [-c COLUMNS] --page PAGE --slot SLOT",
    "  scan   -f FILE [-c COLUMNS] [--json]", "  info   -f FILE [-c COLUMNS]",
    "  stress -f FILE [-c COLUMNS] [-t THREADS] [-i INSERTS]"]

def programVersion : String := "heapdb 0.1.0"

end RecordStore.Command
