import RecordStore.Json.Precision

set_option autoImplicit false

/-! Readers of JSON text for values of a known shape. A reader takes its value from the front of the
text and returns the rest. The first error from left to right is reported: bad JSON, a text that
ends too early, or JSON of another shape. -/

namespace RecordStore.Json

inductive ReadError where
  | malformed
  | ended
  | shape
  deriving DecidableEq, Inhabited, Repr

abbrev Reader (α : Type) := List Char → Except ReadError (α × List Char)

def isBlank (character : Char) : Bool :=
  character = ' ' || character = '\n' || character = '\t' || character = '\r'

def skipBlanks (text : List Char) : List Char := text.dropWhile isBlank

def isDigit (character : Char) : Bool := '0' ≤ character && character ≤ '9'

def digitValue (character : Char) : Nat := character.toNat - '0'.toNat

def word : List Char → List Char → Except ReadError (List Char)
  | [], text => .ok text
  | _ :: _, [] => .error .ended
  | letter :: letters, character :: text =>
      if letter = character then word letters text else .error .malformed

def hexValue? (character : Char) : Option Nat :=
  if isDigit character then some (digitValue character)
  else if 'a' ≤ character ∧ character ≤ 'f' then some (character.toNat - 'a'.toNat + 10)
  else if 'A' ≤ character ∧ character ≤ 'F' then some (character.toNat - 'A'.toNat + 10)
  else none

def byteLength (text : List Char) : Nat :=
  text.foldr (fun character total => character.utf8Size + total) 0

def hexEscape (text : List Char) : Except ReadError (Nat × List Char) :=
  match text with
  | first :: second :: third :: fourth :: rest =>
      match hexValue? first, hexValue? second, hexValue? third, hexValue? fourth with
      | some first, some second, some third, some fourth =>
          .ok (((first * 16 + second) * 16 + third) * 16 + fourth, rest)
      | _, _, _, _ => .error .malformed
  | _ => if byteLength text < 4 then .error .ended else .error .malformed

def simpleEscape? (character : Char) : Option Char :=
  if character = '"' then some '"'
  else if character = '\\' then some '\\'
  else if character = '/' then some '/'
  else if character = 'b' then some (Char.ofNat 8)
  else if character = 'f' then some (Char.ofNat 12)
  else if character = 'n' then some '\n'
  else if character = 'r' then some '\r'
  else if character = 't' then some '\t'
  else none

def isLeading (unit : Nat) : Bool := 0xD800 ≤ unit && unit ≤ 0xDBFF

def isTrailing (unit : Nat) : Bool := 0xDC00 ≤ unit && unit ≤ 0xDFFF

/-- The character of a numbered escape, after its letter. A surrogate has to be the first half of
a pair, and the second half has to follow it at once. -/
def numberedEscape (text : List Char) : Except ReadError (Char × List Char) :=
  match hexEscape text with
  | .error error => .error error
  | .ok (unit, rest) =>
      if isTrailing unit then .error .malformed
      else if !isLeading unit then .ok (Char.ofNat unit, rest)
      else
        match rest with
        | [] => .error .ended
        | '\\' :: [] => .error .ended
        | '\\' :: 'u' :: rest =>
            match hexEscape rest with
            | .error error => .error error
            | .ok (second, rest) =>
                if isTrailing second then
                  .ok (Char.ofNat ((unit - 0xD800) * 1024 + (second - 0xDC00) + 0x10000), rest)
                else .error .malformed
        | _ => .error .malformed

def quotedBody (skipping : Bool) : (fuel : Nat) → List Char →
    Except ReadError (List Char × List Char)
  | 0, _ => .error .ended
  | _ + 1, [] => .error .ended
  | fuel + 1, character :: rest =>
      if character = '"' then .ok ([], rest)
      else if character = '\\' then
        match rest with
        | [] => .error .ended
        | 'u' :: rest =>
            let escaped := if skipping then
                (hexEscape rest).map fun (_, rest) => (' ', rest)
              else numberedEscape rest
            match escaped with
            | .error error => .error error
            | .ok (character, rest) =>
                (quotedBody skipping fuel rest).map fun (body, rest) => (character :: body, rest)
        | letter :: rest =>
            match simpleEscape? letter with
            | none => .error .malformed
            | some character =>
                (quotedBody skipping fuel rest).map fun (body, rest) => (character :: body, rest)
      else if character.toNat < 32 then .error .malformed
      else (quotedBody skipping fuel rest).map fun (body, rest) => (character :: body, rest)

def afterMark (text : List Char) : Except ReadError (String × List Char) :=
  (quotedBody false (text.length + 1) text).map fun (body, rest) => (String.ofList body, rest)

/-- A number as it was written: its sign, as many of its digits as fit a word, the power of ten
that they are to be taken times, and whether it was written as a whole number. -/
structure Number where
  isNegative : Bool
  word : Nat
  exponent : Int
  isWhole : Bool
  deriving DecidableEq, Inhabited, Repr

def spanDigits (text : List Char) : List Char × List Char :=
  (text.takeWhile isDigit, text.dropWhile isDigit)

def wordEnd : Nat := 18446744073709551616

/-- Appends digits to a word as long as it stays one, and counts the digits that are left. -/
def appendDigits : (word : Nat) → List Char → Nat × Nat
  | word, [] => (word, 0)
  | word, digit :: digits =>
      let longer := word * 10 + digitValue digit
      if longer < wordEnd then appendDigits longer digits else (word, digits.length + 1)

def digitsValue (digits : List Char) : Nat :=
  digits.foldl (fun total digit => total * 10 + digitValue digit) 0

def readExponent (text : List Char) : Except ReadError (Int × List Char) :=
  let (isNegative, text) := match text with
    | '+' :: rest => (false, rest)
    | '-' :: rest => (true, rest)
    | _ => (false, text)
  match spanDigits text with
  | ([], []) => .error .ended
  | ([], _ :: _) => .error .malformed
  | (digits, rest) =>
      let value : Int := digitsValue digits
      .ok (if isNegative then -value else value, rest)

def readPower (number : Number) (text : List Char) : Except ReadError (Number × List Char) :=
  match text with
  | [] => .ok (number, text)
  | letter :: rest =>
      if letter = 'e' ∨ letter = 'E' then
        (readExponent rest).map fun (exponent, rest) =>
          ({ number with exponent := number.exponent + exponent, isWhole := false }, rest)
      else .ok (number, text)

def readFraction (isNegative : Bool) (whole text : List Char) :
    Except ReadError (Number × List Char) :=
  let (word, left) := appendDigits 0 whole
  match text with
  | '.' :: rest =>
      match spanDigits rest with
      | ([], []) => .error .ended
      | ([], _ :: _) => .error .malformed
      | (digits, rest) =>
          let (word, cut) := appendDigits word digits
          readPower ⟨isNegative, word, (left + cut : Nat) - (digits.length : Int), false⟩ rest
  | _ => readPower ⟨isNegative, word, left, true⟩ text

/-- The digits of a number after its sign; a zero may not be followed by a digit. -/
def readMagnitude (isNegative : Bool) (text : List Char) :
    Except ReadError (Number × List Char) :=
  match text with
  | [] => .error .ended
  | '0' :: rest =>
      match rest with
      | next :: _ =>
          if isDigit next then .error .malformed else readFraction isNegative ['0'] rest
      | [] => readFraction isNegative ['0'] rest
  | _ =>
      match spanDigits text with
      | ([], _) => .error .malformed
      | (digits, rest) => readFraction isNegative digits rest

/-- Numbers that are not finite in double precision are no JSON. -/
def checkedNumber (isNegative : Bool) (text : List Char) :
    Except ReadError (Number × List Char) :=
  match readMagnitude isNegative text with
  | .error error => .error error
  | .ok (number, rest) =>
      if Precision.isFinite number.word number.exponent then .ok (number, rest)
      else .error .malformed

def readNumber (text : List Char) : Except ReadError (Number × List Char) :=
  match text with
  | '-' :: rest => checkedNumber true rest
  | _ => checkedNumber false text

/-- The whole number that was written, if it was written without a fraction or an exponent and
all its digits fit a word. A negative zero is no whole number. -/
def Number.whole? (number : Number) : Option Int :=
  if !number.isWhole || number.exponent != 0 then none
  else if !number.isNegative then some number.word
  else if number.word = 0 then none
  else some (-(number.word : Int))

/-- The error for a value that is not of the shape wanted: of the shape if what stands there is
the beginning of some value. -/
def mismatch (text : List Char) : ReadError :=
  let ofResult {α : Type} (result : Except ReadError α) : ReadError :=
    match result with
    | .ok _ => .shape
    | .error error => error
  match text with
  | [] => .ended
  | character :: rest =>
      if character = 'n' then ofResult (word ['u', 'l', 'l'] rest)
      else if character = 't' then ofResult (word ['r', 'u', 'e'] rest)
      else if character = 'f' then ofResult (word ['a', 'l', 's', 'e'] rest)
      else if character = '-' || isDigit character then ofResult (readNumber text)
      else if character = '"' then ofResult (afterMark rest)
      else if character = '[' || character = '\x7b' then .shape
      else .malformed

def integer (least most : Int) : Reader Int := fun text =>
  let text := skipBlanks text
  match text with
  | [] => .error .ended
  | character :: _ =>
      if character = '-' || isDigit character then
        match readNumber text with
        | .error error => .error error
        | .ok (number, rest) =>
            match number.whole? with
            | none => .error .shape
            | some value => if least ≤ value ∧ value ≤ most then .ok (value, rest) else .error .shape
      else .error (mismatch text)

def string : Reader String := fun text =>
  let text := skipBlanks text
  match text with
  | [] => .error .ended
  | '"' :: rest => afterMark rest
  | _ => .error (mismatch text)

def null : Reader Unit := fun text =>
  let text := skipBlanks text
  match text with
  | [] => .error .ended
  | 'n' :: rest => (word ['u', 'l', 'l'] rest).map fun rest => ((), rest)
  | _ => .error (mismatch text)

def optional {α : Type} (value : Reader α) : Reader (Option α) := fun text =>
  match skipBlanks text with
  | 'n' :: rest => (word ['u', 'l', 'l'] rest).map fun rest => (none, rest)
  | text => (value text).map fun (found, rest) => (some found, rest)

def colon (text : List Char) : Except ReadError (List Char) :=
  match skipBlanks text with
  | [] => .error .ended
  | ':' :: rest => .ok rest
  | _ => .error .malformed

def closeBrace (text : List Char) : Except ReadError (List Char) :=
  match skipBlanks text with
  | [] => .error .ended
  | '\x7d' :: rest => .ok rest
  | _ => .error .malformed

def closeBracket (text : List Char) : Except ReadError (List Char) :=
  match skipBlanks text with
  | [] => .error .ended
  | ']' :: rest => .ok rest
  | _ => .error .malformed

def key : Reader String := fun text =>
  match skipBlanks text with
  | [] => .error .ended
  | '"' :: rest => afterMark rest
  | _ => .error .malformed

/-- One of some variants: its name alone, or an object whose only key is the name. Each variant
says how it is read alone and how its content is read. -/
def variant {α : Type} (alone : String → Except ReadError α)
    (content : String → Except ReadError (Reader α)) : Reader α := fun text =>
  match skipBlanks text with
  | [] => .error .ended
  | '"' :: rest =>
      match afterMark rest with
      | .error error => .error error
      | .ok (name, rest) => (alone name).map fun value => (value, rest)
  | '\x7b' :: rest => do
      let (name, rest) ← key rest
      let read ← content name
      let rest ← colon rest
      let (value, rest) ← read rest
      let rest ← closeBrace rest
      pure (value, rest)
  | _ => .error .malformed

def hasElement (isFirst : Bool) (text : List Char) : Except ReadError (Bool × List Char) :=
  match skipBlanks text with
  | [] => .error .ended
  | ']' :: rest => .ok (false, ']' :: rest)
  | ',' :: rest =>
      if isFirst then .ok (true, ',' :: rest)
      else
        match skipBlanks rest with
        | [] => .error .ended
        | ']' :: _ => .error .malformed
        | rest => .ok (true, rest)
  | rest => if isFirst then .ok (true, rest) else .error .malformed

def elements {α : Type} (element : Reader α) : (fuel : Nat) → (isFirst : Bool) → Reader (List α)
  | 0, _, _ => .error .ended
  | fuel + 1, isFirst, text => do
      let (more, text) ← hasElement isFirst text
      if more then
        let (value, text) ← element text
        let (values, text) ← elements element fuel false text
        pure (value :: values, text)
      else pure ([], text)

def array {α : Type} (element : Reader α) : Reader (List α) := fun text =>
  let text := skipBlanks text
  match text with
  | [] => .error .ended
  | '[' :: rest => do
      let (values, rest) ← elements element (rest.length + 1) true rest
      let rest ← closeBracket rest
      pure (values, rest)
  | _ => .error (mismatch text)

mutual

def skipValue : (fuel : Nat) → List Char → Except ReadError (List Char)
  | 0, _ => .error .ended
  | fuel + 1, text =>
      let text := skipBlanks text
      match text with
      | [] => .error .ended
      | '[' :: rest =>
          match skipBlanks rest with
          | ']' :: rest => .ok rest
          | rest => skipElements fuel rest
      | character :: rest =>
          if character = '\x7b' then
            match skipBlanks rest with
            | '\x7d' :: rest => .ok rest
            | rest => skipMembers fuel rest
          else if character = 'n' then word ['u', 'l', 'l'] rest
          else if character = 't' then word ['r', 'u', 'e'] rest
          else if character = 'f' then word ['a', 'l', 's', 'e'] rest
          else if character = '"' then
            (quotedBody true (rest.length + 1) rest).map fun (_, rest) => rest
          else if character = '-' || isDigit character then
            match text with
            | '-' :: rest => skipNumber rest
            | _ => skipNumber text
          else .error .malformed

def skipElements : (fuel : Nat) → List Char → Except ReadError (List Char)
  | 0, _ => .error .ended
  | fuel + 1, text =>
      match skipValue fuel text with
      | .error error => .error error
      | .ok rest =>
          match skipBlanks rest with
          | [] => .error .ended
          | ',' :: rest => skipElements fuel rest
          | ']' :: rest => .ok rest
          | _ => .error .malformed

def skipMembers : (fuel : Nat) → List Char → Except ReadError (List Char)
  | 0, _ => .error .ended
  | fuel + 1, text =>
      match skipBlanks text with
      | [] => .error .ended
      | '"' :: rest =>
          match quotedBody true (rest.length + 1) rest with
          | .error error => .error error
          | .ok (_, rest) =>
              match colon rest with
              | .error error => .error error
              | .ok rest =>
                  match skipValue fuel rest with
                  | .error error => .error error
                  | .ok rest =>
                      match skipBlanks rest with
                      | [] => .error .ended
                      | ',' :: rest => skipMembers fuel rest
                      | '\x7d' :: rest => .ok rest
                      | _ => .error .malformed
      | _ => .error .malformed

def skipNumber (text : List Char) : Except ReadError (List Char) :=
  match readMagnitude false text with
  | .ok (_, rest) => .ok rest
  | .error _ => .error .malformed

end

def ignored : Reader Unit := fun text =>
  (skipValue (2 * text.length + 2) text).map fun rest => ((), rest)

/-- The members of an object, up to its closing brace. Each key says how its value goes on from
what has been read so far, or why it may not stand there. -/
def members {σ : Type} (member : σ → String → Except ReadError (Reader σ)) :
    (fuel : Nat) → (isFirst : Bool) → σ → Reader σ
  | 0, _, _, _ => .error .ended
  | fuel + 1, isFirst, state, text => do
      let key ← match skipBlanks text with
        | [] => .error .ended
        | '\x7d' :: rest => .ok (Except.error ('\x7d' :: rest))
        | ',' :: rest =>
            if isFirst then .error .malformed
            else
              match skipBlanks rest with
              | [] => .error .ended
              | '"' :: rest => .ok (Except.ok rest)
              | _ => .error .malformed
        | '"' :: rest => if isFirst then .ok (Except.ok rest) else .error .malformed
        | _ => .error .malformed
      match key with
      | .error rest => pure (state, rest)
      | .ok rest =>
          let (name, rest) ← afterMark rest
          let read ← member state name
          let rest ← colon rest
          let (state, rest) ← read rest
          members member fuel false state rest

structure Part (α : Type) where
  name : String
  read : Reader α
  absent : Option α

def Part.finish {α : Type} (part : Part α) (found : Option α) : Except ReadError α :=
  match found.or part.absent with
  | some value => .ok value
  | none => .error .shape

def Part.element {α : Type} (part : Part α) (isFirst : Bool) : Reader α := fun text => do
  let (more, text) ← hasElement isFirst text
  if more then part.read text else .error .shape

/-- A record of two parts: an object with them in any order, other keys being passed over, or an
array with them in this order. -/
def record {α β : Type} (first : Part α) (second : Part β) : Reader (α × β) := fun text =>
  let text := skipBlanks text
  match text with
  | [] => .error .ended
  | '[' :: rest => do
      let (one, rest) ← first.element true rest
      let (two, rest) ← second.element false rest
      let rest ← closeBracket rest
      pure ((one, two), rest)
  | '\x7b' :: rest => do
      let member (state : Option α × Option β) (name : String) :
          Except ReadError (Reader (Option α × Option β)) :=
        if name = first.name then
          if state.1.isSome then .error .shape
          else .ok fun text =>
            (first.read text).map fun (value, rest) => ((some value, state.2), rest)
        else if name = second.name then
          if state.2.isSome then .error .shape
          else .ok fun text =>
            (second.read text).map fun (value, rest) => ((state.1, some value), rest)
        else .ok fun text => (ignored text).map fun (_, rest) => (state, rest)
      let (state, rest) ← members member (rest.length + 1) true (none, none) rest
      let one ← first.finish state.1
      let two ← second.finish state.2
      let rest ← closeBrace rest
      pure ((one, two), rest)
  | _ => .error (mismatch text)

def single {α : Type} (part : Part α) : Reader α := fun text =>
  let text := skipBlanks text
  match text with
  | [] => .error .ended
  | '[' :: rest => do
      let (value, rest) ← part.element true rest
      let rest ← closeBracket rest
      pure (value, rest)
  | '\x7b' :: rest => do
      let member (state : Option α) (name : String) : Except ReadError (Reader (Option α)) :=
        if name = part.name then
          if state.isSome then .error .shape
          else .ok fun text => (part.read text).map fun (value, rest) => (some value, rest)
        else .ok fun text => (ignored text).map fun (_, rest) => (state, rest)
      let (state, rest) ← members member (rest.length + 1) true none rest
      let value ← part.finish state
      let rest ← closeBrace rest
      pure (value, rest)
  | _ => .error (mismatch text)

def readAll {α : Type} (read : Reader α) (text : String) : Except ReadError α := do
  let (value, rest) ← read text.toList
  if (skipBlanks rest).isEmpty then pure value else .error .malformed

end RecordStore.Json
