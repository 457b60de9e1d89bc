import RecordStore.Command.Run
import RecordStore.Proofs.Text.Numeral
import Mathlib.Data.List.Forall2

set_option autoImplicit false

/-! `read` accepts exactly the texts with one numeral for each column, separated by commas and
surrounded by blanks, and `write` is read back as the same values. -/

namespace RecordStore

namespace Text

theorem split_eq_splitOn (separator : Char) (text : List Char) :
    split separator text = text.splitOn separator := by
  induction text with
  | nil => rfl
  | cons character rest ih =>
      rw [split, ih, List.splitOn_cons_eq_if_modifyHead]
      by_cases same : character = separator
      · rw [if_pos same, if_pos (beq_iff_eq.mpr same)]
      · rw [if_neg same, if_neg fun equal => same (beq_iff_eq.mp equal)]
        cases pieces : rest.splitOn separator with
        | nil => exact absurd pieces (List.splitOn_ne_nil separator rest)
        | cons piece pieces => rfl

theorem toList_join (separator : String) (pieces : List String) :
    (join separator pieces).toList =
      separator.toList.intercalate (pieces.map String.toList) := by
  induction pieces with
  | nil => rfl
  | cons piece pieces ih =>
      cases pieces with
      | nil => rw [join, List.map_singleton, List.intercalate_singleton]
      | cons next pieces =>
          rw [join, String.toList_append, String.toList_append, ih]
          · simp only [List.map_cons, List.intercalate_cons_cons]
          · exact List.cons_ne_nil next pieces

end Text

namespace RowText

/-- Cut at its commas, the text has one piece for each number, which denotes it. -/
def Spells (text : String) (words : List Int32) : Prop :=
  List.Forall₂ Denotes (text.toList.splitOn ',') words

variable {schema : Schema} {columns : Nat} {row : Row} {text : String} {words : List Int32}

theorem numbers_ok_iff {pieces : List (List Char)} :
    numbers text pieces = .ok words ↔ List.Forall₂ Denotes pieces words := by
  induction pieces generalizing words with
  | nil =>
      rw [numbers, Except.ok.injEq, List.forall₂_nil_left_iff]
      exact eq_comm
  | cons piece pieces ih =>
      rw [numbers, List.forall₂_cons_left_iff]
      cases first : Numeral.signed32 (Blank.trim piece) with
      | error cause =>
          refine ⟨nofun, ?_⟩
          rintro ⟨word, _, denotes, -, -⟩
          rw [Numeral.signed32_ok_iff.mpr (denotes_iff.mp denotes)] at first
          cases first
      | ok word =>
          have denotes := denotes_iff.mpr (Numeral.signed32_ok_iff.mp first)
          cases rest : numbers text pieces with
          | error fault =>
              refine ⟨nofun, ?_⟩
              rintro ⟨_, others, -, later, -⟩
              rw [ih.mpr later] at rest
              cases rest
          | ok others =>
              have later := ih.mp rest
              constructor
              · intro same
                exact ⟨word, others, denotes, later, (Except.ok.inj same).symm⟩
              · rintro ⟨other, tail, denotesToo, laterToo, rfl⟩
                have head := Numeral.signed32_ok_iff.mpr (denotes_iff.mp denotesToo)
                rw [first, Except.ok.injEq] at head
                rw [ih.mpr laterToo, Except.ok.injEq] at rest
                rw [head, rest]
                rfl

theorem read_ok_iff (integers : schema.types = List.replicate columns .int) :
    read schema text = .ok row ↔
      ∃ words, Spells text words ∧ words.length = columns ∧ row.schema = schema ∧
        row.values = words.map .int ∧ row.place = none := by
  have count : schema.count = columns := by
    have lengths := congrArg List.length integers
    rwa [Schema.types, List.length_map, List.length_replicate] at lengths
  have typed : ∀ words : List Int32, words.length = columns →
      (words.map Value.int).map Value.type = schema.types := by
    rintro words rfl
    rw [integers, List.map_map]
    exact List.map_const'
  rw [read, Text.split_eq_splitOn]
  cases found : numbers text (text.toList.splitOn ',') with
  | error fault =>
      refine ⟨nofun, ?_⟩
      rintro ⟨words, spells, -⟩
      rw [numbers_ok_iff.mpr spells] at found
      cases found
  | ok words =>
      have spells : Spells text words := numbers_ok_iff.mp found
      have only : ∀ others, Spells text others → others = words := by
        intro others spellsToo
        rw [numbers_ok_iff.mpr spellsToo] at found
        exact Except.ok.inj found
      dsimp only
      rw [count]
      by_cases full : words.length = columns
      · rw [if_pos full, Row.make, dif_pos (typed words full)]
        constructor
        · intro same
          rw [← Except.ok.inj same]
          exact ⟨words, spells, full, rfl, rfl, rfl⟩
        · rintro ⟨others, spellsToo, -, ofSchema, values, place⟩
          rw [only others spellsToo] at values
          refine congrArg Except.ok ?_
          cases row
          subst ofSchema values place
          rfl
      · rw [if_neg full]
        refine ⟨nofun, ?_⟩
        rintro ⟨others, spellsToo, fullToo, -⟩
        exact absurd (only others spellsToo ▸ fullToo) full

/-! ### Printed rows -/

theorem exists_words {values : List Value}
    (integers : values.map Value.type = List.replicate columns .int) :
    ∃ words : List Int32, words.length = columns ∧ values = words.map .int := by
  induction values generalizing columns with
  | nil =>
      have none : columns = 0 := (List.replicate_eq_nil_iff _).mp integers.symm
      exact ⟨[], none.symm, rfl⟩
  | cons value values ih =>
      obtain ⟨others, rfl⟩ : ∃ others, columns = others + 1 := by
        have lengths := congrArg List.length integers
        rw [List.length_map, List.length_cons, List.length_replicate] at lengths
        exact ⟨values.length, lengths.symm⟩
      rw [List.map_cons, List.replicate_succ, List.cons.injEq] at integers
      obtain ⟨words, full, same⟩ := ih integers.2
      cases value with
      | int word => exact ⟨word :: words, congrArg Nat.succ full, congrArg _ same⟩
      | text content => exact nomatch integers.1

theorem denotes_display (word : Int32) :
    Denotes (Value.int word).display.toList word ∧ ',' ∉ (Value.int word).display.toList := by
  have stands : StandsFor (Value.int word).display.toList word.toInt :=
    Numeral.standsFor_toString word.toInt
  constructor
  · exact ⟨[], _, [], (List.append_nil _).symm, nofun, nofun, stands⟩
  · intro comma
    rcases stands.characters.2 _ comma with digit | plus | minus
    · cases digit
    · cases plus
    · cases minus

theorem spells_write (some : words ≠ []) (values : row.values = words.map .int) :
    Spells (write row) words := by
  have pieces : (write row).toList.splitOn ',' =
      words.map fun word => (Value.int word).display.toList := by
    rw [write, Text.toList_join, values, List.map_map, List.map_map]
    refine List.splitOn_intercalate ',' ?_ fun none => some (List.map_eq_nil_iff.mp none)
    intro piece member
    obtain ⟨word, -, rfl⟩ := List.mem_map.mp member
    exact (denotes_display word).2
  rw [Spells, pieces, List.forall₂_map_left_iff, List.forall₂_same]
  exact fun word _ => (denotes_display word).1

/-- `read` accepts a text for a schema of integers iff it spells one number for each column, and
gives the row of these. The text that a scan prints behind the place of a row of at least one column
reads as that row. -/
theorem reads_rows_in_form (integers : schema.types = List.replicate columns .int) :
    (∀ text row, read schema text = .ok row ↔
      ∃ words, Spells text words ∧ words.length = columns ∧ row.schema = schema ∧
        row.values = words.map .int ∧ row.place = none) ∧
    (∀ (row : Row) (place : RecordId), 0 < columns → row.schema = schema →
      row.place = some place →
      Command.rowLine false row =
          place.page.text ++ "[" ++ toString place.slot ++ "]\t" ++ write row ∧
        read schema (write row) = .ok (row.placed none)) := by
  refine ⟨fun text row => read_ok_iff integers, ?_⟩
  rintro row place some rfl placed
  obtain ⟨words, full, values⟩ := exists_words (row.typed.trans integers)
  have written : words ≠ [] := List.ne_nil_of_length_pos (full ▸ some)
  have again : read row.schema (write row) = .ok (row.placed none) :=
    (read_ok_iff integers).mpr ⟨words, spells_write written values, full, rfl, values, rfl⟩
  refine ⟨?_, again⟩
  rw [Command.rowLine, placed]
  rfl

def typedPair : String := "+07,\t-2147483648 "

/-- Signs, leading zeros and blanks are accepted; one more than the largest number is not. -/
theorem reads_rows_in_form_small :
    (Command.intColumns 2).types = List.replicate 2 .int ∧
      Spells typedPair [7, -2147483648] ∧
      (∃ row, read (Command.intColumns 2) typedPair = .ok row ∧
        row.values = [.int 7, .int (-2147483648)] ∧ write row = "7,-2147483648" ∧
        read (Command.intColumns 2) (write row) = .ok row) ∧
      read (Command.intColumns 2) "1,2147483648" =
        .error (.badNumber "2147483648" "1,2147483648" .tooLarge) := by
  have spells : Spells typedPair [7, -2147483648] :=
    .cons ⟨[], ['+', '0', '7'], [], rfl, nofun, nofun, .plus (by decide : Digits ['0', '7'])⟩
      (.cons ⟨['\t'], "-2147483648".toList, [' '], rfl, List.forall_mem_singleton.mpr rfl,
        List.forall_mem_singleton.mpr rfl,
        .minus (by decide : Digits "2147483648".toList)⟩ .nil)
  have law := @reads_rows_in_form (Command.intColumns 2) 2 (by decide)
  let row : Row := ⟨Command.intColumns 2, [.int 7, .int (-2147483648)], none, rfl⟩
  refine ⟨by decide, spells, ⟨row, ?_, rfl, by decide +kernel, ?_⟩, rfl⟩
  · exact (law.1 typedPair row).mpr ⟨_, spells, rfl, rfl, rfl, rfl⟩
  · exact (law.2 (row.placed (some ⟨⟨⟨0⟩, 0⟩, 0⟩)) _ (by decide) rfl rfl).2

end RowText

end RecordStore
