import Mathlib.Data.List.Basic

/-
  Comma-separated values (RFC 4180), whose records are separated
  by LF or CRLF.

  A quoted field may hold anything, with its quotes doubled.  The
  reader goes through a text once and refuses a malformed one.

  Main declaration: `read_write`
-/

-- Reader
----

namespace Csv

/- Where in a field the reader stands. -/
inductive Mode where
  | start
  | bare
  | quoted
  | closed
  | carriage
  deriving DecidableEq

/- The records, the fields and the characters read so far. -/
structure Reader where
  records : List (List (List Char))
  fields : List (List Char)
  field : List Char
  mode : Mode

namespace Reader

/- One more character of the field. -/
def push (reader : Reader) (mode : Mode) (c : Char) : Reader :=
  { reader with field := reader.field ++ [c], mode }

/- The field is complete. -/
def endField (reader : Reader) : Reader where
  records := reader.records
  fields := reader.fields ++ [reader.field]
  field := []
  mode := .start

/- The field and its record are complete. -/
def endRecord (reader : Reader) : Reader where
  records := reader.records ++ [reader.fields ++ [reader.field]]
  fields := []
  field := []
  mode := .start

/- A separator, or what another character is taken for. -/
def separate (reader : Reader) (c : Char) (otherwise : Option Reader) : Option Reader :=
  if c = ',' then some reader.endField
  else if c = '\n' then some reader.endRecord
  else if c = '\r' then some { reader with mode := .carriage }
  else otherwise

/- What one character does to the reader. -/
def step (reader : Reader) (c : Char) : Option Reader :=
  match reader.mode with
  | .start =>
    if c = '"' then some { reader with mode := .quoted }
    else reader.separate c (some (reader.push .bare c))
  | .bare => reader.separate c (if c = '"' then none else some (reader.push .bare c))
  | .quoted => some (if c = '"' then { reader with mode := .closed } else reader.push .quoted c)
  | .closed => if c = '"' then some (reader.push .quoted c) else reader.separate c none
  | .carriage => if c = '\n' then some reader.endRecord else none

/- A line break at the end of the text begins no record. -/
def finish (reader : Reader) : Option (List (List (List Char))) :=
  match reader.mode with
  | .quoted | .carriage => none
  | mode =>
    if reader.fields = [] ∧ reader.field = [] ∧ mode = .start then some reader.records
    else some reader.endRecord.records

end Reader

/- None for a text that is not well formed. -/
def read (text : List Char) : Option (List (List (List Char))) :=
  (text.foldlM Reader.step ⟨[], [], [], .start⟩).bind Reader.finish

-- Writer
----

/- Characters that call for quotes. -/
def special (c : Char) : Bool := c ∈ ['"', ',', '\n', '\r']

/- Each quote is written twice. -/
def doubled (field : List Char) : List Char :=
  field.flatMap fun c => if c = '"' then ['"', '"'] else [c]

/- Quotes stand around a field that needs them. -/
def escape (field : List Char) : List Char :=
  if field.any special then '"' :: doubled field ++ ['"'] else field

/- Fields between commas. -/
def line (fields : List (List Char)) : List Char := [','].intercalate (fields.map escape)

/- Records between line breaks, with none at the end. -/
def write (records : List (List (List Char))) : List Char := ['\n'].intercalate (records.map line)

variable {records : List (List (List Char))} {fields : List (List Char)} {field : List Char}

/- Doubled quotes are read as single ones. -/
theorem foldlM_doubled (seen : List Char) :
    (doubled field).foldlM Reader.step ⟨records, fields, seen, .quoted⟩ =
      some ⟨records, fields, seen ++ field, .quoted⟩ := by
  induction field generalizing seen with
  | nil => simp [doubled]
  | cons c field ih =>
    have hStep : (if c = '"' then ['"', '"'] else [c]).foldlM Reader.step
        ⟨records, fields, seen, .quoted⟩ = some ⟨records, fields, seen ++ [c], .quoted⟩ := by
      by_cases hQuote : c = '"'
      · subst hQuote
        rfl
      · simp [Reader.step, hQuote, Reader.push]
    rw [doubled, List.flatMap_cons, List.foldlM_append, hStep]
    exact (ih _).trans (by rw [List.append_assoc, List.singleton_append])

/- Where a field may end. -/
def Mode.Ends (mode : Mode) : Prop := mode ≠ .quoted ∧ mode ≠ .carriage

/- A field without special characters is read as it is. -/
theorem foldlM_plain (hPlain : ∀ c ∈ field, special c = false) {mode : Mode}
    (hMode : mode = .start ∨ mode = .bare) (seen : List Char) :
    ∃ mode', mode'.Ends ∧ field.foldlM Reader.step ⟨records, fields, seen, mode⟩ =
      some ⟨records, fields, seen ++ field, mode'⟩ := by
  induction field generalizing seen mode with
  | nil =>
    refine ⟨mode, ?_, by rw [List.append_nil, List.foldlM_nil, pure]; rfl⟩
    rcases hMode with rfl | rfl <;> simp [Mode.Ends]
  | cons c field ih =>
    have hSpecial := hPlain c List.mem_cons_self
    simp only [special, List.mem_cons, List.not_mem_nil, or_false, decide_eq_false_iff_not,
      not_or] at hSpecial
    have hStep : Reader.step ⟨records, fields, seen, mode⟩ c =
        some ⟨records, fields, seen ++ [c], .bare⟩ := by
      rcases hMode with rfl | rfl <;> simp [Reader.step, Reader.separate, Reader.push, hSpecial]
    rcases ih (fun c hC => hPlain c (List.mem_cons_of_mem _ hC)) (.inr rfl) (seen ++ [c]) with
      ⟨mode', hEnds, hRead⟩
    refine ⟨mode', hEnds, ?_⟩
    rw [List.foldlM_cons, hStep, ← List.append_cons] at *
    exact hRead

/- An escaped field is read as it was. -/
theorem foldlM_escape (records : List (List (List Char))) (fields : List (List Char))
    (field : List Char) :
    ∃ mode, mode.Ends ∧ (escape field).foldlM Reader.step ⟨records, fields, [], .start⟩ =
      some ⟨records, fields, field, mode⟩ := by
  unfold escape
  split_ifs with hSpecial
  · refine ⟨.closed, by simp [Mode.Ends], ?_⟩
    have hRead := @foldlM_doubled records fields field []
    have hOpen :
        Reader.step ⟨records, fields, [], .start⟩ '"' = some ⟨records, fields, [], .quoted⟩ := rfl
    rw [List.cons_append, List.foldlM_cons, hOpen]
    exact List.foldlM_append.trans (by rw [hRead]; rfl)
  · rw [Bool.not_eq_true, List.any_eq_false] at hSpecial
    simpa using foldlM_plain (fun c hC => Bool.not_eq_true _ ▸ hSpecial c hC) (.inl rfl) []

/- A comma or a line break ends such a field. -/
theorem separate_of_ends {mode : Mode} (hEnds : mode.Ends) {c : Char}
    (hComma : c = ',' ∨ c = '\n') :
    Reader.step ⟨records, fields, field, mode⟩ c =
      some (if c = ',' then Reader.endField ⟨records, fields, field, mode⟩
        else Reader.endRecord ⟨records, fields, field, mode⟩) := by
  rcases hComma with rfl | rfl <;> cases mode <;>
    simp [Reader.step, Reader.separate, Mode.Ends] at hEnds ⊢

/- A line is read as its fields, the last of them not yet ended. -/
theorem foldlM_line (first : List Char) (rest : List (List Char)) (done : List (List Char)) :
    ∃ reader : Reader, (line (first :: rest)).foldlM Reader.step ⟨records, done, [], .start⟩ =
      some reader ∧ reader.mode.Ends ∧ reader.records = records ∧
      reader.fields ++ [reader.field] = done ++ first :: rest := by
  induction rest generalizing first done with
  | nil =>
    rcases foldlM_escape records done first with ⟨mode, hEnds, hRead⟩
    exact ⟨_, by simpa [line] using hRead, hEnds, rfl, rfl⟩
  | cons second rest ih =>
    rcases foldlM_escape records done first with ⟨mode, hEnds, hRead⟩
    rcases ih second (done ++ [first]) with ⟨reader, hLine, hRest⟩
    refine ⟨reader, ?_, by simpa using hRest⟩
    have hSplit :
        line (first :: second :: rest) = escape first ++ ',' :: line (second :: rest) := by
      simp [line, List.intercalate_cons_cons]
    rw [hSplit, List.foldlM_append, hRead]
    exact (List.foldlM_cons.trans (by rw [separate_of_ends hEnds (.inl rfl)]; rfl)).trans hLine

/- The end of the text ends the last record. -/
theorem finish_of_ends {reader : Reader} (hEnds : reader.mode.Ends) (hFields : reader.fields ≠ []) :
    reader.finish = some (reader.records ++ [reader.fields ++ [reader.field]]) := by
  rcases reader with ⟨records, fields, field, mode⟩
  cases mode <;> simp_all [Reader.finish, Mode.Ends, Reader.endRecord]

/- What is written is read back. -/
theorem read_write (hRecords : records ≠ []) (hFields : ∀ record ∈ records, 1 < record.length) :
    read (write records) = some records := by
  suffices hSeen : ∀ seen, ((write records).foldlM Reader.step ⟨seen, [], [], .start⟩).bind
      Reader.finish = some (seen ++ records) from hSeen []
  induction records with
  | nil => exact absurd rfl hRecords
  | cons record records ih =>
    intro seen
    have hMany := hFields record List.mem_cons_self
    rcases List.exists_cons_of_length_pos (Nat.zero_lt_of_lt hMany) with ⟨first, rest, rfl⟩
    rcases @foldlM_line seen first rest [] with ⟨reader, hLine, hEnds, hSeen, hRecord⟩
    have hStarted : reader.fields ≠ [] := by
      intro hNone
      rw [hNone] at hRecord
      have hLength := congrArg List.length hRecord
      simp only [List.nil_append, List.length_singleton] at hLength
      omega
    cases records with
    | nil =>
      have hWrite : write [first :: rest] = line (first :: rest) := by simp [write]
      rw [hWrite, hLine, Option.bind_some, finish_of_ends hEnds hStarted, hSeen, hRecord]
      rfl
    | cons next records =>
      have hWrite : write ((first :: rest) :: next :: records) =
          line (first :: rest) ++ '\n' :: write (next :: records) := by
        simp [write, List.intercalate_cons_cons]
      have hBreak : reader.step '\n' = some ⟨seen ++ [first :: rest], [], [], .start⟩ := by
        rcases reader with ⟨_, fields, field, mode⟩
        rw [separate_of_ends hEnds (.inr rfl), if_neg (by decide), Reader.endRecord, hRecord]
        subst hSeen
        rfl
      have hRest := ih (List.cons_ne_nil _ _)
          (fun other hOther => hFields other (List.mem_cons_of_mem _ hOther))
          (seen ++ [first :: rest])
      rw [hWrite, List.foldlM_append, hLine]
      rw [List.append_assoc] at hRest
      exact (congrArg (Option.bind · Reader.finish)
        (List.foldlM_cons.trans (by rw [hBreak]; rfl))).trans hRest

end Csv
