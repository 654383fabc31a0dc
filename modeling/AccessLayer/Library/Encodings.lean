import Mathlib.Data.List.Basic
import Mathlib.Data.List.TakeWhile
import Mathlib.Tactic.SplitIfs

/-
  Text as bytes, and bytes as text: UTF-8, base64 with the URL
  alphabet, and hexadecimal digits.

  Decoding is lenient.  In UTF-8 the longest start of a character
  that is not completed becomes one replacement character.
  Base64 takes both alphabets, skips every other character up to
  the padding, and drops a last character that stands alone;
  hexadecimal stops at the first pair that is not one of digits.

  Main declaration: `decode_encode`
-/

-- UTF-8
----

namespace Utf8

def replacement : Char := Char.ofNat 0xFFFD

/-
  A character that has begun: the bytes owed after the next one,
  the bounds of the next one, and the bits read so far.
-/
structure Pending where
  owed : Nat
  lower : Nat
  upper : Nat
  bits : Nat

/- A byte between two characters. -/
def first (b : Nat) : Char ⊕ Pending :=
  if b < 0x80 then .inl (Char.ofNat b)
  else if b < 0xC2 then .inl replacement
  else if b < 0xE0 then .inr ⟨0, 0x80, 0xBF, b % 32⟩
  else if b < 0xF0 then
    .inr ⟨1, if b = 0xE0 then 0xA0 else 0x80,
      if b = 0xED then 0x9F else 0xBF, b % 16⟩
  else if b < 0xF5 then
    .inr ⟨2, if b = 0xF0 then 0x90 else 0x80,
      if b = 0xF4 then 0x8F else 0xBF, b % 8⟩
  else .inl replacement

/- A byte of a character that has begun, if it can be one. -/
def Pending.next (p : Pending) (b : Nat) : Option (Char ⊕ Pending) :=
  if p.lower ≤ b ∧ b ≤ p.upper then
    match p.owed with
    | 0 => some (.inl (Char.ofNat (p.bits * 64 + b % 64)))
    | n + 1 => some (.inr ⟨n, 0x80, 0xBF, p.bits * 64 + b % 64⟩)
  else none

def decodeFrom : Option Pending → List UInt8 → List Char
  | none, [] => []
  | some _, [] => [replacement]
  | none, b :: rest =>
    match first b.toNat with
    | .inl c => c :: decodeFrom none rest
    | .inr p => decodeFrom (some p) rest
  | some p, b :: rest =>
    match p.next b.toNat with
    | some (.inl c) => c :: decodeFrom none rest
    | some (.inr p) => decodeFrom (some p) rest
    | none =>
      -- The byte that does not belong begins a character.
      replacement ::
        match first b.toNat with
        | .inl c => c :: decodeFrom none rest
        | .inr p => decodeFrom (some p) rest

def encode (text : List Char) : List UInt8 := text.flatMap String.utf8EncodeChar

def decode (data : List UInt8) : List Char := decodeFrom none data

variable {b : UInt8} {rest : List UInt8}

theorem decodeFrom_first {c : Char} (hFirst : first b.toNat = .inl c) :
    decodeFrom none (b :: rest) = c :: decodeFrom none rest := by
  rw [decodeFrom, hFirst]

theorem decodeFrom_begin {p : Pending} (hFirst : first b.toNat = .inr p) :
    decodeFrom none (b :: rest) = decodeFrom (some p) rest := by
  rw [decodeFrom, hFirst]

variable {lower upper bits : Nat}

theorem decodeFrom_last (hLower : lower ≤ b.toNat) (hUpper : b.toNat ≤ upper) :
    decodeFrom (some ⟨0, lower, upper, bits⟩) (b :: rest) = Char.ofNat (bits * 64 + b.toNat % 64) ::
      decodeFrom none rest := by
  rw [decodeFrom, Pending.next, if_pos ⟨hLower, hUpper⟩]

variable {n : Nat}

theorem decodeFrom_more (hLower : lower ≤ b.toNat) (hUpper : b.toNat ≤ upper) :
    decodeFrom (some ⟨n + 1, lower, upper, bits⟩) (b :: rest) = decodeFrom
      (some ⟨n, 0x80, 0xBF, bits * 64 + b.toNat % 64⟩) rest := by
  rw [decodeFrom, Pending.next, if_pos ⟨hLower, hUpper⟩]

theorem toNat_byte (hn : n < 256) : (UInt8.ofNat n).toNat = n := UInt8.toNat_ofNat_of_lt' hn

theorem decodeFrom_char (c : Char) (rest : List UInt8) :
    decodeFrom none (String.utf8EncodeChar c ++ rest) = c :: decodeFrom none rest := by
  have hValid : c.val.toNat.isValidChar := c.valid
  have hChar : Char.ofNat c.val.toNat = c := Char.ofNat_toNat c
  unfold String.utf8EncodeChar
  generalize c.val.toNat = v at hValid hChar
  dsimp only [Nat.isValidChar] at hValid ⊢
  split_ifs with hOne hTwo hThree
  · have hLead : first v = .inl c := by
      rw [first, if_pos (by omega), hChar]
    rw [List.cons_append, List.nil_append]
    apply decodeFrom_first
    rw [toNat_byte (by omega), hLead]
  · have hLead : first (v / 64 % 0x20 + 0xc0) = .inr ⟨0, 0x80, 0xBF, v / 64⟩ := by
      rw [first, if_neg (by omega), if_neg (by omega), if_pos (by omega)]
      have hBits : (v / 64 % 0x20 + 0xc0) % 32 = v / 64 := by omega
      rw [hBits]
    have hPoint : v / 64 * 64 + (v % 0x40 + 0x80) % 64 = v := by omega
    rw [List.cons_append, List.cons_append, List.nil_append,
      decodeFrom_begin (by rw [toNat_byte (by omega), hLead]),
      decodeFrom_last, toNat_byte (by omega), hPoint, hChar]
    · rw [toNat_byte (by omega)]
      omega
    · rw [toNat_byte (by omega)]
      omega
  · have hLead : first (v / 4096 % 0x10 + 0xe0) = .inr ⟨1, if v / 4096 = 0 then 0xA0 else 0x80,
        if v / 4096 = 13 then 0x9F else 0xBF, v / 4096⟩ := by
      have hBits : (v / 4096 % 0x10 + 0xe0) % 16 = v / 4096 := by omega
      have hLower : (v / 4096 % 0x10 + 0xe0 = 0xE0) = (v / 4096 = 0) := propext (by omega)
      have hUpper : (v / 4096 % 0x10 + 0xe0 = 0xED) = (v / 4096 = 13) := propext (by omega)
      rw [first, if_neg (by omega), if_neg (by omega), if_neg (by omega), if_pos (by omega), hBits]
      simp only [hLower, hUpper]
    have hPoint : (v / 4096 * 64 + (v / 64 % 0x40 + 0x80) % 64) * 64 + (v % 0x40 + 0x80) % 64 =
        v := by omega
    simp only [List.cons_append, List.nil_append]
    rw [decodeFrom_begin (by rw [toNat_byte (by omega), hLead]),
      decodeFrom_more, decodeFrom_last, toNat_byte (by omega), toNat_byte (by omega), hPoint, hChar]
    all_goals rw [toNat_byte (by omega)]
    all_goals first | omega | (split_ifs <;> omega)
  · have hLead : first (v / 262144 % 0x08 + 0xf0) = .inr ⟨2, if v / 262144 = 0 then 0x90 else 0x80,
        if v / 262144 = 4 then 0x8F else 0xBF,
        v / 262144⟩ := by
      have hBits : (v / 262144 % 0x08 + 0xf0) % 8 = v / 262144 := by omega
      have hLower : (v / 262144 % 0x08 + 0xf0 = 0xF0) = (v / 262144 = 0) := propext (by omega)
      have hUpper : (v / 262144 % 0x08 + 0xf0 = 0xF4) = (v / 262144 = 4) := propext (by omega)
      rw [first, if_neg (by omega), if_neg (by omega),
        if_neg (by omega), if_neg (by omega), if_pos (by omega), hBits]
      simp only [hLower, hUpper]
    have hPoint : ((v / 262144 * 64 + (v / 4096 % 0x40 + 0x80) % 64) * 64 +
        (v / 64 % 0x40 + 0x80) % 64) * 64 + (v % 0x40 + 0x80) % 64 =
        v := by omega
    simp only [List.cons_append, List.nil_append]
    rw [decodeFrom_begin (by rw [toNat_byte (by omega), hLead]),
      decodeFrom_more, decodeFrom_more, decodeFrom_last,
      toNat_byte (by omega), toNat_byte (by omega), toNat_byte (by omega), hPoint, hChar]
    all_goals rw [toNat_byte (by omega)]
    all_goals first | omega | (split_ifs <;> omega)

theorem decode_encode (text : List Char) : decode (encode text) = text := by
  induction text with
  | nil => rfl
  | cons c rest ih =>
    have hStep := decodeFrom_char c (encode rest)
    unfold decode at ih ⊢
    rw [encode, List.flatMap_cons, ← encode, hStep, ih]

end Utf8

-- Base64
----

namespace Base64

/- The character of six bits. -/
def digit (i : Nat) : Char :=
  if i < 26 then Char.ofNat (65 + i)
  else if i < 52 then Char.ofNat (71 + i)
  else if i < 62 then Char.ofNat (i - 4)
  else if i = 62 then '-'
  else '_'

/- The six bits of a character, in either alphabet. -/
def value (c : Char) : Option Nat :=
  if 'A' ≤ c ∧ c ≤ 'Z' then some (c.toNat - 65)
  else if 'a' ≤ c ∧ c ≤ 'z' then some (c.toNat - 71)
  else if '0' ≤ c ∧ c ≤ '9' then some (c.toNat + 4)
  else if c = '-' ∨ c = '+' then some 62
  else if c = '_' ∨ c = '/' then some 63
  else none

/- Three bytes are four times six bits. -/
def sextets : List UInt8 → List Nat
  | a :: b :: c :: rest =>
    a.toNat / 4 :: (a.toNat % 4 * 16 + b.toNat / 16) ::
      (b.toNat % 16 * 4 + c.toNat / 64) :: c.toNat % 64 :: sextets rest
  | [a, b] => [a.toNat / 4, a.toNat % 4 * 16 + b.toNat / 16, b.toNat % 16 * 4]
  | [a] => [a.toNat / 4, a.toNat % 4 * 16]
  | [] => []

def bytes : List Nat → List UInt8
  | a :: b :: c :: d :: rest =>
    UInt8.ofNat (a * 4 + b / 16) :: UInt8.ofNat (b % 16 * 16 + c / 4) ::
      UInt8.ofNat (c % 4 * 64 + d) :: bytes rest
  | [a, b, c] => [UInt8.ofNat (a * 4 + b / 16), UInt8.ofNat (b % 16 * 16 + c / 4)]
  | [a, b] => [UInt8.ofNat (a * 4 + b / 16)]
  | [_] => []
  | [] => []

/- There is no padding. -/
def encode (data : List UInt8) : List Char := (sextets data).map digit

/- The padding ends the text. -/
def decode (text : List Char) : List UInt8 := bytes ((text.takeWhile (· ≠ '=')).filterMap value)

theorem value_digit {i : Nat} (hi : i < 64) : value (digit i) = some i := by
  have hAll : ∀ i < 64, value (digit i) = some i := by decide
  exact hAll i hi

theorem sextets_lt (data : List UInt8) : ∀ i ∈ sextets data, i < 64 := by
  fun_induction sextets data with
  | case1 a b c rest ih =>
    have ha := a.toNat_lt
    have hb := b.toNat_lt
    have hc := c.toNat_lt
    intro i hi
    simp only [List.mem_cons] at hi
    rcases hi with rfl | rfl | rfl | rfl | hi
    · omega
    · omega
    · omega
    · omega
    · exact ih i hi
  | case2 a b =>
    have ha := a.toNat_lt
    have hb := b.toNat_lt
    intro i hi
    simp only [List.mem_cons, List.not_mem_nil, or_false] at hi
    omega
  | case3 a =>
    have ha := a.toNat_lt
    intro i hi
    simp only [List.mem_cons, List.not_mem_nil, or_false] at hi
    omega
  | case4 => exact nofun

theorem bytes_sextets (data : List UInt8) : bytes (sextets data) = data := by
  fun_induction sextets data with
  | case1 a b c rest ih =>
    have hb := b.toNat_lt
    have hc := c.toNat_lt
    have hFirst : a.toNat / 4 * 4 + (a.toNat % 4 * 16 + b.toNat / 16) / 16 =
        a.toNat := by omega
    have hSecond :
        (a.toNat % 4 * 16 + b.toNat / 16) % 16 * 16 + (b.toNat % 16 * 4 + c.toNat / 64) / 4 =
          b.toNat := by omega
    have hThird : (b.toNat % 16 * 4 + c.toNat / 64) % 4 * 64 + c.toNat % 64 =
        c.toNat := by omega
    rw [bytes, hFirst, hSecond, hThird, ih]
    simp only [UInt8.ofNat_toNat]
  | case2 a b =>
    have hb := b.toNat_lt
    have hFirst : a.toNat / 4 * 4 + (a.toNat % 4 * 16 + b.toNat / 16) / 16 =
        a.toNat := by omega
    have hSecond : (a.toNat % 4 * 16 + b.toNat / 16) % 16 * 16 + b.toNat % 16 * 4 / 4 =
        b.toNat := by omega
    rw [bytes, hFirst, hSecond]
    simp only [UInt8.ofNat_toNat]
  | case3 a =>
    have hFirst : a.toNat / 4 * 4 + a.toNat % 4 * 16 / 16 = a.toNat := by omega
    rw [bytes, hFirst]
    simp only [UInt8.ofNat_toNat]
  | case4 => rfl

variable {data : List UInt8}

theorem value_of_mem_encode {c : Char} (hc : c ∈ encode data) : value c ≠ none := by
  rcases List.mem_map.mp hc with ⟨i, hi, rfl⟩
  rw [value_digit (sextets_lt data i hi)]
  exact Option.some_ne_none i

theorem decode_encode (data : List UInt8) : decode (encode data) = data := by
  have hPadding : (encode data).takeWhile (· ≠ '=') = encode data := by
    rw [List.takeWhile_eq_self_iff]
    intro c hc
    rw [decide_eq_true_iff]
    rintro rfl
    exact value_of_mem_encode hc rfl
  have hValues : (encode data).filterMap value = sextets data := by
    rw [encode, List.filterMap_map]
    calc
      _ = (sextets data).filterMap some := by
        apply List.filterMap_congr
        intro i hi
        exact value_digit (sextets_lt data i hi)
      _ = sextets data := List.filterMap_some
  rw [decode, hPadding, hValues]
  exact bytes_sextets data

theorem encode_eq_nil_iff : encode data = [] ↔ data = [] := by
  constructor
  · intro hNil
    rw [← decode_encode data, hNil]
    rfl
  · rintro rfl
    rfl

end Base64

-- Hexadecimal Digits
----

namespace Hex

/- The digit of four bits, in lower case. -/
def digit (i : Nat) : Char :=
  if i < 10 then Char.ofNat (48 + i) else Char.ofNat (87 + i)

def value (c : Char) : Option Nat :=
  if '0' ≤ c ∧ c ≤ '9' then some (c.toNat - 48)
  else if 'a' ≤ c ∧ c ≤ 'f' then some (c.toNat - 87)
  else if 'A' ≤ c ∧ c ≤ 'F' then some (c.toNat - 55)
  else none

def encode (data : List UInt8) : List Char :=
  data.flatMap fun b => [digit (b.toNat / 16), digit (b.toNat % 16)]

def decode : List Char → List UInt8
  | c :: d :: rest =>
    match value c, value d with
    | some high, some low => UInt8.ofNat (high * 16 + low) :: decode rest
    | _, _ => []
  | _ => []

theorem value_digit {i : Nat} (hi : i < 16) : value (digit i) = some i := by
  have hAll : ∀ i < 16, value (digit i) = some i := by decide
  exact hAll i hi

theorem value_of_mem_encode {data : List UInt8} {c : Char} (hc : c ∈ encode data) :
    value c ≠ none := by
  rcases List.mem_flatMap.mp hc with ⟨b, -, hDigit⟩
  have hb := b.toNat_lt
  simp only [List.mem_cons, List.not_mem_nil, or_false] at hDigit
  rcases hDigit with rfl | rfl
  · rw [value_digit (by omega)]
    exact Option.some_ne_none _
  · rw [value_digit (by omega)]
    exact Option.some_ne_none _

theorem length_encode (data : List UInt8) : (encode data).length = 2 * data.length := by
  induction data with
  | nil => rfl
  | cons b rest ih =>
    rw [encode, List.flatMap_cons, List.length_append, ← encode,
      ih, List.length_cons, List.length_cons, List.length_cons, List.length_nil]
    omega

end Hex
