import AccessLayer.Library.Encodings
import AccessLayer.Library.Numerals

/-
  JSON: values, their text, and the parser.

  A number is a mantissa times a power of ten.  Integers are
  written in decimal digits, other numbers with a point or in
  exponent notation.  A code unit of a surrogate pair that stands
  alone is read as the replacement character.

  `parse_stringify`: a value is read back from its text.
-/

-- Values and Their Text
----

inductive Json where
  | null
  | bool (value : Bool)
  | number (mantissa exponent : Int)
  | string (value : String)
  | array (items : List Json)
  | object (members : List (String × Json))

namespace Json

section

def escapeChar (c : Char) : List Char :=
  if c.toNat = 34 then ['\\', Char.ofNat 34]
  else if c = '\\' then ['\\', '\\']
  else if c.toNat = 8 then ['\\', 'b']
  else if c.toNat = 12 then ['\\', 'f']
  else if c = '\n' then ['\\', 'n']
  else if c = '\r' then ['\\', 'r']
  else if c = '\t' then ['\\', 't']
  else if c.toNat < 32 then
    ['\\', 'u', '0', '0', Hex.digit (c.toNat / 16), Hex.digit (c.toNat % 16)]
  else [c]

def quote : Char := Char.ofNat 34

def stringifyString (value : String) : List Char :=
  quote :: (value.toList.flatMap escapeChar ++ [quote])

/- A mantissa keeps all of its digits. -/
def stringifyDecimal (mantissa : Nat) (exponent : Int) : List Char :=
  let digits := Nat.toDigits 10 mantissa
  if exponent = 0 then digits
  else if exponent < 0 then Doubles.layout digits digits.length (digits.length + exponent)
  else Doubles.scientific digits (digits.length + exponent)

def stringifyNumber (mantissa exponent : Int) : List Char :=
  if mantissa < 0 then '-' :: stringifyDecimal mantissa.natAbs exponent
  else stringifyDecimal mantissa.natAbs exponent

mutual

def stringify : Json → List Char
  | null => ['n', 'u', 'l', 'l']
  | bool true => ['t', 'r', 'u', 'e']
  | bool false => ['f', 'a', 'l', 's', 'e']
  | number mantissa exponent => stringifyNumber mantissa exponent
  | string value => stringifyString value
  | array items => '[' :: stringifyItems items
  | object members => '{' :: stringifyMembers members

/- The items and the bracket that closes them. -/
def stringifyItems : List Json → List Char
  | [] => [']']
  | [item] => stringify item ++ [']']
  | item :: next :: rest => stringify item ++ ',' :: stringifyItems (next :: rest)

def stringifyMembers : List (String × Json) → List Char
  | [] => ['}']
  | [(name, value)] => stringifyString name ++ ':' :: (stringify value ++ ['}'])
  | (name, value) :: next :: rest =>
    stringifyString name ++ ':' :: (stringify value ++ ',' :: stringifyMembers (next :: rest))

end

/- The last member of a name counts. -/
def get? (value : Json) (name : String) : Option Json :=
  match value with
  | object members => (members.reverse.find? (·.1 = name)).map Prod.snd
  | _ => none

-- Parsing
----

def isSpace (c : Char) : Bool := c = ' ' || c = '\t' || c = '\n' || c = '\r'

def skipSpace (text : List Char) : List Char := text.dropWhile isSpace

/- The code unit of four hexadecimal digits. -/
def codeUnit (a b c d : Char) : Option Nat := do
  let a ← Hex.value a
  let b ← Hex.value b
  let c ← Hex.value c
  let d ← Hex.value d
  some (a * 4096 + b * 256 + c * 16 + d)

def unescape (c : Char) : Option Nat :=
  if c = quote then some 34
  else if c = '\\' then some 92
  else if c = '/' then some 47
  else if c = 'b' then some 8
  else if c = 'f' then some 12
  else if c = 'n' then some 10
  else if c = 'r' then some 13
  else if c = 't' then some 9
  else none

/- The code units up to the closing quote, and what follows. -/
def parseUnits : List Char → Option (List Nat × List Char)
  | [] => none
  | c :: rest =>
    if c = quote then some ([], rest)
    else if c = '\\' then
      match rest with
      | 'u' :: a :: b :: d :: e :: rest =>
        match codeUnit a b d e with
        | none => none
        | some unit => (parseUnits rest).map fun (units, rest) => (unit :: units, rest)
      | e :: rest =>
        match unescape e with
        | none => none
        | some unit => (parseUnits rest).map fun (units, rest) => (unit :: units, rest)
      | [] => none
    else if c.toNat < 32 then none
    else
      (parseUnits rest).map fun (units, rest) => (c.toNat :: units, rest)

def isHigh (unit : Nat) : Bool := 0xD800 ≤ unit && unit < 0xDC00

def isLow (unit : Nat) : Bool := 0xDC00 ≤ unit && unit < 0xE000

def scalar (unit : Nat) : Char :=
  if isHigh unit || isLow unit then Char.ofNat 0xFFFD
  else Char.ofNat unit

/- The characters of code units; pairs of surrogates are one. -/
def ofUnits : List Nat → List Char
  | [] => []
  | [unit] => [scalar unit]
  | high :: low :: rest =>
    if isHigh high && isLow low then
      Char.ofNat (0x10000 + (high - 0xD800) * 0x400 + (low - 0xDC00)) :: ofUnits rest
    else scalar high :: ofUnits (low :: rest)

def parseString (text : List Char) : Option (String × List Char) :=
  (parseUnits text).map fun (units, rest) => (String.ofList (ofUnits units), rest)

def parseDigits (text : List Char) : Option (List Char × List Char) :=
  match text.takeWhile Char.isDigit with
  | [] => none
  | digits => some (digits, text.dropWhile Char.isDigit)

def parseFraction (text : List Char) : Option (List Char × List Char) :=
  match text with
  | '.' :: rest => parseDigits rest
  | _ => some ([], text)

def parseSigned (text : List Char) : Option (Int × List Char) :=
  match text with
  | '-' :: rest =>
    (parseDigits rest).map fun (digits, rest) => (-(Nat.ofDigitChars 10 digits 0 : Int), rest)
  | '+' :: rest =>
    (parseDigits rest).map fun (digits, rest) => ((Nat.ofDigitChars 10 digits 0 : Int), rest)
  | _ => (parseDigits text).map fun (digits, rest) => ((Nat.ofDigitChars 10 digits 0 : Int), rest)

def parseExponent (text : List Char) : Option (Int × List Char) :=
  match text with
  | [] => some (0, [])
  | c :: rest =>
    if c = 'e' ∨ c = 'E' then parseSigned rest
    else some (0, text)

/- The whole part is written without leading zeros. -/
def parseMagnitude (text : List Char) : Option ((Nat × Int) × List Char) := do
  let (whole, rest) ← parseDigits text
  if Nat.toDigits 10 (Nat.ofDigitChars 10 whole 0) ≠ whole then none
  else
    let (fraction, rest) ← parseFraction rest
    let (exponent, rest) ← parseExponent rest
    some ((Nat.ofDigitChars 10 (whole ++ fraction) 0, exponent - fraction.length), rest)

def parseNumber (text : List Char) : Option (Json × List Char) :=
  match text with
  | '-' :: rest =>
    (parseMagnitude rest).map fun ((mantissa, exponent), rest) =>
      (number (-mantissa) exponent, rest)
  | _ =>
    (parseMagnitude text).map fun ((mantissa, exponent), rest) => (number mantissa exponent, rest)

def parseLiteral (text : List Char) : Option (Json × List Char) :=
  match text with
  | 'n' :: 'u' :: 'l' :: 'l' :: rest => some (null, rest)
  | 't' :: 'r' :: 'u' :: 'e' :: rest => some (bool true, rest)
  | 'f' :: 'a' :: 'l' :: 's' :: 'e' :: rest => some (bool false, rest)
  | _ => none

mutual

/- The first number bounds how deep and how far to read. -/
def parseValue : Nat → List Char → Option (Json × List Char)
  | 0, _ => none
  | n + 1, text =>
    match skipSpace text with
    | [] => none
    | c :: rest =>
      if c = quote then
        (parseString rest).map fun (value, rest) => (string value, rest)
      else if c = '[' then
        match skipSpace rest with
        | ']' :: rest => some (array [], rest)
        | _ => (parseItems n rest).map fun (items, rest) => (array items, rest)
      else if c = '{' then
        match skipSpace rest with
        | '}' :: rest => some (object [], rest)
        | _ => (parseMembers n rest).map fun (members, rest) => (object members, rest)
      else if c = '-' ∨ c.isDigit then parseNumber (c :: rest)
      else parseLiteral (c :: rest)

def parseItems : Nat → List Char → Option (List Json × List Char)
  | 0, _ => none
  | n + 1, text =>
    match parseValue n text with
    | none => none
    | some (item, rest) =>
      match skipSpace rest with
      | ']' :: rest => some ([item], rest)
      | ',' :: rest => (parseItems n rest).map fun (items, rest) => (item :: items, rest)
      | _ => none

def parseMembers : Nat → List Char → Option (List (String × Json) × List Char)
  | 0, _ => none
  | n + 1, text =>
    match skipSpace text with
    | [] => none
    | c :: rest =>
      if c = quote then
        match parseString rest with
        | none => none
        | some (name, rest) =>
          match skipSpace rest with
          | ':' :: rest =>
            match parseValue n rest with
            | none => none
            | some (value, rest) =>
              match skipSpace rest with
              | '}' :: rest => some ([(name, value)], rest)
              | ',' :: rest =>
                (parseMembers n rest).map fun (members, rest) => ((name, value) :: members, rest)
              | _ => none
          | _ => none
      else none

end

/- One value, and nothing but space around it. -/
def parse (text : List Char) : Option Json :=
  match parseValue (text.length + 1) text with
  | some (value, rest) =>
    match skipSpace rest with
    | [] => some value
    | _ => none
  | none => none

-- Strings Round Trip
----

variable {c : Char}

theorem skipSpace_cons (hc : isSpace c = false) (rest : List Char) :
    skipSpace (c :: rest) = c :: rest := by
  unfold skipSpace
  rw [List.dropWhile_cons_of_neg]
  rw [hc]
  exact Bool.false_ne_true

theorem parseUnits_plain (hQuote : c ≠ quote) (hEscape : c ≠ '\\') (hPrinted : 32 ≤ c.toNat)
    (rest : List Char) :
    parseUnits (c :: rest) = (parseUnits rest).map fun (units, rest) =>
      (c.toNat :: units, rest) := by
  rw [parseUnits.eq_def]
  simp only [if_neg hQuote, if_neg hEscape, if_neg (Nat.not_lt.mpr hPrinted)]

variable {e : Char} {unit : Nat}

theorem parseUnits_short (hNotUnit : e ≠ 'u') (hUnescape : unescape e = some unit)
    (rest : List Char) :
    parseUnits ('\\' :: e :: rest) = (parseUnits rest).map fun (units, rest) =>
      (unit :: units, rest) := by
  rw [parseUnits.eq_def]
  have hQuote : '\\' ≠ quote := by decide
  simp only [if_neg hQuote, if_true]
  split
  · rename_i hSame
    cases hSame
    exact absurd rfl hNotUnit
  · rename_i hSame
    cases hSame
    rw [hUnescape]
  · rename_i hSame
    cases hSame

theorem parseUnits_long {a b d : Char} (hUnit : codeUnit a b d e = some unit) (rest : List Char) :
    parseUnits ('\\' :: 'u' :: a :: b :: d :: e :: rest) =
      (parseUnits rest).map fun (units, rest) => (unit :: units, rest) := by
  rw [parseUnits.eq_def]
  have hQuote : '\\' ≠ quote := by decide
  simp only [if_neg hQuote, if_true, hUnit]

theorem codeUnit_control {n : Nat} (hn : n < 32) :
    codeUnit '0' '0' (Hex.digit (n / 16)) (Hex.digit (n % 16)) = some n := by
  have hZero : Hex.value '0' = some 0 := by decide
  unfold codeUnit
  rw [hZero, Hex.value_digit (by omega), Hex.value_digit (by omega)]
  simp only [Option.bind_eq_bind, Option.bind_some]
  congr 1
  omega

theorem parseUnits_escapeChar (c : Char) (rest : List Char) :
    parseUnits (escapeChar c ++ rest) = (parseUnits rest).map fun (units, rest) =>
      (c.toNat :: units, rest) := by
  unfold escapeChar
  split
  · rename_i h
    rw [h]
    exact parseUnits_short (by decide) (by decide) rest
  split
  · rename_i h
    subst h
    exact parseUnits_short (by decide) (by decide) rest
  split
  · rename_i h
    rw [h]
    exact parseUnits_short (by decide) (by decide) rest
  split
  · rename_i h
    rw [h]
    exact parseUnits_short (by decide) (by decide) rest
  split
  · rename_i h
    subst h
    exact parseUnits_short (by decide) (by decide) rest
  split
  · rename_i h
    subst h
    exact parseUnits_short (by decide) (by decide) rest
  split
  · rename_i h
    subst h
    exact parseUnits_short (by decide) (by decide) rest
  split
  · rename_i h
    exact parseUnits_long (codeUnit_control h) rest
  · rename_i hQuote hEscape _ _ _ _ _ hPrinted
    apply parseUnits_plain _ hEscape (Nat.not_lt.mp hPrinted)
    rintro rfl
    exact hQuote (by decide)

theorem parseUnits_escape (cs rest : List Char) :
    parseUnits (cs.flatMap escapeChar ++ quote :: rest) = some (cs.map Char.toNat, rest) := by
  induction cs with
  | nil => rw [parseUnits.eq_def]; rfl
  | cons c cs ih =>
    rw [List.flatMap_cons, List.append_assoc, parseUnits_escapeChar, ih]
    rfl

theorem isHigh_toNat (c : Char) : isHigh c.toNat = false := by
  have hValid := c.valid
  unfold isHigh
  rcases hValid with hLow | ⟨hHigh, -⟩
  · have hNat : c.toNat < 0xD800 := hLow
    simp [Nat.not_le.mpr hNat]
  · have hNat : 0xDFFF < c.toNat := hHigh
    simp
    omega

theorem isLow_toNat (c : Char) : isLow c.toNat = false := by
  have hValid := c.valid
  unfold isLow
  rcases hValid with hLow | ⟨hHigh, -⟩
  · have hNat : c.toNat < 0xD800 := hLow
    simp
    omega
  · have hNat : 0xDFFF < c.toNat := hHigh
    simp
    omega

theorem scalar_toNat (c : Char) : scalar c.toNat = c := by
  unfold scalar
  rw [isHigh_toNat, isLow_toNat]
  exact Char.ofNat_toNat c

theorem ofUnits_toNat (cs : List Char) : ofUnits (cs.map Char.toNat) = cs := by
  induction cs with
  | nil => rfl
  | cons c cs ih =>
    cases cs with
    | nil => exact congrArg ([·]) (scalar_toNat c)
    | cons d cs =>
      rw [List.map_cons] at ih
      rw [List.map_cons, List.map_cons, ofUnits, isHigh_toNat, scalar_toNat, ih]
      rfl

theorem parseString_stringify (value : String) (rest : List Char) :
    parseString (value.toList.flatMap escapeChar ++ quote :: rest) = some (value, rest) := by
  unfold parseString
  rw [parseUnits_escape, Option.map_some]
  dsimp only
  rw [ofUnits_toNat, String.ofList_toList]

-- Numbers Round Trip
----

/- What may follow a value inside another one. -/
def Follows (rest : List Char) : Prop := ∀ c tail, rest = c :: tail → c = ',' ∨ c = ']' ∨ c = '}'

theorem follows_nil : Follows [] := fun _ _ h => nomatch h

theorem follows_cons (hc : c = ',' ∨ c = ']' ∨ c = '}') (rest : List Char) :
    Follows (c :: rest) := by
  rintro d tail ⟨⟩
  exact hc

variable {rest : List Char}

theorem parseDigits_append {digits : List Char} (hNonempty : digits ≠ [])
    (hDigits : ∀ c ∈ digits, c.isDigit = true)
    (hRest : ∀ c tail, rest = c :: tail → c.isDigit = false) :
    parseDigits (digits ++ rest) = some (digits, rest) := by
  have hTake : (digits ++ rest).takeWhile Char.isDigit = digits := by
    rw [List.takeWhile_append_of_pos hDigits]
    cases rest with
    | nil => simp
    | cons c tail => simp [hRest c tail rfl]
  have hDrop : (digits ++ rest).dropWhile Char.isDigit = rest := by
    rw [List.dropWhile_append_of_pos hDigits]
    cases rest with
    | nil => rfl
    | cons c tail => simp [hRest c tail rfl]
  unfold parseDigits
  rw [hTake, hDrop]
  cases digits with
  | nil => exact absurd rfl hNonempty
  | cons d ds => rfl

theorem isDigit_of_mem_toDigits {n : Nat} (hc : c ∈ Nat.toDigits 10 n) : c.isDigit = true :=
  Nat.isDigit_of_mem_toDigits (by decide) (by decide) hc

theorem isDigit_of_follows (hRest : Follows rest) :
    ∀ c tail, rest = c :: tail → c.isDigit = false := by
  intro c tail hCons
  rcases hRest c tail hCons with rfl | rfl | rfl
  · decide
  · decide
  · decide

theorem toDigits_cons (n : Nat) : ∃ d ds, Nat.toDigits 10 n = d :: ds ∧ d.isDigit = true := by
  cases hDigits : Nat.toDigits 10 n with
  | nil => exact absurd hDigits Nat.toDigits_ne_nil
  | cons d ds =>
    refine ⟨d, ds, rfl, ?_⟩
    have hMem : d ∈ Nat.toDigits 10 n := by
      rw [hDigits]
      exact List.mem_cons_self
    exact Nat.isDigit_of_mem_toDigits (by decide) (by decide) hMem

variable {value : Int}

theorem natAbs_of_neg (hNegative : value < 0) : -(value.natAbs : Int) = value := by
  omega

theorem natAbs_of_not_neg (hPositive : ¬ value < 0) : (value.natAbs : Int) = value := by
  omega

/- Neither a digit nor a fraction comes after a mantissa. -/
def Ends (text : List Char) : Prop := ∀ c tail, text = c :: tail → c.isDigit = false ∧ c ≠ '.'

theorem ends_of_follows (hRest : Follows rest) : Ends rest := by
  intro c tail hCons
  rcases hRest c tail hCons with rfl | rfl | rfl
  · decide
  · decide
  · decide

theorem parseExponent_none (hRest : Follows rest) : parseExponent rest = some (0, rest) := by
  cases rest with
  | nil => rfl
  | cons c tail =>
    unfold parseExponent
    dsimp only
    rw [if_neg]
    rcases hRest c tail rfl with rfl | rfl | rfl
    · decide
    · decide
    · decide

theorem parseExponent_signed (value : Int) (hRest : Follows rest) :
    parseExponent (Doubles.exponentText value ++ rest) = some (value, rest) := by
  have hDigits := @parseDigits_append rest _ (Nat.toDigits_ne_nil (n := value.natAbs) (b := 10))
    (fun _ => isDigit_of_mem_toDigits) (isDigit_of_follows hRest)
  by_cases hNegative : value < 0
  · simp only [Doubles.exponentText, if_pos hNegative, List.cons_append, parseExponent, parseSigned,
      hDigits, true_or, if_true, Option.map_some, Nat.ofDigitChars_ten_toDigits,
      natAbs_of_neg hNegative]
  · simp only [Doubles.exponentText, if_neg hNegative, List.cons_append, parseExponent, parseSigned,
      hDigits, true_or, if_true, Option.map_some, Nat.ofDigitChars_ten_toDigits,
      natAbs_of_not_neg hNegative]

/- The fraction after the point, if there is one. -/
def pointed (fraction : List Char) : List Char :=
  if fraction = [] then [] else '.' :: fraction

theorem parseFraction_pointed {fraction tail : List Char}
    (hFraction : ∀ c ∈ fraction, c.isDigit = true) (hTail : Ends tail) :
    parseFraction (pointed fraction ++ tail) = some (fraction, tail) := by
  unfold pointed
  split
  · rename_i hNone
    rw [hNone, List.nil_append]
    unfold parseFraction
    split
    · exact absurd rfl (hTail _ _ rfl).2
    · rfl
  · rename_i hSome
    exact parseDigits_append hSome hFraction fun c cs h => (hTail c cs h).1

/- The parts that the text of a number is read as. -/
theorem parseMagnitude_parts {whole fraction tail : List Char} {exponent : Int}
    (hWhole : Nat.toDigits 10 (Nat.ofDigitChars 10 whole 0) = whole)
    (hFraction : ∀ c ∈ fraction, c.isDigit = true) (hTail : Ends tail)
    (hExponent : parseExponent tail = some (exponent, rest)) :
    parseMagnitude (whole ++ (pointed fraction ++ tail)) =
      some ((Nat.ofDigitChars 10 (whole ++ fraction) 0, exponent - fraction.length), rest) := by
  have hHead : ∀ c cs, pointed fraction ++ tail = c :: cs → c.isDigit = false := by
    intro c cs hCons
    unfold pointed at hCons
    split at hCons
    · exact (hTail c cs hCons).1
    · cases hCons
      decide
  have hDigits : parseDigits (whole ++ (pointed fraction ++ tail)) =
      some (whole, pointed fraction ++ tail) := by
    apply parseDigits_append _ _ hHead
    · rw [← hWhole]
      exact Nat.toDigits_ne_nil
    · rw [← hWhole]
      exact fun _ => isDigit_of_mem_toDigits
  unfold parseMagnitude
  simp only [hDigits, Option.bind_eq_bind, Option.bind_some, ne_eq, hWhole, not_true_eq_false,
    if_false, parseFraction_pointed hFraction hTail, hExponent]

/- The first digits of a number are not led by a zero either. -/
theorem toDigits_take (n : Nat) {k : Nat} (hk : 0 < k) :
    Nat.toDigits 10 (Nat.ofDigitChars 10 ((Nat.toDigits 10 n).take k) 0) =
      (Nat.toDigits 10 n).take k := by
  induction n using Nat.strongRecOn with
  | ind n ih =>
    by_cases hAll : (Nat.toDigits 10 n).length ≤ k
    · rw [List.take_of_length_le hAll, Nat.ofDigitChars_ten_toDigits]
    · have hLarge : 10 ≤ n := by
        by_contra hSmall
        rw [Nat.toDigits_of_lt_base (by omega)] at hAll
        exact hAll hk
      rw [Nat.toDigits_of_base_le (by decide) hLarge] at hAll ⊢
      rw [List.length_append, List.length_singleton] at hAll
      rw [List.take_append_of_le_length (by omega)]
      exact ih (n / 10) (by omega)

/- A text that is read as a mantissa and an exponent. -/
def Written (text : List Char) (n : Nat) (exponent : Int) : Prop :=
  ∃ whole fraction tail, text = whole ++ (pointed fraction ++ tail) ∧
    Nat.toDigits 10 (Nat.ofDigitChars 10 whole 0) = whole ∧
    (∀ c ∈ fraction, c.isDigit = true) ∧ Nat.ofDigitChars 10 (whole ++ fraction) 0 = n ∧
    ∀ rest, Follows rest → Ends (tail ++ rest) ∧
      parseExponent (tail ++ rest) = some (exponent + fraction.length, rest)

theorem written_scientific (n : Nat) (exponent : Int) :
    Written (Doubles.scientific (Nat.toDigits 10 n) ((Nat.toDigits 10 n).length + exponent)) n
      exponent := by
  have hMantissa (digits : List Char) :
      Doubles.mantissa digits = digits.take 1 ++ pointed (digits.drop 1) := by
    cases digits with
    | nil => rfl
    | cons d ds =>
      cases ds with
      | nil => rfl
      | cons e ds => rfl
  refine ⟨_, (Nat.toDigits 10 n).drop 1,
    Doubles.exponentText ((Nat.toDigits 10 n).length + exponent - 1), ?_,
    toDigits_take n Nat.one_pos, fun c hc => isDigit_of_mem_toDigits (List.mem_of_mem_drop hc), ?_,
    fun rest hRest => ⟨?_, ?_⟩⟩
  · rw [Doubles.scientific, hMantissa, List.append_assoc]
  · rw [List.take_append_drop, Nat.ofDigitChars_ten_toDigits]
  · rintro c cs ⟨⟩
    decide
  · rw [parseExponent_signed _ hRest, List.length_drop]
    have := @Nat.length_toDigits_pos 10 n
    congr 2
    omega

theorem written_layout (n : Nat) {exponent : Int} (hNegative : exponent < 0) :
    Written (Doubles.layout (Nat.toDigits 10 n) (Nat.toDigits 10 n).length
      ((Nat.toDigits 10 n).length + exponent)) n exponent := by
  unfold Doubles.layout
  rw [if_neg (by omega)]
  split
  · rename_i hInside
    generalize hPoint : ((Nat.toDigits 10 n).length + exponent).toNat = point
    refine ⟨_, (Nat.toDigits 10 n).drop point, [], ?_, @toDigits_take n point (by omega),
      fun c hc => isDigit_of_mem_toDigits (List.mem_of_mem_drop hc), ?_,
      fun rest hRest => ⟨ends_of_follows hRest, ?_⟩⟩
    · have hSome : (Nat.toDigits 10 n).drop point ≠ [] := by
        rw [ne_eq, List.drop_eq_nil_iff]
        omega
      rw [pointed, if_neg hSome, List.append_nil]
    · rw [List.take_append_drop, Nat.ofDigitChars_ten_toDigits]
    · rw [List.nil_append, parseExponent_none hRest, List.length_drop]
      congr 2
      omega
  · split
    · rename_i hBefore
      generalize hZeros : (-((Nat.toDigits 10 n).length + exponent)).toNat = zeros
      refine ⟨['0'], List.replicate zeros '0' ++ Nat.toDigits 10 n, [], ?_, rfl, ?_, ?_,
        fun rest hRest => ⟨ends_of_follows hRest, ?_⟩⟩
      · rw [pointed, if_neg (by simp), List.append_nil]
        rfl
      · intro c hc
        rcases List.mem_append.mp hc with hZero | hDigit
        · rw [List.eq_of_mem_replicate hZero]
          decide
        · exact isDigit_of_mem_toDigits hDigit
      · rw [Nat.ofDigitChars_append, Nat.ofDigitChars_append,
          show Nat.ofDigitChars 10 ['0'] 0 = 0 from rfl, Nat.ofDigitChars_replicate_zero,
          Nat.mul_zero, Nat.ofDigitChars_ten_toDigits]
      · rw [List.nil_append, parseExponent_none hRest, List.length_append, List.length_replicate]
        congr 2
        omega
    · exact written_scientific n exponent

theorem written_stringifyDecimal (n : Nat) (exponent : Int) :
    Written (stringifyDecimal n exponent) n exponent := by
  unfold stringifyDecimal
  dsimp only
  split
  · rename_i hZero
    refine ⟨Nat.toDigits 10 n, [], [], ?_, ?_, nofun, ?_, fun rest hRest => ?_⟩
    · simp [pointed]
    · rw [Nat.ofDigitChars_ten_toDigits]
    · rw [List.append_nil, Nat.ofDigitChars_ten_toDigits]
    · rw [hZero]
      exact ⟨ends_of_follows hRest, parseExponent_none hRest⟩
  · split
    · rename_i hNegative
      exact written_layout n hNegative
    · exact written_scientific n exponent

theorem parseMagnitude_stringify (n : Nat) (exponent : Int) (hRest : Follows rest) :
    parseMagnitude (stringifyDecimal n exponent ++ rest) = some ((n, exponent), rest) := by
  rcases written_stringifyDecimal n exponent with
    ⟨whole, fraction, tail, hText, hWhole, hFraction, hValue, hTail⟩
  rcases hTail rest hRest with ⟨hEnds, hExponent⟩
  rw [hText, List.append_assoc, List.append_assoc,
    parseMagnitude_parts hWhole hFraction hEnds hExponent, hValue, Int.add_sub_cancel]

theorem head_stringifyDecimal (n : Nat) (exponent : Int) :
    ∃ d ds, stringifyDecimal n exponent = d :: ds ∧ d.isDigit = true := by
  rcases written_stringifyDecimal n exponent with ⟨whole, fraction, tail, hText, hWhole, -⟩
  rcases toDigits_cons (Nat.ofDigitChars 10 whole 0) with ⟨d, ds, hDigits, hDigit⟩
  rw [hWhole] at hDigits
  rw [hText, hDigits]
  exact ⟨d, _, rfl, hDigit⟩

theorem parseNumber_stringify (mantissa exponent : Int) (hRest : Follows rest) :
    parseNumber (stringifyNumber mantissa exponent ++ rest) =
      some (number mantissa exponent, rest) := by
  have hMagnitude := parseMagnitude_stringify mantissa.natAbs exponent hRest
  unfold stringifyNumber
  by_cases hNegative : mantissa < 0
  · rw [if_pos hNegative, List.cons_append]
    simp only [parseNumber, hMagnitude, Option.map_some, natAbs_of_neg hNegative]
  · rw [if_neg hNegative]
    rcases head_stringifyDecimal mantissa.natAbs exponent with ⟨d, ds, hText, hDigit⟩
    unfold parseNumber
    split
    · rename_i hSign
      rw [hText] at hSign
      cases hSign
      cases hDigit
    · rw [hMagnitude, Option.map_some]
      dsimp only
      rw [natAbs_of_not_neg hNegative]

end

-- Values Round Trip
----

variable {rest : List Char}

/- The characters that a value may begin with. -/
def Begins (c : Char) : Prop := isSpace c = false ∧ c ≠ ']' ∧ c ≠ '}'

variable {c : Char}

theorem begins_of_isDigit (hDigit : c.isDigit = true) : Begins c := by
  refine ⟨?_, ?_, ?_⟩
  · cases hSpace : isSpace c with
    | false => rfl
    | true =>
      unfold isSpace at hSpace
      simp only [Bool.or_eq_true, decide_eq_true_eq] at hSpace
      rcases hSpace with ((rfl | rfl) | rfl) | rfl
      · cases hDigit
      · cases hDigit
      · cases hDigit
      · cases hDigit
  · rintro rfl
    cases hDigit
  · rintro rfl
    cases hDigit

/- A number begins with its sign or with a digit. -/
theorem head_stringifyNumber (mantissa exponent : Int) :
    ∃ c tail, stringifyNumber mantissa exponent = c :: tail ∧ (c = '-' ∨ c.isDigit = true) := by
  unfold stringifyNumber
  split
  · exact ⟨'-', _, rfl, Or.inl rfl⟩
  · rcases head_stringifyDecimal mantissa.natAbs exponent with ⟨d, ds, hText, hDigit⟩
    exact ⟨d, ds, hText, Or.inr hDigit⟩

theorem head_stringify (value : Json) : ∃ c tail, stringify value = c :: tail ∧ Begins c := by
  have hBegins : ∀ c ∈ ['n', 't', 'f', quote, '[', '{', '-'], Begins c := by
    simp only [List.forall_mem_cons, Begins]
    exact ⟨by decide, by decide, by decide, by decide, by decide, by decide, by decide, nofun⟩
  cases value with
  | null => exact ⟨_, _, rfl, hBegins _ (by decide)⟩
  | bool value =>
    cases value with
    | true => exact ⟨_, _, rfl, hBegins _ (by decide)⟩
    | false => exact ⟨_, _, rfl, hBegins _ (by decide)⟩
  | number mantissa exponent =>
    rcases head_stringifyNumber mantissa exponent with ⟨c, tail, hText, rfl | hDigit⟩
    · exact ⟨'-', tail, hText, hBegins _ (by decide)⟩
    · exact ⟨c, tail, hText, begins_of_isDigit hDigit⟩
  | string value => exact ⟨_, _, rfl, hBegins _ (by decide)⟩
  | array items => exact ⟨_, _, rfl, hBegins _ (by decide)⟩
  | object members => exact ⟨_, _, rfl, hBegins _ (by decide)⟩

theorem length_stringify_pos (value : Json) : 0 < (stringify value).length := by
  rcases head_stringify value with ⟨c, tail, hText, -⟩
  rw [hText]
  exact Nat.succ_pos _

theorem parseValue_cons (hSpace : isSpace c = false) (n : Nat) (rest : List Char) :
    parseValue (n + 1) (c :: rest) =
      if c = quote then
        (parseString rest).map fun (value, rest) => (string value, rest)
      else if c = '[' then
        match skipSpace rest with
        | ']' :: rest => some (array [], rest)
        | _ => (parseItems n rest).map fun (items, rest) => (array items, rest)
      else if c = '{' then
        match skipSpace rest with
        | '}' :: rest => some (object [], rest)
        | _ => (parseMembers n rest).map fun (members, rest) => (object members, rest)
      else if c = '-' ∨ c.isDigit then parseNumber (c :: rest)
      else parseLiteral (c :: rest) := by
  rw [parseValue, skipSpace_cons hSpace]

theorem parseValue_number (mantissa exponent : Int) (n : Nat) (hRest : Follows rest) :
    parseValue (n + 1) (stringifyNumber mantissa exponent ++ rest) =
      some (number mantissa exponent, rest) := by
  have hNumber := parseNumber_stringify mantissa exponent hRest
  rcases head_stringifyNumber mantissa exponent with ⟨c, tail, hText, hHead⟩
  rw [hText, List.cons_append] at hNumber ⊢
  have hNot : isSpace c = false ∧ c ≠ quote ∧ c ≠ '[' ∧ c ≠ '{' := by
    rcases hHead with rfl | hDigit
    · decide
    · refine ⟨(begins_of_isDigit hDigit).1, ?_, ?_, ?_⟩
      · rintro rfl
        cases hDigit
      · rintro rfl
        cases hDigit
      · rintro rfl
        cases hDigit
  rw [parseValue_cons hNot.1, if_neg hNot.2.1, if_neg hNot.2.2.1, if_neg hNot.2.2.2, if_pos hHead]
  exact hNumber

/- The first bracket opens an array that is not empty. -/
theorem not_closed (value : Json) (text tail : List Char) (hClosing : c = ']' ∨ c = '}') :
    skipSpace (stringify value ++ text) ≠ c :: tail := by
  rcases head_stringify value with ⟨d, ds, hText, hSpace, hBracket, hBrace⟩
  rw [hText, List.cons_append, skipSpace_cons hSpace]
  intro hSame
  cases hSame
  rcases hClosing with rfl | rfl
  · exact hBracket rfl
  · exact hBrace rfl

theorem exists_stringifyItems (item : Json) (items : List Json) :
    ∃ text, stringifyItems (item :: items) = stringify item ++ text := by
  cases items with
  | nil => exact ⟨_, rfl⟩
  | cons next items => exact ⟨_, rfl⟩

theorem exists_stringifyMembers (name : String) (value : Json) (members : List (String × Json)) :
    ∃ text, stringifyMembers ((name, value) :: members) =
      stringifyString name ++ ':' :: (stringify value ++ text) := by
  cases members with
  | nil => exact ⟨_, rfl⟩
  | cons next members => exact ⟨_, rfl⟩

theorem parseMembers_cons (name : String) (n : Nat) (text : List Char) :
    parseMembers (n + 1) (stringifyString name ++ ':' :: text) =
      match parseValue n text with
      | none => none
      | some (value, rest) =>
        match skipSpace rest with
        | '}' :: rest => some ([(name, value)], rest)
        | ',' :: rest =>
          (parseMembers n rest).map fun (members, rest) => ((name, value) :: members, rest)
        | _ => none := by
  have hName := parseString_stringify name (':' :: text)
  unfold stringifyString
  rw [List.cons_append, parseMembers, skipSpace_cons (by decide)]
  dsimp only
  rw [if_pos rfl, List.append_assoc, List.singleton_append, hName]
  dsimp only
  rw [skipSpace_cons (by decide)]
  rfl

mutual

/- A value is read back from its text. -/
theorem parseValue_stringify :
    ∀ (value : Json) (n : Nat) (rest : List Char), (stringify value).length ≤ n → Follows rest →
      parseValue n (stringify value ++ rest) = some (value, rest)
  | value, 0, _, hn, _ => absurd (length_stringify_pos value) (Nat.not_lt.mpr hn)
  | null, n + 1, rest, _, _ => by
    rw [stringify, List.cons_append, parseValue_cons (by decide)]
    rfl
  | bool true, n + 1, rest, _, _ => by
    rw [stringify, List.cons_append, parseValue_cons (by decide)]
    rfl
  | bool false, n + 1, rest, _, _ => by
    rw [stringify, List.cons_append, parseValue_cons (by decide)]
    rfl
  | number mantissa exponent, n + 1, rest, _, hRest => by
    rw [stringify]
    exact parseValue_number mantissa exponent n hRest
  | string value, n + 1, rest, _, _ => by
    rw [stringify, stringifyString, List.cons_append,
      parseValue_cons (by decide), if_pos rfl, List.append_assoc,
      List.singleton_append, parseString_stringify]
    rfl
  | array [], n + 1, rest, _, _ => by
    rw [stringify, List.cons_append, parseValue_cons (by decide)]
    rfl
  | array (item :: items), n + 1, rest, hn, _ => by
    rw [stringify, List.length_cons] at hn
    have hItems := parseItems_stringify item items n rest (Nat.le_of_succ_le_succ hn)
    have hOpen : ∀ tail, skipSpace (stringifyItems (item :: items) ++ rest) ≠
        ']' :: tail := by
      intro tail
      rcases exists_stringifyItems item items with ⟨text, hText⟩
      rw [hText, List.append_assoc]
      exact not_closed item _ tail (Or.inl rfl)
    rw [stringify, List.cons_append, parseValue_cons (by decide)]
    rw [if_neg (by decide), if_pos rfl]
    split
    · rename_i hClosed
      exact absurd hClosed (hOpen _)
    · rw [hItems]
      rfl
  | object [], n + 1, rest, _, _ => by
    rw [stringify, List.cons_append, parseValue_cons (by decide)]
    rfl
  | object ((name, value) :: members), n + 1, rest, hn, _ => by
    rw [stringify, List.length_cons] at hn
    have hMembers := parseMembers_stringify name value members n rest (Nat.le_of_succ_le_succ hn)
    have hOpen : ∀ tail, skipSpace (stringifyMembers ((name, value) :: members) ++
        rest) ≠ '}' :: tail := by
      intro tail
      rcases exists_stringifyMembers name value members with ⟨text, hText⟩
      rw [hText, List.append_assoc]
      exact not_closed (string name) _ tail (Or.inr rfl)
    rw [stringify, List.cons_append, parseValue_cons (by decide),
      if_neg (by decide), if_neg (by decide), if_pos rfl]
    split
    · rename_i hClosed
      exact absurd hClosed (hOpen _)
    · rw [hMembers]
      rfl

theorem parseItems_stringify :
    ∀ (item : Json) (items : List Json) (n : Nat) (rest : List Char),
      (stringifyItems (item :: items)).length ≤ n →
        parseItems n (stringifyItems (item :: items) ++ rest) = some (item :: items, rest)
  | item, [], 0, _, hn => by
    rw [stringifyItems, List.length_append] at hn
    exact absurd (length_stringify_pos item) (by omega)
  | item, next :: items, 0, _, hn => by
    rw [stringifyItems, List.length_append] at hn
    exact absurd (length_stringify_pos item) (by omega)
  | item, [], n + 1, rest, hn => by
    rw [stringifyItems, List.length_append, List.length_singleton] at hn
    have hItem := parseValue_stringify item n (']' :: rest) (Nat.le_of_succ_le_succ hn)
        (follows_cons (Or.inr (Or.inl rfl)) rest)
    rw [stringifyItems, List.append_assoc, List.singleton_append, parseItems, hItem]
    dsimp only
    rw [skipSpace_cons (by decide)]
    rfl
  | item, next :: items, n + 1, rest, hn => by
    rw [stringifyItems, List.length_append, List.length_cons] at hn
    have hItem := parseValue_stringify item n (',' :: (stringifyItems (next :: items) ++ rest))
        (by omega) (follows_cons (Or.inl rfl) _)
    have hItems :=
      parseItems_stringify next items n rest (by have := length_stringify_pos item; omega)
    rw [stringifyItems, List.append_assoc, List.cons_append, parseItems, hItem]
    dsimp only
    rw [skipSpace_cons (by decide)]
    change (parseItems n _).map _ = _
    rw [hItems]
    rfl

theorem parseMembers_stringify :
    ∀ (name : String) (value : Json) (members : List (String × Json)) (n : Nat) (rest : List Char),
      (stringifyMembers ((name, value) :: members)).length ≤ n → parseMembers n
        (stringifyMembers ((name, value) :: members) ++ rest) =
        some ((name, value) :: members, rest)
  | name, value, [], 0, _, hn => by
    rw [stringifyMembers, stringifyString] at hn
    cases hn
  | name, value, next :: members, 0, _, hn => by
    rw [stringifyMembers, stringifyString] at hn
    cases hn
  | name, value, [], n + 1, rest, hn => by
    rw [stringifyMembers, List.length_append, List.length_cons,
      List.length_append, List.length_singleton] at hn
    have hValue :=
      parseValue_stringify value n ('}' :: rest)
        (by omega) (follows_cons (Or.inr (Or.inr rfl)) rest)
    rw [stringifyMembers, List.append_assoc, List.cons_append,
      List.append_assoc, List.singleton_append, parseMembers_cons, hValue]
    dsimp only
    rw [skipSpace_cons (by decide)]
    rfl
  | name, value, (name', value') :: members, n + 1, rest, hn => by
    rw [stringifyMembers, List.length_append, List.length_cons,
      List.length_append, List.length_cons] at hn
    have hValue := parseValue_stringify value n (',' ::
        (stringifyMembers ((name', value') :: members) ++ rest))
        (by omega) (follows_cons (Or.inl rfl) _)
    have hMembers := parseMembers_stringify name' value' members n rest (by omega)
    rw [stringifyMembers, List.append_assoc, List.cons_append,
      List.append_assoc, List.cons_append, parseMembers_cons, hValue]
    dsimp only
    rw [skipSpace_cons (by decide)]
    change (parseMembers n _).map _ = _
    rw [hMembers]
    rfl

end

theorem parse_stringify (value : Json) : parse (stringify value) = some value := by
  have hValue :=
    parseValue_stringify value ((stringify value).length + 1) [] (Nat.le_succ _) follows_nil
  rw [List.append_nil] at hValue
  unfold parse
  rw [hValue]
  rfl

end Json
