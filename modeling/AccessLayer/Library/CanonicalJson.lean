import AccessLayer.Library.Json
import Mathlib

/-
  JSON values whose objects have one member for each name and
  whose numbers are read as finite floating-point numbers, what
  it is for two of them to be equal up to the order of members,
  and a text that is the same for such values and no others.

  `numberText_eq`: a number is written as its decimal.
  `canonicalText_eq_iff`: texts are the same if and only if
  values are equal up to order.
-/

-- Values
----

namespace Json

section

/- The number that a mantissa and an exponent are read as. -/
def double (mantissa exponent : ℤ) : ℚ := Doubles.toDouble (mantissa * 10 ^ exponent)

/- Numbers are finite, and each object has one member for each name. -/
inductive WellFormed : Json → Prop where
  | null : WellFormed null
  | bool (value : Bool) : WellFormed (bool value)
  | number {m e : ℤ} (hFinite : Doubles.isFiniteNumber (double m e) = true) :
    WellFormed (number m e)
  | string (value : String) : WellFormed (string value)
  | array {items : List Json} (hItems : ∀ item ∈ items, WellFormed item) : WellFormed (array items)
  | object {members : List (String × Json)} (hNames : (members.map Prod.fst).Nodup)
    (hMembers : ∀ member ∈ members, WellFormed member.2) : WellFormed (object members)

abbrev Value := { value : Json // value.WellFormed }

/- Equal up to the order of the members of objects. -/
inductive Same : Json → Json → Prop where
  | null : Same null null
  | bool (value : Bool) : Same (bool value) (bool value)
  | number {m e m' e' : ℤ} (hEqual : double m e = double m' e') :
    Same (number m e) (number m' e')
  | string (value : String) : Same (string value) (string value)
  | array {items items' : List Json} (hLength : items.length = items'.length)
    (hItems : ∀ pair ∈ items.zip items', Same pair.1 pair.2) : Same (array items) (array items')
  | object {members members' ordered ordered' : List (String × Json)}
    (hPerm : members.Perm ordered) (hPerm' : members'.Perm ordered')
    (hNames : ordered.map Prod.fst = ordered'.map Prod.fst)
    (hMembers : ∀ pair ∈ ordered.zip ordered', Same pair.1.2 pair.2.2) :
    Same (object members) (object members')

-- Canonical Forms
----

/- Characters in the order of their UTF-16 code units. -/
def unitOrder (c : Char) : ℕ :=
  if 0xE000 ≤ c.toNat ∧ c.toNat < 0x10000 then c.toNat + 0x110000 else c.toNat

/- Names are sorted by their code units. -/
def nameOrder (name : String) : List ℕ := name.toList.map unitOrder

def sortMembers {α : Type} (members : List (String × α)) : List (String × α) :=
  members.insertionSort fun a b => nameOrder a.1 ≤ nameOrder b.1

mutual

def canonical : Json → Json
  | null => null
  | bool value => bool value
  | number mantissa exponent =>
    number (Doubles.decimalOf (double mantissa exponent)).1
      (Doubles.decimalOf (double mantissa exponent)).2
  | string value => string value
  | array items => array (canonicalItems items)
  | object members => object (sortMembers (canonicalMembers members))

def canonicalItems : List Json → List Json
  | [] => []
  | item :: rest => canonical item :: canonicalItems rest

def canonicalMembers : List (String × Json) → List (String × Json)
  | [] => []
  | (name, value) :: rest => (name, canonical value) :: canonicalMembers rest

end

mutual

/- The text of a value, its names sorted wherever an object is written. -/
def canonicalText : Json → List Char
  | null => stringify null
  | bool value => stringify (bool value)
  | number mantissa exponent => Doubles.numberText (double mantissa exponent)
  | string value => stringifyString value
  | array items => '[' :: ([','].intercalate (itemTexts items) ++ [']'])
  | object members =>
    '{' :: ([','].intercalate ((sortMembers (memberTexts members)).map fun member =>
      stringifyString member.1 ++ ':' :: member.2) ++ ['}'])

def itemTexts : List Json → List (List Char)
  | [] => []
  | item :: rest => canonicalText item :: itemTexts rest

def memberTexts : List (String × Json) → List (String × List Char)
  | [] => []
  | (name, value) :: rest => (name, canonicalText value) :: memberTexts rest

end

theorem itemTexts_eq (items : List Json) : itemTexts items = items.map canonicalText := by
  induction items with
  | nil => rfl
  | cons item rest ih => rw [itemTexts, ih, List.map_cons]

theorem memberTexts_eq (members : List (String × Json)) :
    memberTexts members = members.map fun member => (member.1, canonicalText member.2) := by
  induction members with
  | nil => rfl
  | cons member rest ih => rw [memberTexts, ih, List.map_cons]

theorem canonicalItems_eq (items : List Json) : canonicalItems items = items.map canonical := by
  induction items with
  | nil => rfl
  | cons item rest ih => rw [canonicalItems, ih, List.map_cons]

theorem canonicalMembers_eq (members : List (String × Json)) :
    canonicalMembers members = members.map fun member => (member.1, canonical member.2) := by
  induction members with
  | nil => rfl
  | cons member rest ih => rw [canonicalMembers, ih, List.map_cons]

theorem induct {P : Json → Prop} (hNull : P null) (hBool : ∀ value, P (bool value))
    (hNumber : ∀ mantissa exponent, P (number mantissa exponent))
    (hString : ∀ value, P (string value))
    (hArray : ∀ items, (∀ item ∈ items, P item) → P (array items))
    (hObject : ∀ members, (∀ member ∈ members, P member.2) → P (object members)) (value : Json) :
    P value := by
  refine @Json.rec P (fun items => ∀ item ∈ items, P item)
    (fun members => ∀ member ∈ members, P member.2) (fun member => P member.2) hNull hBool hNumber
    hString hArray hObject ?_ ?_ ?_ ?_ (fun _ _ h => h) value
  · exact fun _ h => absurd h List.not_mem_nil
  · exact fun _ _ hFirst hRest => List.forall_mem_cons.mpr ⟨hFirst, hRest⟩
  · exact fun _ h => absurd h List.not_mem_nil
  · exact fun _ _ hFirst hRest => List.forall_mem_cons.mpr ⟨hFirst, hRest⟩

-- Numbers
----

theorem toDigits_mul_pow {n : ℕ} (hPos : 0 < n) (k : ℕ) :
    Nat.toDigits 10 (n * 10 ^ k) = Nat.toDigits 10 n ++ List.replicate k '0' := by
  induction k with
  | zero => simp
  | succ k ih =>
    have hLast := Nat.toDigits_append_toDigits (b := 10) (n := n * 10 ^ k) (d := 0) (by decide)
      (Nat.mul_pos hPos (Nat.pow_pos (by decide))) (by decide)
    rw [show n * 10 ^ (k + 1) = 10 * (n * 10 ^ k) + 0 by ring, ← hLast, ih, List.append_assoc,
      List.replicate_succ']
    rfl

section

variable {x : ℚ}

theorem positiveText_eq (hPos : 0 < x) (hDouble : Doubles.toDouble x = x) :
    Doubles.positiveText x =
      stringifyDecimal (Doubles.positiveDecimal x).1.natAbs (Doubles.positiveDecimal x).2 := by
  rcases Doubles.significant_spec hPos hDouble with
    ⟨digits, k, n, hSame, hDigits, ⟨hLength, hFew⟩, -⟩
  unfold Doubles.positiveText Doubles.positiveDecimal
  rw [hSame]
  dsimp only
  split
  · rename_i hInteger
    have hMantissa : ((digits : ℤ) * 10 ^ (n - k).toNat).natAbs = digits * 10 ^ (n - k).toNat := by
      rw [Int.natAbs_mul, Int.natAbs_pow]
      rfl
    rw [Doubles.layout, if_pos hInteger, stringifyDecimal, if_pos rfl, hMantissa,
      toDigits_mul_pow hDigits]
  · rename_i hNot
    rw [stringifyDecimal, if_neg (by omega), Int.natAbs_natCast, hLength, add_sub_cancel]
    split
    · rfl
    · rw [Doubles.layout, if_neg hNot, if_neg (by omega), if_neg (by omega)]

/- A number is written as its decimal. -/
theorem numberText_eq (hDouble : Doubles.toDouble x = x) : Doubles.numberText x =
    stringifyNumber (Doubles.decimalOf x).1 (Doubles.decimalOf x).2 := by
  unfold Doubles.numberText Doubles.decimalOf
  split
  · rfl
  · rename_i hNonzero
    split
    · rename_i hNegative
      have hPos : 0 < -x := neg_pos.mpr hNegative
      have hDouble' : Doubles.toDouble (-x) = -x := by rw [Doubles.toDouble_neg, hDouble]
      have hMantissa := Doubles.positiveDecimal_pos hPos hDouble'
      rw [positiveText_eq hPos hDouble', stringifyNumber, if_pos (neg_neg_of_pos hMantissa),
        Int.natAbs_neg]
    · rename_i hNot
      have hPos : 0 < x := lt_of_le_of_ne (not_lt.mp hNot) (Ne.symm hNonzero)
      have hMantissa := Doubles.positiveDecimal_pos hPos hDouble
      rw [positiveText_eq hPos hDouble, stringifyNumber, if_neg (not_lt.mpr hMantissa.le)]

end

/- A number has one decimal. -/
theorem decimalOf_eq_iff {m e m' e' : ℤ} :
    Doubles.decimalOf (double m e) = Doubles.decimalOf (double m' e') ↔
      double m e = double m' e' := by
  constructor
  · intro hSame
    calc
      double m e = Doubles.toDouble ((Doubles.decimalOf (double m e)).1 *
        10 ^ (Doubles.decimalOf (double m e)).2) :=
        (Doubles.toDouble_decimalOf (Doubles.toDouble_toDouble _)).symm
      _ = double m' e' := by
        rw [hSame]
        exact Doubles.toDouble_decimalOf (Doubles.toDouble_toDouble _)
  · intro hEqual
    rw [hEqual]

-- Equality up to Order
----

theorem map_eq_map_iff {α β : Type} {f : α → β} {xs ys : List α} :
    xs.map f = ys.map f ↔ xs.length = ys.length ∧ ∀ pair ∈ xs.zip ys, f pair.1 = f pair.2 := by
  induction xs generalizing ys with
  | nil => cases ys <;> simp
  | cons x xs ih =>
    cases ys with
    | nil => simp
    | cons y ys =>
      rw [List.map_cons, List.map_cons, List.cons.injEq, ih, List.zip_cons_cons,
        List.forall_mem_cons, List.length_cons, List.length_cons, Nat.add_right_cancel_iff]
      tauto

theorem nameOrder_injective : Function.Injective nameOrder := by
  have hOrder : Function.Injective unitOrder := by
    intro c d hSame
    have hValid (c : Char) : c.toNat < 0x110000 := by
      rcases c.valid with hLow | hHigh
      · exact hLow.trans (by decide)
      · exact hHigh.2
    have hc := hValid c
    have hd := hValid d
    apply Char.toNat_inj.mp
    unfold unitOrder at hSame
    split_ifs at hSame <;> omega
  intro name name' hSame
  exact String.ext (List.map_injective_iff.mpr hOrder hSame)

section

variable {α : Type} {members members' : List (String × α)}

theorem perm_sortMembers : (sortMembers members).Perm members := List.perm_insertionSort _ _

theorem sortMembers_map {β : Type} (f : α → β) :
    sortMembers (members.map fun member => (member.1, f member.2)) =
      (sortMembers members).map fun member => (member.1, f member.2) :=
  (List.map_insertionSort (r := fun a b : String × α => nameOrder a.1 ≤ nameOrder b.1)
    (s := fun a b : String × β => nameOrder a.1 ≤ nameOrder b.1)
    (fun member => (member.1, f member.2))
    members fun _ _ _ _ => Iff.rfl).symm

/- Members of different names are put in one order. -/
theorem sortMembers_eq (hPerm : members.Perm members') (hNames : (members.map Prod.fst).Nodup) :
    sortMembers members = sortMembers members' := by
  have hSorted (xs : List (String × α)) :
      (sortMembers xs).Pairwise fun a b => nameOrder a.1 ≤ nameOrder b.1 := by
    have : Std.Total fun a b : String × α => nameOrder a.1 ≤ nameOrder b.1 :=
      ⟨fun a b => le_total (nameOrder a.1) (nameOrder b.1)⟩
    have : IsTrans (String × α) fun a b => nameOrder a.1 ≤ nameOrder b.1 := ⟨fun _ _ _ => le_trans⟩
    exact List.pairwise_insertionSort _ _
  refine List.Perm.eq_of_pairwise (fun a b ha hb hab hba => ?_) (hSorted _) (hSorted _)
    (perm_sortMembers.trans (hPerm.trans perm_sortMembers.symm))
  exact List.inj_on_of_nodup_map hNames (perm_sortMembers.mem_iff.mp ha)
    (hPerm.mem_iff.mpr (perm_sortMembers.mem_iff.mp hb)) (nameOrder_injective (le_antisymm hab hba))

end

theorem canonical_eq_of_same {first second : Json} (hSame : Same first second)
    (hFirst : first.WellFormed) (hSecond : second.WellFormed) :
    canonical first = canonical second := by
  induction hSame with
  | null => rfl
  | bool value => rfl
  | number hEqual => rw [canonical, canonical, hEqual]
  | string value => rfl
  | array hLength hItems ih =>
    cases hFirst with
    | array hEach =>
      cases hSecond with
      | array hEach' =>
        rw [canonical, canonical, canonicalItems_eq, canonicalItems_eq,
          map_eq_map_iff.mpr ⟨hLength, fun pair hPair => ?_⟩]
        have hMem := List.of_mem_zip (show (pair.1, pair.2) ∈ _ from hPair)
        exact ih pair hPair (hEach _ hMem.1) (hEach' _ hMem.2)
  | object hPerm hPerm' hNames hMembers ih =>
    cases hFirst with
    | object hNodup hEach =>
      cases hSecond with
      | object hNodup' hEach' =>
        rw [canonical, canonical, canonicalMembers_eq, canonicalMembers_eq, sortMembers_map,
          sortMembers_map, sortMembers_eq hPerm hNodup, sortMembers_eq hPerm' hNodup',
          ← sortMembers_map, ← sortMembers_map, map_eq_map_iff.mpr ⟨?_, fun pair hPair => ?_⟩]
        · simpa using congrArg List.length hNames
        · have hMem := List.of_mem_zip (show (pair.1, pair.2) ∈ _ from hPair)
          have hName := (map_eq_map_iff.mp hNames).2 pair hPair
          have hValue := ih pair hPair (hEach _ (hPerm.mem_iff.mpr hMem.1))
            (hEach' _ (hPerm'.mem_iff.mpr hMem.2))
          exact Prod.ext hName hValue

theorem same_of_canonical_eq {first : Json} :
    ∀ {second : Json}, canonical first = canonical second → Same first second := by
  induction first using induct with
  | hNull =>
    intro second hSame
    cases second <;> cases hSame
    exact .null
  | hBool value =>
    intro second hSame
    cases second <;> cases hSame
    exact .bool value
  | hNumber mantissa exponent =>
    intro second hSame
    cases second <;> simp only [canonical, reduceCtorEq, number.injEq] at hSame
    exact .number (decimalOf_eq_iff.mp (Prod.ext hSame.1 hSame.2))
  | hString value =>
    intro second hSame
    cases second <;> cases hSame
    exact .string value
  | hArray items ih =>
    intro second hSame
    cases second <;> simp only [canonical, reduceCtorEq, array.injEq] at hSame
    rw [canonicalItems_eq, canonicalItems_eq, map_eq_map_iff] at hSame
    refine .array hSame.1 fun pair hPair => ?_
    have hMem := List.of_mem_zip (show (pair.1, pair.2) ∈ _ from hPair)
    exact ih _ hMem.1 (hSame.2 pair hPair)
  | hObject members ih =>
    intro second hSame
    cases second <;> simp only [canonical, reduceCtorEq, object.injEq] at hSame
    rw [canonicalMembers_eq, canonicalMembers_eq, sortMembers_map, sortMembers_map,
      map_eq_map_iff] at hSame
    refine .object perm_sortMembers.symm perm_sortMembers.symm
      (map_eq_map_iff.mpr ⟨hSame.1, fun pair hPair => (Prod.mk.inj (hSame.2 pair hPair)).1⟩)
      fun pair hPair => ?_
    have hMem := List.of_mem_zip (show (pair.1, pair.2) ∈ _ from hPair)
    exact ih _ (perm_sortMembers.mem_iff.mp hMem.1) (Prod.mk.inj (hSame.2 pair hPair)).2

-- Canonical Texts
----

theorem stringifyItems_eq (items : List Json) :
    stringifyItems items = [','].intercalate (items.map stringify) ++ [']'] := by
  induction items with
  | nil => rfl
  | cons item rest ih =>
    cases rest with
    | nil => simp [stringifyItems]
    | cons next rest =>
      rw [stringifyItems, ih, List.map_cons, List.map_cons, List.map_cons,
        List.intercalate_cons_cons]
      simp

theorem stringifyMembers_eq (members : List (String × Json)) :
    stringifyMembers members = [','].intercalate (members.map fun member =>
      stringifyString member.1 ++ ':' :: stringify member.2) ++ ['}'] := by
  induction members with
  | nil => rfl
  | cons member rest ih =>
    cases rest with
    | nil => simp [stringifyMembers]
    | cons next rest =>
      rw [stringifyMembers, ih, List.map_cons, List.map_cons, List.map_cons,
        List.intercalate_cons_cons]
      simp

theorem canonicalText_eq (value : Json) : canonicalText value = stringify (canonical value) := by
  induction value using induct with
  | hNull => rfl
  | hBool value => rfl
  | hNumber mantissa exponent => exact numberText_eq (Doubles.toDouble_toDouble _)
  | hString value => rfl
  | hArray items ih =>
    have hTexts : itemTexts items = (canonicalItems items).map stringify := by
      rw [itemTexts_eq, canonicalItems_eq, List.map_map]
      exact List.map_congr_left ih
    rw [canonicalText, canonical, stringify, stringifyItems_eq, hTexts]
  | hObject members ih =>
    have hTexts : memberTexts members =
        (canonicalMembers members).map fun member => (member.1, stringify member.2) := by
      rw [memberTexts_eq, canonicalMembers_eq, List.map_map]
      exact List.map_congr_left fun member hMember => Prod.ext rfl (ih member hMember)
    rw [canonicalText, canonical, stringify, stringifyMembers_eq, hTexts, sortMembers_map,
      List.map_map]
    rfl

/- Values have one text if and only if they are equal up to order. -/
theorem canonicalText_eq_iff (first second : Value) :
    canonicalText first = canonicalText second ↔ Same first.1 second.1 := by
  rw [canonicalText_eq, canonicalText_eq]
  constructor
  · intro hText
    have hParsed := congrArg parse hText
    rw [parse_stringify, parse_stringify] at hParsed
    exact same_of_canonical_eq (Option.some.inj hParsed)
  · intro hSame
    rw [canonical_eq_of_same hSame first.2 second.2]

end

end Json
