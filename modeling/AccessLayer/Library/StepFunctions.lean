import Mathlib

/-
  Step functions over integer times, and their sums.

  A sample sets a value from its time on.  Before the first
  sample the function has a value of its own.

  Main declaration: `sumHeld_split`
-/

-- Values Held
----

namespace StepFunctions

variable {α V : Type} {time : α → ℤ} {value : α → V} {samples : List α} {start : V} {t : ℤ}

/- The latest of the samples that are not after a time. -/
noncomputable def latestAt (time : α → ℤ) (samples : List α) (t : ℤ) : Option α :=
  (samples.filter fun sample => time sample ≤ t).argmax time

/- The value that is held at a time. -/
noncomputable def heldAt (time : α → ℤ) (value : α → V) (start : V) (samples : List α)
    (t : ℤ) : V := ((latestAt time samples t).map value).getD start

/- All samples are still to come. -/
theorem latestAt_eq_none (hAfter : ∀ sample ∈ samples, t < time sample) :
    latestAt time samples t = none := by
  unfold latestAt
  rw [List.argmax_eq_none, List.filter_eq_nil_iff]
  intro sample hSample
  simpa using hAfter sample hSample

variable {sample : α}

/- What is latest is found. -/
theorem latestAt_eq_some (hSample : sample ∈ samples) (hTime : time sample ≤ t)
    (hLatest : ∀ other ∈ samples, time other ≤ t → other = sample ∨ time other < time sample) :
    latestAt time samples t = some sample := by
  unfold latestAt
  have hMem : sample ∈ samples.filter fun sample => time sample ≤ t :=
    List.mem_filter.mpr ⟨hSample, by simpa using hTime⟩
  cases hArg : (samples.filter fun sample => time sample ≤ t).argmax time with
  | none =>
    rw [List.argmax_eq_none.mp hArg] at hMem
    cases hMem
  | some other =>
    rcases List.mem_filter.mp (List.argmax_mem hArg) with ⟨hOther, hBefore⟩
    have hLe := List.le_of_mem_argmax hMem hArg
    rcases hLatest other hOther (by simpa using hBefore) with rfl | hLt
    · rfl
    · omega

/- What is found is a sample of that time or before. -/
theorem latestAt_mem (hLatest : latestAt time samples t = some sample) :
    sample ∈ samples ∧ time sample ≤ t := by
  have hMem := List.mem_filter.mp (List.argmax_mem hLatest)
  exact ⟨hMem.1, by simpa using hMem.2⟩

/- No other is later. -/
theorem le_of_latestAt {other : α} (hLatest : latestAt time samples t = some sample)
    (hOther : other ∈ samples) (hTime : time other ≤ t) : time other ≤ time sample :=
  List.le_of_mem_argmax (List.mem_filter.mpr ⟨hOther, by simpa using hTime⟩) hLatest

/- The converse of `latestAt_eq_none`. -/
theorem lt_of_latestAt_eq_none (hLatest : latestAt time samples t = none)
    (hSample : sample ∈ samples) :
    t < time sample := by
  unfold latestAt at hLatest
  rw [List.argmax_eq_none, List.filter_eq_nil_iff] at hLatest
  simpa using hLatest sample hSample

/- A part of the samples with the latest will do. -/
theorem latestAt_of_last_mem {read : List α}
    (hDistinct : ∀ a ∈ samples, ∀ b ∈ samples, time a = time b → a = b)
    (hRead : ∀ sample ∈ read, sample ∈ samples)
    (hLast : ∀ last, latestAt time samples t = some last → last ∈ read) :
    latestAt time read t = latestAt time samples t := by
  cases hLatest : latestAt time samples t with
  | none =>
    apply latestAt_eq_none
    intro sample hSample
    exact lt_of_latestAt_eq_none hLatest (hRead sample hSample)
  | some last =>
    rcases latestAt_mem hLatest with ⟨hMem, hTime⟩
    refine latestAt_eq_some (hLast last hLatest) hTime ?_
    intro other hOther hBefore
    have hOther := hRead other hOther
    rcases lt_or_eq_of_le (le_of_latestAt hLatest hOther hBefore) with hLt | hEq
    · exact .inr hLt
    · exact .inl (hDistinct other hOther last hMem hEq)

/- What all values have, the held one has. -/
theorem heldAt_of_forall {P : V → Prop} (hStart : P start)
    (hSamples : ∀ sample ∈ samples, P (value sample)) :
    P (heldAt time value start samples t) := by
  unfold heldAt
  cases hLatest : latestAt time samples t with
  | none => exact hStart
  | some sample => exact hSamples sample (latestAt_mem hLatest).1

/- Samples of different times can be taken in any order. -/
theorem heldAt_perm {samples' : List α} (hDistinct : (samples.map time).Nodup)
    (hPerm : samples.Perm samples') :
    heldAt time value start samples t = heldAt time value start samples' t := by
  have hSame : latestAt time samples' t = latestAt time samples t :=
    latestAt_of_last_mem (fun _ hLeft _ hRight hTime =>
      List.inj_on_of_nodup_map hDistinct hLeft hRight hTime)
      (fun _ hSample => hPerm.mem_iff.mpr hSample)
      (fun _ hLatest => hPerm.mem_iff.mp (latestAt_mem hLatest).1)
  rw [heldAt, heldAt, hSame]

/- The first sample is the start of what follows. -/
theorem heldAt_cons (hFirst : ∀ other ∈ samples, time sample < time other) :
    heldAt time value start (sample :: samples) t =
      if t < time sample then start
      else heldAt time value (value sample) samples t := by
  split
  · rename_i hBefore
    unfold heldAt
    rw [latestAt_eq_none]
    · rfl
    · intro other hOther
      rcases List.mem_cons.mp hOther with rfl | hOther
      · exact hBefore
      · exact hBefore.trans (hFirst other hOther)
  · rename_i hFrom
    have hCons : latestAt time (sample :: samples) t =
        (latestAt time samples t).or (some sample) := by
      unfold latestAt
      rw [List.filter_cons_of_pos (by simpa using hFrom), List.argmax_cons]
      cases hLatest : latestAt time samples t with
      | none =>
        unfold latestAt at hLatest
        rw [hLatest]
        rfl
      | some other =>
        have hLt := hFirst other (latestAt_mem hLatest).1
        unfold latestAt at hLatest
        rw [hLatest]
        exact if_pos hLt
    unfold heldAt
    rw [hCons]
    cases latestAt time samples t <;> rfl

/- Without samples the value never changes. -/
theorem heldAt_nil : heldAt time value start [] t = start := by
  rfl

/- What comes later does not matter. -/
theorem heldAt_append_of_before {later : List α} (hLater : ∀ sample ∈ later, t < time sample) :
    heldAt time value start (samples ++ later) t = heldAt time value start samples t := by
  have hNone : later.filter (fun sample => time sample ≤ t) = [] := by
    rw [List.filter_eq_nil_iff]
    intro sample hSample
    simpa using hLater sample hSample
  unfold heldAt latestAt
  rw [List.filter_append, hNone, List.append_nil]

/- The last value is held for ever. -/
theorem heldAt_of_last {last : α} (hLast : last ∈ samples)
    (hLatest : ∀ other ∈ samples, other = last ∨ time other < time last) (hTime : time last ≤ t) :
    heldAt time value start samples t = value last := by
  unfold heldAt
  rw [latestAt_eq_some hLast hTime fun other hOther _ => hLatest other hOther]
  rfl

end StepFunctions

-- Sums of Held Values
----

namespace StepFunctions

variable {α V : Type} [AddCommMonoid V] {time : α → ℤ} {value : α → V} {samples : List α}
variable {start : V} {a b : ℤ}

/- What is held from one time to another. -/
noncomputable def sumHeld (time : α → ℤ) (value : α → V) (start : V) (samples : List α)
    (a b : ℤ) : V := ∑ t ∈ Finset.Ico a b, heldAt time value start samples t

/- Intervals that meet are added. -/
theorem sumHeld_split {c : ℤ} (hLeft : a ≤ c) (hRight : c ≤ b) :
    sumHeld time value start samples a b = sumHeld time value start samples a c +
      sumHeld time value start samples c b := by
  unfold sumHeld
  rw [← Finset.Ico_union_Ico_eq_Ico hLeft hRight,
    Finset.sum_union (Finset.Ico_disjoint_Ico_consecutive a c b)]

/- Only what is held in the interval matters. -/
theorem sumHeld_congr {start' : V} {samples' : List α}
    (hHeld : ∀ t, a ≤ t → t < b → heldAt time value start samples t =
      heldAt time value start' samples' t) :
    sumHeld time value start samples a b = sumHeld time value start' samples' a b := by
  refine Finset.sum_congr rfl fun t ht => ?_
  exact hHeld t (Finset.mem_Ico.mp ht).1 (Finset.mem_Ico.mp ht).2

/- A constant by the length of the interval. -/
theorem sumHeld_const {held : V}
    (hHeld : ∀ t, a ≤ t → t < b → heldAt time value start samples t = held) :
    sumHeld time value start samples a b = (b - a).toNat • held := by
  rw [← Int.card_Ico, ← Finset.sum_const]
  refine Finset.sum_congr rfl fun t ht => ?_
  exact hHeld t (Finset.mem_Ico.mp ht).1 (Finset.mem_Ico.mp ht).2

/- Without samples the start is held. -/
theorem sumHeld_nil :
    sumHeld time value start [] a b = (b - a).toNat • start := by
  exact sumHeld_const fun t _ _ => heldAt_nil

/- The start is held up to the first sample. -/
theorem sumHeld_cons {sample : α} (hFirst : ∀ other ∈ samples, time sample < time other)
    (hEnd : time sample ≤ b) :
    sumHeld time value start (sample :: samples) a b = (time sample - a).toNat • start +
      sumHeld time value (value sample) samples (max a (time sample)) b := by
  have hHeld :
      ∀ t, max a (time sample) ≤ t → t < b → heldAt time value start (sample :: samples) t =
        heldAt time value (value sample) samples t := by
    intro t hFrom _
    rw [heldAt_cons hFirst, if_neg]
    exact not_lt.mpr ((le_max_right _ _).trans hFrom)
  by_cases hStart : time sample ≤ a
  · rw [max_eq_left hStart] at hHeld ⊢
    rw [Int.toNat_eq_zero.mpr (by omega), zero_nsmul, zero_add]
    exact sumHeld_congr hHeld
  · have hLe : a ≤ time sample := by omega
    rw [max_eq_right hLe] at hHeld ⊢
    rw [sumHeld_split hLe hEnd, sumHeld_congr hHeld, sumHeld_const]
    intro t _ hBefore
    rw [heldAt_cons hFirst, if_pos hBefore]

end StepFunctions

-- Bounds
----

namespace StepFunctions

variable {α V : Type} [AddCommMonoid V] [PartialOrder V] [IsOrderedAddMonoid V] {time : α → ℤ}
variable {value : α → V} {samples : List α} {start low high : V}

/- A lower bound of the values, held throughout. -/
theorem le_sumHeld (hStart : low ≤ start) (hSamples : ∀ sample ∈ samples, low ≤ value sample)
    (a b : ℤ) :
    (b - a).toNat • low ≤ sumHeld time value start samples a b := by
  rw [← Int.card_Ico]
  exact Finset.card_nsmul_le_sum _ _ _ fun t _ => heldAt_of_forall hStart hSamples

/- And an upper one. -/
theorem sumHeld_le (hStart : start ≤ high) (hSamples : ∀ sample ∈ samples, value sample ≤ high)
    (a b : ℤ) :
    sumHeld time value start samples a b ≤ (b - a).toNat • high := by
  rw [← Int.card_Ico]
  exact Finset.sum_le_card_nsmul _ _ _ fun t _ =>
    @heldAt_of_forall _ _ time value samples start t (· ≤ high) hStart hSamples

end StepFunctions
