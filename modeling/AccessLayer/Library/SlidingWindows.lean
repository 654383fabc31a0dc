import Mathlib.Algebra.Order.BigOperators.Group.List
import Mathlib.Algebra.Order.Group.Basic
import Mathlib.Data.List.Sort

/-
  Sliding windows over a sorted set that expires as a whole.

  A log is bounded if no window of some width holds more than a
  budget.  A set follows a log from a time on if it holds what
  every later window holds of it; then what has been pruned, or
  has expired, is no longer in the window.

  Main declarations: `SortedSet`, `weightIn_append_le`
-/

-- Windows of a Log
----

namespace SlidingWindows

section

variable {τ α M : Type} [AddCommGroup τ] [LinearOrder τ] [AddCommMonoid M]

/- What a log weighs in the window that ends at `t`. -/
def weightIn (width : τ) (time : α → τ) (weight : α → M) (log : List α) (t : τ) : M :=
  ((log.filter fun x => t - width < time x ∧ time x ≤ t).map weight).sum

variable {width : τ} {time : α → τ} {weight : α → M}

theorem weightIn_append (log : List α) (x : α) (t : τ) :
    weightIn width time weight (log ++ [x]) t = weightIn width time weight log t +
      if t - width < time x ∧ time x ≤ t then weight x
      else 0 := by
  unfold weightIn
  rw [List.filter_append, List.map_append, List.sum_append]
  congr 1
  by_cases hWithin : t - width < time x ∧ time x ≤ t
  · rw [List.filter_singleton, decide_eq_true hWithin, if_pos hWithin]
    exact List.sum_singleton
  · rw [List.filter_singleton, decide_eq_false hWithin, if_neg hWithin]
    rfl

variable {x : α}

theorem weightIn_append_zero (log : List α) (hZero : weight x = 0) (t : τ) :
    weightIn width time weight (log ++ [x]) t = weightIn width time weight log t := by
  rw [weightIn_append, hZero, ite_self, add_zero]

theorem weightIn_append_of_lt {t : τ} (log : List α) (hLater : t < time x) :
    weightIn width time weight (log ++ [x]) t = weightIn width time weight log t := by
  rw [weightIn_append, if_neg fun h => not_le.mpr hLater h.2, add_zero]

variable [IsOrderedAddMonoid τ] [PartialOrder M] [IsOrderedAddMonoid M]

/- A log stays bounded if the window that ends with a new entry is within the budget. -/
theorem weightIn_append_le {budget : M} {log : List α} (hNonneg : ∀ y ∈ log ++ [x], 0 ≤ weight y)
    (hOrder : ∀ y ∈ log, time y ≤ time x)
    (hBounded : ∀ t, weightIn width time weight log t ≤ budget)
    (hFits : weightIn width time weight (log ++ [x]) (time x) ≤ budget) (t : τ) :
    weightIn width time weight (log ++ [x]) t ≤ budget := by
  rcases lt_or_ge t (time x) with hLater | hReached
  · rw [weightIn_append_of_lt log hLater]
    exact hBounded t
  · refine le_trans ?_ hFits
    have hUntil : ∀ y ∈ log ++ [x], time y ≤ time x := by
      intro y hy
      rcases List.mem_append.mp hy with hOld | hNew
      · exact hOrder y hOld
      · rw [List.mem_singleton.mp hNew]
    have hSub : (log ++ [x]).filter (fun y => t - width < time y ∧ time y ≤ t) =
        ((log ++ [x]).filter fun y => time x - width < time y ∧ time y ≤ time x).filter
          fun y => t - width < time y := by
      rw [List.filter_filter]
      apply List.filter_congr
      intro y hy
      have hHere := hUntil y hy
      have hStart : time x - width ≤ t - width := sub_le_sub_right hReached width
      simp only [← Bool.decide_and, decide_eq_decide]
      constructor
      · exact fun h => ⟨h.1, hStart.trans_lt h.1, hHere⟩
      · exact fun h => ⟨h.1, hHere.trans hReached⟩
    unfold weightIn
    rw [hSub]
    apply List.Sublist.sum_le_sum
    · exact List.filter_sublist.map weight
    · intro w hw
      rcases List.mem_map.mp hw with ⟨y, hy, rfl⟩
      exact hNonneg y (List.mem_of_mem_filter hy)

end

-- Sorted Sets
----

section

/-
  Members with scores.  The set is deleted when its time is over
  or when its last member is removed.
-/
structure SortedSet (μ τ : Type) where
  members : List (μ × τ)
  expiresAt : Option τ

namespace SortedSet

variable {μ τ : Type}

def empty : SortedSet μ τ where
  members := []
  expiresAt := none

/- The highest rank that was reached. -/
def zcard (set : SortedSet μ τ) : ℕ := set.members.length

variable [LinearOrder τ]

/- What is left of a set at a time. -/
def expire (now : τ) (set : SortedSet μ τ) : SortedSet μ τ :=
  if set.expiresAt.any (· < now) then empty else set

def zremrangebyscore (low high : τ) (set : SortedSet μ τ) : SortedSet μ τ :=
  let members := set.members.filter fun x => ¬(low ≤ x.2 ∧ x.2 ≤ high)
  { members
    expiresAt :=
      if members.isEmpty then none else set.expiresAt }

def zadd [DecidableEq μ] (score : τ) (member : μ) (set : SortedSet μ τ) : SortedSet μ τ :=
  { set with
    members := set.members.filter (·.1 ≠ member) ++ [(member, score)] }

/- By score, and by name where the scores are the same. -/
def zrange [LE μ] [DecidableLE μ] (set : SortedSet μ τ) : List (μ × τ) :=
  set.members.insertionSort fun x y => x.2 < y.2 ∨ x.2 = y.2 ∧ x.1 ≤ y.1

def pexpire [AddCommGroup τ] (now ttl : τ) (set : SortedSet μ τ) : SortedSet μ τ :=
  if set.members.isEmpty then set
  else if ttl ≤ 0 then empty
  else { set with expiresAt := some (now + ttl) }

end SortedSet

end

-- Sets That Follow a Log
----

namespace SortedSet

variable {μ τ : Type} [AddCommGroup τ] [LinearOrder τ]

/-
  From a time on, the set holds what a window holds of the log,
  and it is not deleted before that has left the window.
-/
structure Follows (width start : τ) (set : SortedSet μ τ) (log : List (μ × τ)) : Prop where
  sub : ∀ x ∈ set.members, x ∈ log
  recent : ∀ t, start ≤ t → set.members.filter (fun x => t - width < x.2) =
    log.filter fun x => t - width < x.2
  lasting : ∀ expiry ∈ set.expiresAt, ∀ x ∈ log, x.2 + width ≤ expiry

variable {width start now : τ} {set : SortedSet μ τ} {log : List (μ × τ)}

theorem follows_empty (width start : τ) : (empty : SortedSet μ τ).Follows width start [] where
  sub _ h := nomatch h
  recent _ _ := rfl
  lasting _ h := nomatch h

variable {start' : τ}

theorem Follows.mono (hFollows : set.Follows width start log) (hStart : start ≤ start') :
    set.Follows width start' log :=
  ⟨hFollows.sub, fun t hLater => hFollows.recent t (hStart.trans hLater), hFollows.lasting⟩

variable [IsOrderedAddMonoid τ]

theorem filter_eq_nil_of_ended {expiry t : τ} (hEnded : ∀ x ∈ log, x.2 + width ≤ expiry)
    (hLater : expiry ≤ t) :
    log.filter (fun x => t - width < x.2) = [] := by
  rw [List.filter_eq_nil_iff]
  intro x hx
  have hBefore : x.2 ≤ t - width := le_sub_iff_add_le.mpr ((hEnded x hx).trans hLater)
  simpa using hBefore

/- A set may be deleted once its log has left the window. -/
theorem Follows.expire (hFollows : set.Follows width start log) (hStart : start ≤ start')
    (hOver : ∀ expiry ∈ set.expiresAt, expiry < now → expiry ≤ start') :
    (set.expire now).Follows width start' log := by
  unfold SortedSet.expire
  split
  · rename_i hExpired
    rcases (Option.any_eq_true _ _).mp hExpired with ⟨expiry, hExpiry, hLt⟩
    have hEnds := hFollows.lasting expiry hExpiry
    have hBefore := hOver expiry hExpiry (of_decide_eq_true hLt)
    refine ⟨nofun, ?_, nofun⟩
    intro t hLater
    exact (filter_eq_nil_of_ended hEnds (hBefore.trans hLater)).symm
  · exact hFollows.mono hStart

variable {low : τ}

omit [IsOrderedAddMonoid τ] in
/- What is pruned has left the window. -/
theorem Follows.members_zremrangebyscore (hFollows : set.Follows width now log)
    (hLow : ∀ x ∈ log, low ≤ x.2) :
    (set.zremrangebyscore low (now - width)).members = log.filter fun x => now - width < x.2 := by
  rw [← hFollows.recent now le_rfl]
  apply List.filter_congr
  intro x hx
  rw [decide_eq_decide]
  constructor
  · exact fun h => not_le.mp fun hLe => h ⟨hLow x (hFollows.sub x hx), hLe⟩
  · exact fun h hPruned => not_le.mpr h hPruned.2

theorem Follows.zremrangebyscore (hFollows : set.Follows width now log)
    (hLow : ∀ x ∈ log, low ≤ x.2) :
    (set.zremrangebyscore low (now - width)).Follows width now log := by
  have hMembers := hFollows.members_zremrangebyscore hLow
  refine ⟨?_, ?_, ?_⟩
  · intro x hx
    rw [hMembers] at hx
    exact List.mem_of_mem_filter hx
  · intro t hLater
    rw [hMembers, List.filter_filter]
    apply List.filter_congr
    intro x _
    have hStart : now - width ≤ t - width := sub_le_sub_right hLater width
    rw [← Bool.decide_and, decide_eq_decide]
    exact and_iff_left_of_imp hStart.trans_lt
  · intro expiry hExpiry
    unfold SortedSet.zremrangebyscore at hExpiry
    dsimp only at hExpiry
    split at hExpiry
    · cases hExpiry
    · exact hFollows.lasting expiry hExpiry

variable [DecidableEq μ] {score : τ} {member : μ}

omit [AddCommGroup τ] [LinearOrder τ] [IsOrderedAddMonoid τ] in
theorem members_zadd_of_fresh (hFresh : ∀ x ∈ set.members, x.1 ≠ member) :
    (set.zadd score member).members = set.members ++ [(member, score)] := by
  have hKept : set.members.filter (·.1 ≠ member) = set.members := by
    rw [List.filter_eq_self]
    intro x hx
    exact decide_eq_true (hFresh x hx)
  rw [SortedSet.zadd, hKept]

theorem Follows.record (hFollows : set.Follows width start log) (hFresh : ∀ x ∈ log, x.1 ≠ member)
    (hWidth : 0 < width) (hPast : ∀ x ∈ log, x.2 ≤ now) (hScore : score ≤ now) :
    ((set.zadd score member).pexpire now width).Follows width start (log ++ [(member, score)]) := by
  have hMembers : (set.zadd score member).members = set.members ++ [(member, score)] :=
    members_zadd_of_fresh fun x hx => hFresh x (hFollows.sub x hx)
  have hExpires : (set.zadd score member).pexpire now width =
      { members := set.members ++ [(member, score)]
        expiresAt := some (now + width) } := by
    unfold SortedSet.pexpire
    rw [hMembers, if_neg (by simp), if_neg (not_le.mpr hWidth)]
  rw [hExpires]
  refine ⟨?_, ?_, ?_⟩
  · intro x hx
    rcases List.mem_append.mp hx with hOld | hNew
    · exact List.mem_append_left _ (hFollows.sub x hOld)
    · exact List.mem_append_right _ hNew
  · intro t hLater
    rw [List.filter_append, List.filter_append, hFollows.recent t hLater]
  · intro expiry hExpiry x hx
    cases hExpiry
    rcases List.mem_append.mp hx with hOld | hNew
    · exact add_le_add_left (hPast x hOld) width
    · rw [List.mem_singleton.mp hNew]
      exact add_le_add_left hScore width

end SortedSet

end SlidingWindows
