import Mathlib.Data.Nat.Log
import Mathlib.Data.List.Basic
import Mathlib.Logic.Function.Iterate
import Mathlib.Tactic.Linarith

/-
  Binary trees built level by level, in which the unpaired last
  node of a level is promoted unchanged to the next level.

  Main declaration: `climb_eq_root`
-/

-- Levels
----

namespace PromotionTree

section

variable {α : Type}

/- The next level: neighbours combined, a last node promoted. -/
def pairUp (f : α → α → α) : List α → List α
  | [] => []
  | [a] => [a]
  | a :: b :: rest => f a b :: pairUp f rest

def level (f : α → α → α) (k : Nat) (leaves : List α) : List α := (pairUp f)^[k] leaves

/- Number of nodes at level `k` above `n` leaves. -/
def width (n : Nat) : Nat → Nat
  | 0 => n
  | k + 1 => (width n k + 1) / 2

variable (f : α → α → α)

@[simp] theorem level_zero
    (leaves : List α) : level f 0 leaves = leaves := rfl

theorem level_succ (k : Nat) (leaves : List α) :
    level f (k + 1) leaves = pairUp f (level f k leaves) := Function.iterate_succ_apply' _ _ _

theorem length_pairUp (xs : List α) : (pairUp f xs).length = (xs.length + 1) / 2 := by
  induction xs using pairUp.induct with
  | case1 => simp [pairUp]
  | case2 a => simp [pairUp]
  | case3 a b rest ih =>
    simp only [pairUp, List.length_cons, ih]
    omega

@[simp] theorem length_level (k : Nat) (leaves : List α) :
    (level f k leaves).length = width leaves.length k := by
  induction k with
  | zero => rfl
  | succ k ih => rw [level_succ, length_pairUp, ih, width]

/- A node of the next level combines its two children. -/
theorem getElem?_pairUp (xs : List α) (p : Nat) :
    (pairUp f xs)[p]? =
      match xs[2 * p]?, xs[2 * p + 1]? with
      | some a, some b => some (f a b)
      | some a, none => some a
      | none, _ => none := by
  induction xs using pairUp.induct generalizing p with
  | case1 => simp [pairUp]
  | case2 a =>
    cases p with
    | zero => simp [pairUp]
    | succ p => simp [pairUp, show 2 * (p + 1) = 2 * p + 1 + 1 by omega]
  | case3 a b rest ih =>
    cases p with
    | zero => simp [pairUp]
    | succ p =>
      simp only [pairUp, List.getElem?_cons_succ, ih, show 2 * (p + 1) = 2 * p + 1 + 1 by omega]

theorem width_le_iff (n k m : Nat) : width n k ≤ m ↔ n ≤ m * 2 ^ k := by
  induction k generalizing m with
  | zero => simp [width]
  | succ k ih =>
    have hHalf : (width n k + 1) / 2 ≤ m ↔ width n k ≤ 2 * m := by omega
    rw [width, hHalf, ih, pow_succ]
    constructor <;> intro h <;> nlinarith

theorem div_le_width (n k : Nat) : n / 2 ^ k ≤ width n k := by
  by_contra hLt
  have hLe : n ≤ width n k * 2 ^ k := (width_le_iff n k _).mp le_rfl
  have hDiv : n / 2 ^ k ≤ width n k := Nat.div_le_of_le_mul (by rwa [mul_comm] at hLe)
  exact hLt hDiv

end

-- Roots
----

section

variable {α : Type}

/- The single node of the top level. -/
def root (f : α → α → α) (leaves : List α) : Option α :=
  (level f (Nat.clog 2 leaves.length) leaves)[0]?

/- Combine levels until at most one node is left. -/
def collapse
    (f : α → α → α) (xs : List α) : List α :=
  if 1 < xs.length then collapse f (pairUp f xs) else xs
termination_by xs.length
decreasing_by
  rw [length_pairUp]
  omega

variable (f : α → α → α)

theorem level_pairUp (k : Nat) (xs : List α) : level f k (pairUp f xs) = level f (k + 1) xs := rfl

theorem clog_half {n : Nat} (hn : 1 < n) : Nat.clog 2 n = Nat.clog 2 ((n + 1) / 2) + 1 := by
  rw [Nat.clog_of_one_lt (by omega) hn]
  rfl

/- The loop over levels ends at the top level. -/
theorem collapse_eq_level (xs : List α) :
    collapse f xs = level f (Nat.clog 2 xs.length) xs := by
  induction xs using collapse.induct f with
  | case1 xs hLong ih =>
    rw [collapse, if_pos hLong, ih, length_pairUp, level_pairUp, ← clog_half hLong]
  | case2 xs hShort => rw [collapse, if_neg hShort, Nat.clog_of_right_le_one (by omega), level_zero]

theorem collapse_eq_root (xs : List α) : (collapse f xs)[0]? = root f xs := by
  rw [collapse_eq_level, root]

end

-- Appending a Leaf
----

section

variable {α : Type}

/-
  The last node of each level after `x` is appended.  It has a
  left sibling exactly when its position is odd.
-/
def spine (f : α → α → α) (leaves : List α) (x : α) : Nat → α
  | 0 => x
  | k + 1 =>
    if leaves.length / 2 ^ k % 2 = 1 then
      match (level f k leaves)[leaves.length / 2 ^ k - 1]? with
      | some sibling => f sibling (spine f leaves x k)
      | none => spine f leaves x k
    else spine f leaves x k

variable (f : α → α → α)

/- Pairing a cut level that ends with a new node. -/
theorem pairUp_take_concat (xs : List α) (m : Nat) (hm : m ≤ xs.length) (s : α) :
    pairUp f (xs.take m ++ [s]) = (pairUp f xs).take (m / 2) ++ [if m % 2 = 1 then
      match xs[m - 1]? with
      | some sibling => f sibling s
      | none => s
      else s] := by
  induction xs using pairUp.induct generalizing m with
  | case1 =>
    have hZero : m = 0 := by simpa using hm
    simp [pairUp]
  | case2 a =>
    rcases Nat.le_one_iff_eq_zero_or_eq_one.mp (by simpa using hm) with rfl | rfl
    · simp [pairUp]
    · simp [pairUp]
  | case3 a b rest ih =>
    match m with
    | 0 => simp [pairUp]
    | 1 => simp [pairUp]
    | m + 2 =>
      have hRest : m ≤ rest.length := by simpa using hm
      have hHalf : (m + 2) / 2 = m / 2 + 1 := by omega
      have hParity : (m + 2) % 2 = m % 2 := by omega
      simp only [List.take_succ_cons, List.cons_append, pairUp, ih m hRest, hHalf, hParity]
      by_cases hOdd : m % 2 = 1
      · have hIndex : m + 2 - 1 = m - 1 + 1 + 1 := by omega
        simp [hOdd, hIndex]
      · simp [hOdd]

/-
  Appending a leaf keeps the complete nodes of every level and
  replaces what follows them by the spine.
-/
theorem level_concat (k : Nat) (leaves : List α) (x : α) :
    level f k (leaves ++ [x]) = (level f k leaves).take (leaves.length / 2 ^ k) ++
      [spine f leaves x k] := by
  induction k with
  | zero => simp [spine]
  | succ k ih =>
    have hWidth : leaves.length / 2 ^ k ≤
        (level f k leaves).length := by
      rw [length_level]
      exact div_le_width _ _
    rw [level_succ, ih, pairUp_take_concat f _ _ hWidth, level_succ, spine,
      pow_succ, Nat.div_div_eq_div_mul]

/- Every node of the extended tree, by position. -/
theorem getElem?_level_concat (k p : Nat) (leaves : List α) (x : α) :
    (level f k (leaves ++ [x]))[p]? =
      if p < leaves.length / 2 ^ k then
        (level f k leaves)[p]?
      else if p = leaves.length / 2 ^ k then
        some (spine f leaves x k)
      else none := by
  have hWidth : leaves.length / 2 ^ k ≤ (level f k leaves).length := by
    rw [length_level]
    exact div_le_width _ _
  have hTake : ((level f k leaves).take (leaves.length / 2 ^ k)).length =
      leaves.length / 2 ^ k := by
    rw [List.length_take, min_eq_left hWidth]
  rw [level_concat, List.getElem?_append, hTake]
  by_cases hLt : p < leaves.length / 2 ^ k
  · simp [hLt]
  · by_cases hEq : p = leaves.length / 2 ^ k
    · simp [hEq]
    · rw [if_neg hLt, if_neg hLt, if_neg hEq]
      exact List.getElem?_eq_none (by simp only [List.length_singleton]; omega)

end

-- Authentication Paths
----

variable {α : Type}

/- The side on which a sibling stands. -/
inductive Side where
  | left
  | right

/- One step of a path from a leaf towards the root. -/
def combine (f : α → α → α) (node : α) : Side × α → α
  | (.left, sibling) => f sibling node
  | (.right, sibling) => f node sibling

/- The sibling of position `p`, if it has one. -/
def sibling? (xs : List α) (p : Nat) : Option (Side × α) :=
  if p % 2 = 1 then
    xs[p - 1]?.map (Prod.mk .left)
  else
    xs[p + 1]?.map (Prod.mk .right)

/- The siblings met in the `n` levels above level `k`. -/
def authPath (f : α → α → α) (leaves : List α) (k p : Nat) : Nat → List (Side × α)
  | 0 => []
  | n + 1 => (sibling? (level f k leaves) p).toList ++ authPath f leaves (k + 1) (p / 2) n

variable (f : α → α → α)

theorem getElem?_pairUp_half (xs : List α) (p : Nat) (a : α) (hNode : xs[p]? = some a) :
    (pairUp f xs)[p / 2]? = some ((sibling? xs p).toList.foldl (combine f) a) := by
  rw [getElem?_pairUp]
  by_cases hOdd : p % 2 = 1
  · have hRight : 2 * (p / 2) + 1 = p := by omega
    have hLeft : 2 * (p / 2) = p - 1 := by omega
    rw [hRight, hLeft, hNode]
    have hBound : p < xs.length := (List.getElem?_eq_some_iff.mp hNode).1
    have hPrev : xs[p - 1]? = some xs[p - 1] := List.getElem?_eq_getElem (by omega)
    simp [sibling?, hOdd, hPrev, combine]
  · have hLeft : 2 * (p / 2) = p := by omega
    rw [hLeft, hNode]
    cases hNext : xs[p + 1]? with
    | none => simp [sibling?, hOdd, hNext]
    | some b => simp [sibling?, hOdd, hNext, combine]

theorem climb_authPath (leaves : List α) (n k p : Nat) (a : α)
    (hNode : (level f k leaves)[p]? = some a) :
    (level f (k + n) leaves)[p / 2 ^ n]? = some
      ((authPath f leaves k p n).foldl (combine f) a) := by
  induction n generalizing k p a with
  | zero => simpa [authPath] using hNode
  | succ n ih =>
    have hParent := getElem?_pairUp_half f _ _ _ hNode
    rw [← level_succ] at hParent
    have hTop := ih (k + 1) (p / 2) _ hParent
    rw [Nat.div_div_eq_div_mul, ← pow_succ'] at hTop
    rw [authPath, List.foldl_append, show k + (n + 1) = k + 1 + n by omega]
    exact hTop

theorem climb_eq_root (leaves : List α) (i : Nat) (a : α) (hLeaf : leaves[i]? = some a) :
    root f leaves = some ((authPath f leaves 0 i
      (Nat.clog 2 leaves.length)).foldl (combine f) a) := by
  have hClimb := climb_authPath f leaves (Nat.clog 2 leaves.length) 0 i a hLeaf
  have hBound : i < leaves.length := (List.getElem?_eq_some_iff.mp hLeaf).1
  have hTop : i / 2 ^ Nat.clog 2 leaves.length = 0 :=
    Nat.div_eq_of_lt (lt_of_lt_of_le hBound (Nat.le_pow_clog (by omega) _))
  rw [hTop, Nat.zero_add] at hClimb
  exact hClimb

end PromotionTree
