import Mathlib.Data.List.Basic

/-
  Lists grouped by a tag, and lists that are rearranged by
  exchanging neighbours.

  Each tag contributes its elements, in the order of the tags.
  Which neighbours may be exchanged is a parameter.

  `Rearranged`, `rearranged_append_comm`, `grouped_append`
-/

-- Rearrangements
----

namespace Grouped

section

variable {α : Type} {commute : α → α → Prop}

/- Neighbours are exchanged where the first may come after the second. -/
inductive Rearranged (commute : α → α → Prop) : List α → List α → Prop
  | refl (xs : List α) : Rearranged commute xs xs
  | swap (before after : List α) {a b : α} (hCommute : commute a b) :
    Rearranged commute (before ++ a :: b :: after) (before ++ b :: a :: after)
  | trans {xs ys zs : List α} (hFirst : Rearranged commute xs ys)
    (hSecond : Rearranged commute ys zs) : Rearranged commute xs zs

variable {xs ys : List α}

theorem Rearranged.append (hRearranged : Rearranged commute xs ys) (before after : List α) :
    Rearranged commute (before ++ xs ++ after) (before ++ ys ++ after) := by
  induction hRearranged with
  | refl xs => exact .refl _
  | swap inner outer hCommute =>
    simpa using Rearranged.swap (before ++ inner) (outer ++ after) hCommute
  | trans _ _ ihFirst ihSecond => exact ihFirst.trans ihSecond

/- Where nothing may be exchanged, nothing is. -/
theorem Rearranged.eq (hRearranged : Rearranged (fun _ _ : α => False) xs ys) : xs = ys := by
  induction hRearranged with
  | refl => rfl
  | swap _ _ hCommute => exact hCommute.elim
  | trans _ _ ihFirst ihSecond => exact ihFirst.trans ihSecond

theorem rearranged_cons_append {x : α} (hCommute : ∀ y ∈ ys, commute x y) :
    Rearranged commute (x :: ys) (ys ++ [x]) := by
  induction ys with
  | nil => exact .refl _
  | cons y rest ih =>
    have hRest := ih fun z hz => hCommute z (List.mem_cons_of_mem _ hz)
    have hSwap : Rearranged commute (x :: y :: rest) (y :: x :: rest) :=
      .swap [] rest (hCommute y List.mem_cons_self)
    exact hSwap.trans (by simpa using hRest.append [y] [])

/- Two blocks change places when all their elements may. -/
theorem rearranged_append_comm (hCommute : ∀ x ∈ xs, ∀ y ∈ ys, commute x y) :
    Rearranged commute (xs ++ ys) (ys ++ xs) := by
  induction xs with
  | nil => simpa using Rearranged.refl ys
  | cons x rest ih =>
    have hRest := ih fun z hz => hCommute z (List.mem_cons_of_mem _ hz)
    have hFirst := rearranged_cons_append (hCommute x List.mem_cons_self)
    have hMoved : Rearranged commute (x :: (rest ++ ys)) (x :: (ys ++ rest)) := by
      simpa using hRest.append [x] []
    exact hMoved.trans (by simpa using hFirst.append [] rest)

end

-- Grouped Lists
----

variable {ι β : Type}

/- Elements grouped by a tag. -/
def grouped (tags : List ι) (f : ι → List β) : List (ι × β) :=
  tags.flatMap fun i => (f i).map (i, ·)

theorem grouped_cons (i : ι) (tags : List ι) (f : ι → List β) :
    grouped (i :: tags) f = (f i).map (i, ·) ++ grouped tags f := rfl

variable {tags : List ι} {f g : ι → List β} {commute : ι × β → ι × β → Prop}

theorem mem_grouped_iff {x : ι × β} : x ∈ grouped tags f ↔ x.1 ∈ tags ∧ x.2 ∈ f x.1 := by
  constructor
  · intro hMem
    rcases List.mem_flatMap.mp hMem with ⟨i, hTag, hElement⟩
    rcases List.mem_map.mp hElement with ⟨_, hValue, rfl⟩
    exact ⟨hTag, hValue⟩
  · rintro ⟨hTag, hValue⟩
    exact List.mem_flatMap.mpr ⟨x.1, hTag, List.mem_map.mpr ⟨x.2, hValue, rfl⟩⟩

/-
  Grouping two families at once is grouping them one after the
  other, if each element of the second may come after those of
  the first that have a later tag.
-/
theorem grouped_append
    (hCommute : tags.Pairwise fun i j => ∀ x ∈ g i, ∀ y ∈ f j, commute (i, x) (j, y)) :
    Rearranged commute (grouped tags fun i => f i ++ g i) (grouped tags f ++ grouped tags g) := by
  induction tags with
  | nil => exact .refl _
  | cons i rest ih =>
    rcases List.pairwise_cons.mp hCommute with ⟨hFirst, hRest⟩
    have hBlocks : Rearranged commute ((g i).map (i, ·) ++ grouped rest f)
        (grouped rest f ++ (g i).map (i, ·)) := by
      apply rearranged_append_comm
      intro x hx y hy
      rcases List.mem_map.mp hx with ⟨value, hValue, rfl⟩
      rcases mem_grouped_iff.mp hy with ⟨hTag, hElement⟩
      exact hFirst y.1 hTag value hValue y.2 hElement
    have hLater := (ih hRest).append ((f i).map (i, ·) ++ (g i).map (i, ·)) []
    have hMoved := hBlocks.append ((f i).map (i, ·)) (grouped rest g)
    simp only [grouped_cons, List.map_append, List.append_assoc, List.append_nil] at hLater hMoved ⊢
    exact hLater.trans hMoved

/- A group that is alone. -/
theorem grouped_of_only [DecidableEq ι] (hNodup : tags.Nodup) {i : ι} (hTag : i ∈ tags)
    (hOnly : ∀ j ∈ tags, j ≠ i → f j = []) : grouped tags f = (f i).map (i, ·) := by
  induction tags with
  | nil => cases hTag
  | cons j rest ih =>
    rcases List.nodup_cons.mp hNodup with ⟨hFresh, hRest⟩
    rw [grouped_cons]
    by_cases hSame : j = i
    · subst hSame
      have hNone : grouped rest f = [] := by
        unfold grouped
        rw [List.flatMap_eq_nil_iff]
        intro k hk
        rw [hOnly k (List.mem_cons_of_mem _ hk) fun h => hFresh (h ▸ hk), List.map_nil]
      rw [hNone, List.append_nil]
    · rw [hOnly j List.mem_cons_self hSame, List.map_nil, List.nil_append]
      apply ih hRest ((List.mem_cons.mp hTag).resolve_left (Ne.symm hSame))
      exact fun k hk => hOnly k (List.mem_cons_of_mem _ hk)

end Grouped
