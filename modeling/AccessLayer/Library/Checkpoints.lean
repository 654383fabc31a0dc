import Mathlib.Data.List.Basic
import Mathlib.Data.List.Nodup

/-
  Groups of elements that are handled one after another.

  A handler may fail at any element, and nothing is handled after
  that.  A group whose elements have all been handled is complete.

  Main declaration: `mem_completed_iff`
-/

-- Handled Groups
----

namespace Checkpoints

variable {α κ : Type}

/- What has been handled, and whether nothing has failed. -/
def handleAll (fails : α → Bool) : List α → List α × Bool
  | [] => ([], true)
  | x :: rest =>
    if fails x then ([], false)
    else (x :: (handleAll fails rest).1, (handleAll fails rest).2)

/- How far the handling of groups has come. -/
structure Progress (α κ : Type) where
  handled : List α
  completed : List κ

def handleGroups (fails : α → Bool) (group : κ → List α) : List κ → Progress α κ
  | [] => { handled := [], completed := [] }
  | k :: rest =>
    match handleAll fails (group k) with
    | (handled, false) => { handled, completed := [] }
    | (handled, true) =>
      let later := handleGroups fails group rest
      { handled := handled ++ later.handled
        completed := k :: later.completed }

variable {fails : α → Bool} {group : κ → List α}

theorem handleAll_cases (xs : List α) :
    handleAll fails xs = (xs, true) ∨ ∃ before x after, xs = before ++ x :: after ∧ fails x = true ∧
      (∀ y ∈ before, fails y = false) ∧
      handleAll fails xs = (before, false) := by
  induction xs with
  | nil => exact Or.inl rfl
  | cons x rest ih =>
    rw [handleAll]
    by_cases hFails : fails x = true
    · rw [if_pos hFails]
      exact Or.inr ⟨[], x, rest, rfl, hFails, by simp, rfl⟩
    · rw [if_neg hFails]
      rcases ih with hAll | ⟨before, y, after, hSplit, hFailsY, hOk, hSome⟩
      · rw [hAll]
        exact Or.inl rfl
      · rw [hSome]
        refine Or.inr ⟨x :: before, y, after, by rw [hSplit]; rfl, hFailsY, ?_, rfl⟩
        intro z hMem
        rcases List.mem_cons.mp hMem with rfl | hBefore
        · simpa using hFails
        · exact hOk z hBefore

theorem handleGroups_cons (k : κ) (rest : List κ) :
    handleAll fails (group k) = (group k, true) ∧ handleGroups fails group (k :: rest) =
      { handled :=
          group k ++ (handleGroups fails group rest).handled
        completed := k :: (handleGroups fails group rest).completed } ∨
      ∃ before x after, group k = before ++ x :: after ∧ fails x = true ∧
        (∀ y ∈ before, fails y = false) ∧ handleGroups fails group (k :: rest) =
          { handled := before, completed := [] } := by
  rcases @handleAll_cases _ fails (group k) with
    hAll | ⟨before, x, after, hSplit, hFails, hOk, hSome⟩
  · refine Or.inl ⟨hAll, ?_⟩
    rw [handleGroups, hAll]
  · refine Or.inr ⟨before, x, after, hSplit, hFails, hOk, ?_⟩
    rw [handleGroups, hSome]

theorem isPrefix_completed (ks : List κ) : (handleGroups fails group ks).completed <+: ks := by
  induction ks with
  | nil => exact List.prefix_refl []
  | cons k rest ih =>
    rcases @handleGroups_cons _ _ fails group k rest with
      ⟨-, hRun⟩ | ⟨before, x, after, -, -, -, hRun⟩
    · rw [hRun]
      exact List.prefix_cons_inj k |>.mpr ih
    · rw [hRun]
      exact List.nil_prefix

theorem handled_sublist (ks : List κ) :
    (handleGroups fails group ks).handled.Sublist (ks.flatMap group) := by
  induction ks with
  | nil => exact List.Sublist.refl []
  | cons k rest ih =>
    rw [List.flatMap_cons]
    rcases @handleGroups_cons _ _ fails group k rest with
      ⟨-, hRun⟩ | ⟨before, x, after, hSplit, -, -, hRun⟩
    · rw [hRun]
      exact (List.Sublist.refl _).append ih
    · rw [hRun, hSplit, List.append_assoc]
      exact List.sublist_append_left _ _

theorem handled_of_no_failure (hNone : ∀ x, fails x = false) (ks : List κ) :
    (handleGroups fails group ks).handled = ks.flatMap group := by
  induction ks with
  | nil => rfl
  | cons k rest ih =>
    rcases @handleGroups_cons _ _ fails group k rest with
      ⟨-, hRun⟩ | ⟨before, x, after, -, hFails, -, -⟩
    · rw [hRun, List.flatMap_cons, ← ih]
    · rw [hNone x] at hFails
      cases hFails

/- A group is complete if and only if all of its elements have been handled. -/
theorem mem_completed_iff {tag : α → Option κ} {ks : List κ}
    (hTag : ∀ k, ∀ x ∈ group k, tag x = some k) (hSome : ∀ k ∈ ks, group k ≠ []) (hNodup : ks.Nodup)
    {k : κ} :
    k ∈ (handleGroups fails group ks).completed ↔ k ∈ ks ∧ ∀ x ∈ group k,
      x ∈ (handleGroups fails group ks).handled := by
  induction ks with
  | nil => simp [handleGroups]
  | cons first rest ih =>
    have hRest := ih (fun k hk => hSome k (List.mem_cons_of_mem _ hk)) (List.nodup_cons.mp hNodup).2
    -- the elements of a group are in no other one
    have hApart : ∀ j, j ≠ first → ∀ x ∈ group j, x ∉ group first := by
      intro j hj x hx hFirst
      have hSame := (hTag j x hx).symm.trans (hTag first x hFirst)
      exact hj (Option.some.inj hSame)
    rcases @handleGroups_cons _ _ fails group first rest with
      ⟨-, hRun⟩ | ⟨before, y, after, hSplit, hFails, hOk, hRun⟩
    · rw [hRun]
      simp only [List.mem_cons, List.mem_append]
      by_cases hSame : k = first
      · subst hSame
        simp +contextual
      · simp only [hSame, false_or]
        rw [hRest]
        refine and_congr_right fun _ => ?_
        refine forall₂_congr fun x hx => ?_
        simp [hApart k hSame x hx]
    · rw [hRun]
      simp only [List.not_mem_nil, false_iff, not_and]
      intro hMem hHandled
      by_cases hSame : k = first
      · subst hSame
        have hIn : y ∈ before := by
          apply hHandled
          rw [hSplit]
          simp
        rw [hOk y hIn] at hFails
        cases hFails
      · rcases List.exists_mem_of_ne_nil _ (hSome k hMem) with ⟨x, hx⟩
        apply hApart k hSame x hx
        rw [hSplit]
        exact List.mem_append_left _ (hHandled x hx)

end Checkpoints
