import Mathlib.Algebra.Order.Ring.Int

/-
  Chains in which each hash commits to the hash before it.

  Two chains that agree at one height agree at every height
  below it, so they part once and for all.

  Main declaration: `Branch.apart_above`
-/

-- Branches
----

namespace HashChains

variable {H : Type} {parent : H → Option H} {first : ℤ}

/- The hashes of a chain, from its first height on. -/
structure Branch (parent : H → Option H) (first : ℤ) where
  hash : ℤ → H
  linked : ∀ n, first ≤ n → parent (hash (n + 1)) = some (hash n)

variable {a b : Branch parent first} {n : ℤ}

theorem Branch.agree_step (hFirst : first ≤ n) (hAgree : a.hash (n + 1) = b.hash (n + 1)) :
    a.hash n = b.hash n := by
  have hLeft := a.linked n hFirst
  rw [hAgree, b.linked n hFirst] at hLeft
  exact (Option.some.inj hLeft).symm

variable {m : ℤ}

theorem Branch.agree_below (hFirst : first ≤ m) (hLe : m ≤ n) (hAgree : a.hash n = b.hash n) :
    a.hash m = b.hash m := by
  induction n, hLe using Int.leInduction with
  | base => exact hAgree
  | succ k hk ih => exact ih (agree_step (hFirst.trans hk) hAgree)

/- Chains that have parted do not meet again. -/
theorem Branch.apart_above (hFirst : first ≤ m) (hLe : m ≤ n) (hApart : a.hash m ≠ b.hash m) :
    a.hash n ≠ b.hash n := by
  intro hAgree
  exact hApart (agree_below hFirst hLe hAgree)

end HashChains
