import Mathlib.Algebra.Order.Group.Defs
import Mathlib.Algebra.Order.Group.Nat
import Mathlib.Data.Rat.Floor
import Mathlib.Tactic.Abel
import Mathlib.Tactic.Linarith

/-
  Trades that move a supply along a price curve, and the
  rounding of parts of a sum.

  A price curve has a potential when every trade costs or pays
  the difference of the potential between two supplies, up to a
  tolerance.  Amounts are compared by their values.

  Main declaration: `received_le_of_closed`
-/

-- Trades
----

namespace RoundTrips

section

inductive Trade where
  | buy (quantity : ℕ)
  | sell (quantity : ℕ)

/- What the trades of a list come to. -/
structure Account (G : Type) where
  spent : G
  received : G
  deriving DecidableEq

variable {σ G : Type} [AddCommGroup G]

def Account.record (account : Account G) (amount : G) : Trade → Account G
  | .buy _ => { account with spent := account.spent + amount }
  | .sell _ => { account with received := account.received + amount }

/- Take the trades one after another.  A trade that has no price cannot be taken. -/
def settle (price : σ → Trade → Option (σ × G)) (account : Account G)
    (s : σ) : List Trade → Option (σ × Account G)
  | [] => some (s, account)
  | trade :: rest =>
    match price s trade with
    | none => none
    | some (t, amount) => settle price (account.record amount trade) t rest

variable {H : Type} [AddCommGroup H] [LinearOrder H] [IsOrderedAddMonoid H]
variable {price : σ → Trade → Option (σ × G)} {value : G →+ H} {potential : σ → H} {tolerance : H}

/- No trades gain more than the potential they use up. -/
theorem received_le_of_potential (hTolerance : 0 ≤ tolerance)
    (hBuy : ∀ s n t amount, price s (.buy n) = some (t, amount) →
      potential t - potential s ≤ value amount + tolerance)
    (hSell : ∀ s n t amount, price s (.sell n) = some (t, amount) →
      value amount ≤ potential s - potential t) {trades : List Trade}
    {account ended : Account G} {s u : σ}
    (hSettle : settle price account s trades = some (u, ended)) :
    value ended.received - value account.received ≤ value ended.spent - value account.spent +
      (potential s - potential u) + trades.length • tolerance := by
  induction trades generalizing s account with
  | nil =>
    cases hSettle
    simp
  | cons trade rest ih =>
    unfold settle at hSettle
    split at hSettle
    · cases hSettle
    · rename_i t amount hPrice
      have hRest := ih hSettle
      rw [List.length_cons, succ_nsmul]
      cases trade with
      | buy n =>
        have hCost := hBuy s n t amount hPrice
        simp only [Account.record, map_add] at hRest
        rw [← sub_nonneg] at hRest hCost ⊢
        refine (add_nonneg hRest hCost).trans_eq ?_
        abel
      | sell n =>
        have hPaid := hSell s n t amount hPrice
        simp only [Account.record, map_add] at hRest
        rw [← sub_nonneg] at hRest hPaid ⊢
        refine (add_nonneg (add_nonneg hRest hPaid) hTolerance).trans_eq ?_
        abel

/- Trades that end where they began gain only the tolerance. -/
theorem received_le_of_closed (hTolerance : 0 ≤ tolerance)
    (hBuy : ∀ s n t amount, price s (.buy n) = some (t, amount) →
      potential t - potential s ≤ value amount + tolerance)
    (hSell : ∀ s n t amount, price s (.sell n) = some (t, amount) →
      value amount ≤ potential s - potential t) {trades : List Trade} {ended : Account G}
    {s : σ} (hSettle : settle price ⟨0, 0⟩ s trades = some (s, ended)) :
    value ended.received ≤ value ended.spent + trades.length • tolerance := by
  have hLe := received_le_of_potential hTolerance hBuy hSell hSettle
  simpa using hLe

end

-- Rounding of Parts
----

/- The parts of a sum, each rounded down, lose at most one. -/
theorem floor_add_le (x y : ℚ) : ⌊x⌋ + ⌊y⌋ ≤ ⌊x + y⌋ ∧ ⌊x + y⌋ ≤ ⌊x⌋ + ⌊y⌋ + 1 := by
  have hFloor := Int.le_floor_add_floor x y
  exact ⟨Int.le_floor_add x y, by omega⟩

theorem floor_sum_le (parts : List ℚ) :
    (parts.map fun x => ⌊x⌋).sum ≤ ⌊parts.sum⌋ ∧ (parts ≠ [] → ⌊parts.sum⌋ + 1 ≤
      (parts.map fun x => ⌊x⌋).sum + parts.length) := by
  induction parts with
  | nil => simp
  | cons x rest ih =>
    rcases ih with ⟨hBelow, hAbove⟩
    rcases floor_add_le x rest.sum with ⟨hLower, hUpper⟩
    simp only [List.map_cons, List.sum_cons, List.length_cons]
    refine ⟨by omega, fun _ => ?_⟩
    by_cases hRest : rest = []
    · subst hRest
      simp
    · have := hAbove hRest
      push_cast
      omega

/- Rounding halves up adds a unit wherever half of one was left, and drops the rest. -/
theorem sum_map_round {α : Type} (exact : α → ℚ) (parts : List α) :
    (parts.map fun x => ((⌊exact x + 1 / 2⌋ : ℤ) : ℚ)).sum =
      (parts.map exact).sum - (parts.map fun x => Int.fract (exact x)).sum +
        (parts.filter fun x => 1 / 2 ≤ Int.fract (exact x)).length := by
  induction parts with
  | nil => simp
  | cons x rest ih =>
    have hSplit := Int.floor_add_fract (exact x)
    have hBounds := Int.fract_lt_one (exact x)
    simp only [List.map_cons, List.sum_cons, ih]
    by_cases hHalf : 1 / 2 ≤ Int.fract (exact x)
    · have hUp : ⌊exact x + 1 / 2⌋ = ⌊exact x⌋ + 1 := by
        rw [Int.floor_eq_iff]
        push_cast
        constructor <;> linarith
      rw [List.filter_cons_of_pos (by simpa using hHalf), List.length_cons, hUp]
      push_cast
      linarith
    · have hDown : ⌊exact x + 1 / 2⌋ = ⌊exact x⌋ := by
        rw [Int.floor_eq_iff]
        constructor <;> linarith [Int.fract_nonneg (exact x)]
      rw [List.filter_cons_of_neg (by simpa using hHalf), hDown]
      linarith

end RoundTrips
