import AccessLayer.AutoInvest.RuleExecutions
import AccessLayer.Library.RoundTrips

/-
  Buy costs and sell payouts over sequences of trades
  (`src/utils/pricing.utils.ts`).

  Both sides charge a fee on the same curve, each rounded for
  itself.

  Main result: `payouts_le_costs`
-/

-- Quotes
----

namespace AccessLayer

namespace Utils

namespace PriceQuotes

open RoundTrips AutoInvest Creator

/-
  The quote of a trade, and the supply that it leaves.  A part of
  a key would leave a supply at which nothing can be quoted.
-/
def quote (buyFeeBps sellFeeBps : ℤ) (supply : ℚ) : Trade → Option (ℚ × ℤ)
  | .buy amount =>
    match computeBuyCost supply amount buyFeeBps with
    | .ok cost => some (supply + amount, cost)
    | .error _ => none
  | .sell amount =>
    match computeSellPayout supply amount sellFeeBps with
    | .ok payout => some (supply - amount, payout)
    | .error _ => none

/- Twice the price of all the keys below a supply, without fees. -/
def curve (supply : ℚ) : ℚ := supply * (2 * BASE_COST + STEP * (supply - 1))

theorem baseCost_eq (supply : ℤ) (amount : ℕ) :
    2 * (baseCost supply amount : ℚ) = curve (supply + amount) - curve supply := by
  induction amount with
  | zero => simp [baseCost]
  | succ amount ih =>
    unfold baseCost
    push_cast
    rw [mul_add, ih]
    unfold curve
    ring

theorem grossPayout_eq (supply : ℤ) (amount : ℕ) :
    2 * (grossPayout supply amount : ℚ) = curve supply - curve (supply - amount) := by
  induction amount with
  | zero => simp [grossPayout]
  | succ amount ih =>
    unfold grossPayout
    push_cast
    rw [mul_add, ih]
    unfold curve
    ring

variable {supply : ℤ}

theorem baseCost_nonneg (hSupply : 0 ≤ supply) (amount : ℕ) : 0 ≤ baseCost supply amount := by
  induction amount with
  | zero => exact le_refl 0
  | succ amount ih =>
    have hPrice : 0 ≤ BASE_COST + (supply + amount) * STEP := by
      unfold BASE_COST STEP
      omega
    exact add_nonneg ih hPrice

variable {amount : ℕ}

theorem grossPayout_nonneg (hSupply : amount ≤ supply) : 0 ≤ grossPayout supply amount := by
  induction amount with
  | zero => exact le_refl 0
  | succ amount ih =>
    have hPrice : 0 ≤ BASE_COST + (supply - 1 - amount) * STEP := by
      unfold BASE_COST STEP
      omega
    exact add_nonneg (ih (by omega)) hPrice

variable {buyFeeBps sellFeeBps : ℤ} {after : ℚ}

theorem curve_le_cost {cost : ℤ} {supply : ℚ} (hFee : 0 ≤ buyFeeBps)
    (hQuote : quote buyFeeBps sellFeeBps supply (.buy amount) = some (after, cost)) :
    curve after - curve supply ≤ 2 * cost := by
  unfold quote at hQuote
  dsimp only at hQuote
  split at hQuote
  · rename_i total hCost
    cases hQuote
    unfold computeBuyCost at hCost
    split at hCost
    · cases hCost
    · rename_i hNonneg
      split at hCost
      · rename_i hNone
        cases hCost
        simp [hNone]
      · split at hCost
        · rename_i hInt
          cases hCost
          have hSupply : ((supply.num : ℤ) : ℚ) = supply :=
            Rat.coe_int_num_of_den_eq_one (by simpa [Rat.isInt] using hInt)
          have hNum : 0 ≤ supply.num := Rat.num_nonneg.mpr (not_lt.mp hNonneg)
          have hBase := baseCost_nonneg hNum amount
          have hCharged : 0 ≤ (baseCost supply.num amount * buyFeeBps).tdiv
              10000 :=
            Int.tdiv_nonneg (mul_nonneg hBase hFee) (by decide)
          have hLe : baseCost supply.num amount ≤ max 0 (baseCost supply.num amount +
              (baseCost supply.num amount * buyFeeBps).tdiv 10000) :=
            le_max_of_le_right (by omega)
          have hCurve := baseCost_eq supply.num amount
          rw [hSupply] at hCurve
          rw [← hCurve]
          have hLe' : ((baseCost supply.num amount : ℤ) : ℚ) ≤ _ := Int.cast_le.mpr hLe
          linarith
        · cases hCost
  · cases hQuote

/- A sell pays at most what it moves along the curve. -/
theorem payout_le_curve {payout : ℤ} {supply : ℚ} (hFee : 0 ≤ sellFeeBps)
    (hQuote : quote buyFeeBps sellFeeBps supply (.sell amount) = some (after, payout)) :
    2 * payout ≤ curve supply - curve after := by
  unfold quote at hQuote
  dsimp only at hQuote
  split at hQuote
  · rename_i net hPayout
    cases hQuote
    have hHeld := le_supply_of_computeSellPayout hPayout
    unfold computeSellPayout at hPayout
    split at hPayout
    · cases hPayout
    · split at hPayout
      · cases hPayout
      · split at hPayout
        · rename_i hNone
          cases hPayout
          simp [hNone]
        · split at hPayout
          · rename_i hInt
            cases hPayout
            have hSupply : ((supply.num : ℤ) : ℚ) = supply :=
              Rat.coe_int_num_of_den_eq_one (by simpa [Rat.isInt] using hInt)
            have hNum : (amount : ℤ) ≤ supply.num := by
              rw [← hSupply] at hHeld
              exact_mod_cast hHeld
            have hGross := grossPayout_nonneg hNum
            have hCharged : 0 ≤ (grossPayout supply.num amount * sellFeeBps).tdiv 10000 :=
              Int.tdiv_nonneg (mul_nonneg hGross hFee) (by decide)
            have hLe : max 0 (grossPayout supply.num amount - (grossPayout supply.num amount *
                sellFeeBps).tdiv 10000) ≤ grossPayout supply.num amount :=
              max_le hGross (by omega)
            have hCurve := grossPayout_eq supply.num amount
            rw [hSupply] at hCurve
            rw [← hCurve]
            have hLe' : _ ≤ ((grossPayout supply.num amount : ℤ) : ℚ) := Int.cast_le.mpr hLe
            linarith
          · cases hPayout
  · cases hQuote

/-
  With fees that are not negative, trades that lead back to the
  supply they began at cost at least what they pay.
-/
theorem payouts_le_costs {buyFeeBps sellFeeBps : ℤ} (hBuyFee : 0 ≤ buyFeeBps)
    (hSellFee : 0 ≤ sellFeeBps) {supply : ℚ} {trades : List Trade} {account : Account ℤ}
    (hSettle : settle (quote buyFeeBps sellFeeBps) ⟨0, 0⟩ supply trades = some (supply, account)) :
    account.received ≤ account.spent := by
  let value : ℤ →+ ℚ := (AddMonoidHom.mulLeft 2).comp (Int.castAddHom ℚ)
  have hLe := @received_le_of_closed _ _ _ _ _ _ _ _ value curve 0 le_rfl (by
    intro s n t amount hQuote
    rw [add_zero]
    exact curve_le_cost hBuyFee hQuote)
    (by
      intro s n t amount hQuote
      exact payout_le_curve hSellFee hQuote)
    _ _ _ hSettle
  rw [nsmul_zero, add_zero] at hLe
  have hLe' : 2 * (account.received : ℚ) ≤ 2 * (account.spent : ℚ) := hLe
  exact_mod_cast (mul_le_mul_iff_right₀ two_pos).mp hLe'

theorem payouts_le_costs_sample :
    ∃ account, settle (quote 500 300) ⟨0, 0⟩ 4 [.buy 2, .sell 5, .sell 1, .buy 4] =
      some (4, account) ∧
      account.received ≤ account.spent := by
  have hSettle : settle (quote 500 300) ⟨0, 0⟩ 4 [.buy 2, .sell 5, .sell 1, .buy 4] =
      some (4, ⟨78750000, 72750000⟩) := by decide +kernel
  exact ⟨_, hSettle, payouts_le_costs (by decide) (by decide) hSettle⟩

/- A negative fee rate pays for every round trip. -/
theorem round_trip_pays_with_negative_fee :
    ∃ cost payout, computeBuyCost 0 1 (-100) = .ok cost ∧
      computeSellPayout 1 1 (-100) = .ok payout ∧ cost < payout :=
  ⟨9900000, 10100000, by decide, by decide, by decide⟩

end PriceQuotes

end Utils

end AccessLayer
