import XpxChain.LiquidityProvider.Rates

/-! Bounds of the search that slashing ends in. -/

namespace XpxChain.LiquidityProvider

open Std Accounts Library Exceptions

lemma sqrtLoop_pos {value : ℕ} (hv : 1 ≤ value) (fuel left right : ℕ) (hf : right ≤ left + fuel + 1)
    (h : 1 ≤ left ∨ 1 < right) : 1 ≤ sqrtLoop value fuel left right := by
  induction fuel generalizing left right with
  | zero =>
    unfold sqrtLoop
    omega
  | succ fuel ih =>
    unfold sqrtLoop
    by_cases hw : left + 1 < right
    · rw [if_pos hw]
      by_cases hm : (left + right) / 2 * ((left + right) / 2) ≤ value
      · simp only [hm, if_true]
        apply ih <;> omega
      · simp only [hm, if_false]
        -- The middle is 1 only if its square is at most the value.
        have hne : (left + right) / 2 ≠ 1 := by
          intro h1
          rw [h1] at hm
          omega
        apply ih <;> omega
    · rw [if_neg hw]
      omega

lemma sqrt_pos {value : ℕ} (hv : 1 ≤ value) : 1 ≤ sqrt value := by
  apply sqrtLoop_pos hv
  · omega
  · right
    omega

lemma middle_lt {left right leftSqrt rightSqrt : ℕ} (h : left < right) (hs : 1 ≤ rightSqrt) :
    (right * leftSqrt + left * rightSqrt) / (leftSqrt + rightSqrt) < right := by
  rw [Nat.div_lt_iff_lt_mul (by omega)]
  calc right * leftSqrt + left * rightSqrt < right * leftSqrt + right * rightSqrt := by gcongr
    _ = right * (leftSqrt + rightSqrt) := by ring

theorem slashingSearch_bounds {randomMoves : ℕ → Bool} {currency result : ℕ} (steps i left right : ℕ)
    (hl : left ≤ currency) (hr : right ≤ currency + 1)
    (h : slashingSearch randomMoves steps i left right = .ok result) : left ≤ result ∧ result ≤ currency := by
  induction steps generalizing i left right with
  | zero =>
    cases h
    exact ⟨le_rfl, hl⟩
  | succ steps ih =>
    unfold slashingSearch at h
    by_cases hw : left + 1 < right
    · rw [if_pos hw] at h
      obtain ⟨q, hq, h⟩ := bind_eq_ok.mp h
      obtain ⟨-, rfl⟩ := floorDivision_eq_ok hq
      have hlt : (right * sqrt left + left * sqrt right) / (sqrt left + sqrt right) < right :=
        middle_lt (by omega) (sqrt_pos (by omega))
      have hmi :=
        (Nat.mod_le ((right * sqrt left + left * sqrt right) / (sqrt left + sqrt right)) (2 ^ 64)).trans_lt hlt
      set m := max ((right * sqrt left + left * sqrt right) / (sqrt left + sqrt right) % 2 ^ 64) left with hm
      have hml : left ≤ m := le_max_right _ _
      have hmr : m ≤ currency := max_le (by omega) hl
      by_cases hmo : randomMoves i
      · rw [if_pos hmo] at h
        exact ih _ _ _ hl (by omega) h
      · rw [if_neg hmo] at h
        obtain ⟨h₁, h₂⟩ := ih _ _ _ hmr hr h
        exact ⟨hml.trans h₁, h₂⟩
    · rw [if_neg hw] at h
      cases h
      exact ⟨le_rfl, hl⟩

theorem slashedCurrency_bounds {randomMoves : Height → MosaicId → ℕ → Bool} {height : Height} {mosaicId : MosaicId}
    {best current : ExchangeRate} {left : ℕ} (hcur : 0 < current.currencyAmount) (hlt : current.currencyAmount < 2 ^ 64)
    (hle : best.isLess current)
    (hk : best.mosaicAmount ^ 2 * current.currencyAmount ≤ best.currencyAmount ^ 2 * current.mosaicAmount ^ 2)
    (h : Market.slashedCurrency randomMoves height mosaicId best current = .ok left) :
    1 ≤ left ∧ left ≤ current.currencyAmount := by
  obtain ⟨q, hq, h⟩ := bind_eq_ok.mp h
  obtain ⟨hpos, rfl⟩ := floorDivision_eq_ok hq
  simp only [ExchangeRate.isLess, decide_eq_true_eq] at hle
  set numerator := best.currencyAmount * best.currencyAmount * current.mosaicAmount * current.mosaicAmount with hn
  set denominator := best.mosaicAmount * best.mosaicAmount * current.currencyAmount with hd
  have hu : numerator / denominator ≤ current.currencyAmount := by
    apply Nat.div_le_of_le_mul
    calc numerator = best.currencyAmount * current.mosaicAmount * (best.currencyAmount * current.mosaicAmount) := by
          rw [hn]; ring
      _ ≤ current.currencyAmount * best.mosaicAmount * (current.currencyAmount * best.mosaicAmount) := by gcongr
      _ = denominator * current.currencyAmount := by rw [hd]; ring
  have hl : 1 ≤ numerator / denominator := by
    rw [Nat.one_le_div_iff hpos]
    calc denominator = best.mosaicAmount ^ 2 * current.currencyAmount := by rw [hd]; ring
      _ ≤ best.currencyAmount ^ 2 * current.mosaicAmount ^ 2 := hk
      _ = numerator := by rw [hn]; ring
  rw [Nat.mod_eq_of_lt (by omega)] at h
  have hr : addAmount current.currencyAmount 1 ≤ current.currencyAmount + 1 := Nat.mod_le _ _
  obtain ⟨h₁, h₂⟩ := slashingSearch_bounds _ _ _ _ hu hr h
  exact ⟨hl.trans h₁, h₂⟩

end XpxChain.LiquidityProvider
