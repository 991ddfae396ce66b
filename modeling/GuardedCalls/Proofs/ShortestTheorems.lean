/-
GuardedCalls.Proofs.ShortestTheorems — how long the shortest decimal of a double
can get.

The shortest decimal is searched on grids of one more digit each, up to
seventeen, and the trailing zeros of what is found go into its exponent.

* `lt_leadingPower` — the power of ten of the first digit is not taken too small.
* `of_gridPoint?` — a grid point that is found lies in the interval, next to the middle.
* `compact_shortest` — so the decimal has seventeen digits, or zeros behind them.
-/
import GuardedCalls.Binary64.Shortest
import Mathlib.Algebra.Order.Field.Power
import Mathlib.Data.Rat.Cast.Order
import Mathlib.Tactic.Positivity
import Mathlib.Tactic.Ring

namespace GuardedCalls.Binary64

/-! ## Powers of ten -/

section Powers

theorem tenTo_pos (e : ℤ) : 0 < tenTo e := Nat.pow_pos (by decide)

/-- The two natural powers of ten of an exponent make up the rational one. -/
theorem tenTo_eq (e : ℤ) : (tenTo e : ℚ) = 10 ^ e * tenTo (-e) := by
  unfold tenTo
  push_cast
  rw [← zpow_natCast, ← zpow_natCast, ← zpow_add₀ (by norm_num)]
  congr 1
  omega

theorem lt_pow_length (n : ℕ) : n < 10 ^ (Nat.toDigits 10 n).length :=
  (Nat.length_toDigits_le_iff (by decide) Nat.length_toDigits_pos).1 (Nat.le_refl _)

theorem pow_length_le {n : ℕ} (positive : 0 < n) : 10 ^ ((Nat.toDigits 10 n).length - 1) ≤ n := by
  by_contra less
  have some : 0 < (Nat.toDigits 10 n).length - 1 := by
    by_contra none
    rw [Nat.eq_zero_of_not_pos none] at less
    omega
  have shorter := (Nat.length_toDigits_le_iff (by decide) some).2 (Nat.lt_of_not_le less)
  omega

/-- A ratio is less than the power of ten after that of its first digit. -/
theorem lt_leadingPower (num : ℕ) {den : ℕ} (positive : 0 < den) :
    (num : ℚ) < den * 10 ^ (leadingPower num den + 1) := by
  unfold leadingPower
  extract_lets guess
  split
  · have power : (10 : ℚ) ^ (Nat.toDigits 10 num).length =
        10 ^ ((Nat.toDigits 10 den).length - 1) * 10 ^ (guess + 1) := by
      rw [← zpow_natCast, ← zpow_natCast, ← zpow_add₀ (by norm_num)]
      have := Nat.length_toDigits_pos (b := 10) (n := den)
      congr 1
      omega
    calc (num : ℚ) < 10 ^ (Nat.toDigits 10 num).length := by exact_mod_cast lt_pow_length num
      _ = 10 ^ ((Nat.toDigits 10 den).length - 1) * 10 ^ (guess + 1) := power
      _ ≤ den * 10 ^ (guess + 1) := by
        gcongr
        exact_mod_cast pow_length_le positive
  · next less =>
    have less : (num : ℚ) * tenTo (-guess) < den * tenTo guess := by
      exact_mod_cast Nat.lt_of_not_le less
    rw [tenTo_eq guess, ← mul_assoc] at less
    rw [Int.sub_add_cancel]
    exact lt_of_mul_lt_mul_right less (Nat.cast_nonneg _)

end Powers

/-! ## Grids -/

section Grids

variable {i : Interval} {e leading : ℤ} {d count fuel : ℕ}

/-- A grid point that is found lies in the interval, and at most one above its middle. -/
theorem of_gridPoint? (found : i.gridPoint? e = some d) :
    i.holds (d * tenTo e) (tenTo (-e)) = true ∧ d ≤ i.mid * tenTo (-e) / (i.den * tenTo e) + 1 := by
  unfold Interval.gridPoint? at found
  extract_lets num den below inside rest lower at found
  split at found
  · next first second =>
    split at found <;> obtain rfl := Option.some.inj found
    · exact ⟨first, Nat.le_succ _⟩
    · exact ⟨second, Nat.le_refl _⟩
  · next first _ =>
    obtain rfl := Option.some.inj found
    exact ⟨first, Nat.le_succ _⟩
  · next _ second =>
    obtain rfl := Option.some.inj found
    exact ⟨second, Nat.le_refl _⟩
  · cases found

/-- Zero lies in no interval of a positive double. -/
theorem pos_of_holds {num den : ℕ} (low : 0 < i.low) (positive : 0 < den)
    (holds : i.holds num den = true) : 0 < num := by
  have least : 0 < i.low * den := Nat.mul_pos low positive
  unfold Interval.holds at holds
  refine Nat.pos_of_ne_zero ?_
  rintro rfl
  simp only [Nat.zero_mul] at holds
  split at holds <;> simp only [Bool.and_eq_true, decide_eq_true_eq] at holds <;> omega

/-- A decimal number of few digits or many zeros behind them, and of no great power of ten
if it is zero. -/
structure Decimal.Compact (d : Decimal) : Prop where
  few : d.digits ≤ 10 ^ 17 ∨ 18 ≤ d.exponent
  zero : d.digits = 0 → 0 ≤ d.exponent ∧ d.exponent ≤ 18

/-- A grid of so many digits has a point of so many digits. -/
theorem digits_le (positive : 0 < i.den) (top : (i.mid : ℚ) < i.den * 10 ^ (e + count))
    (found : i.gridPoint? e = some d) : d ≤ 10 ^ count := by
  have less : i.mid * tenTo (-e) < 10 ^ count * (i.den * tenTo e) := by
    have scaled : (i.mid : ℚ) * tenTo (-e) < i.den * 10 ^ (e + count) * tenTo (-e) :=
      mul_lt_mul_of_pos_right top (by exact_mod_cast tenTo_pos (-e))
    have power : (i.den : ℚ) * 10 ^ (e + count) * tenTo (-e) = 10 ^ count * (i.den * tenTo e) := by
      rw [tenTo_eq e, zpow_add₀ (by norm_num), zpow_natCast]
      ring
    rw [power] at scaled
    exact_mod_cast scaled
  have quotient := (Nat.div_lt_iff_lt_mul (Nat.mul_pos positive (tenTo_pos e))).2 less
  have near := (of_gridPoint? found).2
  omega

theorem compact_searchGrids (positive : 0 < i.den) (low : 0 < i.low)
    (top : (i.mid : ℚ) < i.den * 10 ^ (leading + 1)) (tries : fuel + count = 18) :
    (searchGrids i leading fuel count).Compact := by
  induction fuel generalizing count with
  | zero =>
    -- Seventeen digits are always enough, but that is not needed: whatever the search falls
    -- back to has eighteen zeros behind it.
    obtain rfl : count = 18 := by omega
    have exponent : (searchGrids i leading 0 18).exponent = 18 := rfl
    exact ⟨.inr (by omega), fun _ => by omega⟩
  | succ fuel ih =>
    unfold searchGrids
    extract_lets exponent
    split
    · next d found =>
      refine ⟨.inl ?_, fun none => ?_⟩
      · have top' : (i.mid : ℚ) < i.den * 10 ^ (exponent + count) := by rwa [Int.sub_add_cancel]
        exact Nat.le_trans (digits_le positive top' found)
          (Nat.pow_le_pow_right (by decide) (by omega))
      · have inside := pos_of_holds low (tenTo_pos _) (of_gridPoint? found).1
        simp only [show d = 0 from none, Nat.zero_mul] at inside
        omega
    · exact ih (by omega)

theorem Decimal.Compact.strip {d : Decimal} (h : d.Compact) (fuel : ℕ) :
    (d.strip fuel).Compact := by
  induction fuel generalizing d with
  | zero => exact h
  | succ fuel ih =>
    unfold Decimal.strip
    split
    · next ends =>
      refine ih ⟨?_, fun none => ?_⟩
      · have := h.few
        simp only
        omega
      · simp only at none
        omega
    · exact h

/-- The digits of a double are compact. -/
theorem compact_shortest (x : Binary64) : x.shortest.Compact := by
  unfold shortest
  split
  · exact ⟨.inl (Nat.zero_le _), fun _ => by decide⟩
  · next some =>
    have positive : ∀ e, 0 < pow2 e := fun e => Nat.pow_pos (by decide)
    have low : 0 < x.interval.low := by
      unfold interval
      refine Nat.mul_pos ?_ (positive _)
      split <;> omega
    exact (compact_searchGrids (positive _) low (lt_leadingPower _ (positive _))
      (by decide)).strip 17

end Grids

end GuardedCalls.Binary64
