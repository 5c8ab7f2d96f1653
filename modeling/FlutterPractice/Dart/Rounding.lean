import Mathlib

/-! # Rounding to a binary floating-point format

A format has a precision and a least exponent for the unit in the last place.
Rounding is to nearest with ties to even, on exact nonnegative rationals and
without an upper bound: overflow is left to the format's user.
-/

namespace Binary

/-- The nearest natural number, ties to even. -/
def roundHalfEven (q : ℚ) : ℕ :=
  if q - ⌊q⌋₊ < 1 / 2 ∨ q - ⌊q⌋₊ = 1 / 2 ∧ ⌊q⌋₊ % 2 = 0 then ⌊q⌋₊ else ⌊q⌋₊ + 1

@[simp] theorem roundHalfEven_natCast (n : ℕ) : roundHalfEven n = n := by
  simp [roundHalfEven]

theorem roundHalfEven_le {q : ℚ} (hq : 0 ≤ q) {n : ℕ} (h : q ≤ n) : roundHalfEven q ≤ n := by
  have hf : ⌊q⌋₊ ≤ n := Nat.floor_le_of_le h
  unfold roundHalfEven
  split
  · exact hf
  · rename_i hd
    rcases hf.lt_or_eq with hlt | he
    · exact hlt
    · -- The floor reaches the bound only at the bound itself, where nothing is left to round.
      have hle := Nat.floor_le hq
      rw [he] at hle hd
      have hqn : q = n := le_antisymm h hle
      simp [hqn] at hd

structure Format where
  precision : ℕ
  minExponent : ℤ
  precision_pos : 0 < precision

namespace Format

variable (F : Format) {q : ℚ}

/-- A magnitude with at most `precision` significant bits above the least exponent. -/
def Represents (q : ℚ) : Prop :=
  ∃ (m : ℕ) (e : ℤ), m ≤ 2 ^ F.precision ∧ F.minExponent ≤ e ∧ q = m * 2 ^ e

/-- The exponent of the unit in the last place at the magnitude of `q`. -/
def ulpExponent (q : ℚ) : ℤ := max (Int.log 2 q - F.precision + 1) F.minExponent

def round (q : ℚ) : ℚ := roundHalfEven (q / 2 ^ F.ulpExponent q) * 2 ^ F.ulpExponent q

theorem round_nonneg (q : ℚ) : 0 ≤ F.round q := by
  unfold round
  positivity

theorem represents_zero : F.Represents 0 := ⟨0, F.minExponent, by simp, le_rfl, by simp⟩

theorem Represents.normal {F : Format} (h : F.Represents q) :
    ∃ (m : ℕ) (e : ℤ), m < 2 ^ F.precision ∧ F.minExponent ≤ e ∧ q = m * 2 ^ e := by
  obtain ⟨m, e, hm, he, rfl⟩ := h
  rcases hm.lt_or_eq with hlt | rfl
  · exact ⟨m, e, hlt, he, rfl⟩
  · refine ⟨1, F.precision + e, Nat.one_lt_two_pow F.precision_pos.ne', by omega, ?_⟩
    rw [zpow_add₀ two_ne_zero]
    simp

theorem ulpExponent_le {m : ℕ} {e : ℤ} (hm : m < 2 ^ F.precision) (he : F.minExponent ≤ e)
    (hq : 0 < (m : ℚ) * 2 ^ e) : F.ulpExponent (m * 2 ^ e) ≤ e := by
  have hlt : (m : ℚ) * 2 ^ e < ((2 : ℕ) : ℚ) ^ ((F.precision : ℤ) + e) := by
    rw [Nat.cast_two, zpow_add₀ two_ne_zero, zpow_natCast]
    have hm' : (m : ℚ) < 2 ^ F.precision := by exact_mod_cast hm
    exact mul_lt_mul_of_pos_right hm' (by positivity)
  have hlog := (Int.lt_zpow_iff_log_lt one_lt_two hq).mp hlt
  exact max_le (by omega) he

theorem round_eq_self {F : Format} (h : F.Represents q) : F.round q = q := by
  obtain ⟨m, e, hm, he, rfl⟩ := h.normal
  rcases Nat.eq_zero_or_pos m with rfl | hpos
  · simp [round, roundHalfEven]
  · have hq : 0 < (m : ℚ) * 2 ^ e := by positivity
    have hu := F.ulpExponent_le hm he hq
    obtain ⟨k, hk⟩ := Int.le.dest hu
    have hdiv : (m : ℚ) * 2 ^ e / 2 ^ F.ulpExponent (m * 2 ^ e) = ((m * 2 ^ k : ℕ) : ℚ) := by
      rw [div_eq_iff (by positivity)]
      conv_lhs => rw [← hk, zpow_add₀ two_ne_zero]
      push_cast
      rw [zpow_natCast]
      ring
    rw [round, hdiv, roundHalfEven_natCast, ← hdiv, div_mul_cancel₀]
    positivity

/-- The significand of a rounding fits the precision. -/
theorem roundHalfEven_ulp_le (hq : 0 ≤ q) :
    roundHalfEven (q / 2 ^ F.ulpExponent q) ≤ 2 ^ F.precision := by
  apply roundHalfEven_le (by positivity)
  rw [div_le_iff₀ (by positivity)]
  have hlt := Int.lt_zpow_succ_log_self one_lt_two (b := 2) q
  have hexp : Int.log 2 q + 1 ≤ F.precision + F.ulpExponent q := by
    have := le_max_left (Int.log 2 q - F.precision + 1) F.minExponent
    unfold ulpExponent
    omega
  have hle : ((2 : ℕ) : ℚ) ^ (Int.log 2 q + 1) ≤ 2 ^ ((F.precision : ℤ) + F.ulpExponent q) := by
    rw [Nat.cast_two]
    exact zpow_le_zpow_right₀ one_le_two hexp
  rw [zpow_add₀ two_ne_zero, zpow_natCast] at hle
  push_cast
  exact (hlt.trans_le hle).le

theorem represents_round (hq : 0 ≤ q) : F.Represents (F.round q) :=
  ⟨_, F.ulpExponent q, F.roundHalfEven_ulp_le hq, le_max_right .., rfl⟩

theorem round_le_two_zpow (hq : 0 ≤ q) {k : ℤ} (h : q < 2 ^ k)
    (hk : F.precision + F.minExponent ≤ k) : F.round q ≤ 2 ^ k := by
  rcases hq.eq_or_lt with rfl | hpos
  · rw [round_eq_self F.represents_zero]
    positivity
  · have hlog : Int.log 2 q < k :=
      (Int.lt_zpow_iff_log_lt one_lt_two hpos).mp (by rwa [Nat.cast_two])
    have hu : (F.precision : ℤ) + F.ulpExponent q ≤ k := by
      unfold ulpExponent
      omega
    have hm : (roundHalfEven (q / 2 ^ F.ulpExponent q) : ℚ) ≤ 2 ^ F.precision := by
      exact_mod_cast F.roundHalfEven_ulp_le hq
    calc F.round q
        ≤ 2 ^ F.precision * 2 ^ F.ulpExponent q :=
          mul_le_mul_of_nonneg_right hm (by positivity)
      _ = 2 ^ ((F.precision : ℤ) + F.ulpExponent q) := by
          rw [zpow_add₀ two_ne_zero, zpow_natCast]
      _ ≤ 2 ^ k := zpow_le_zpow_right₀ one_le_two hu

end Format

end Binary
