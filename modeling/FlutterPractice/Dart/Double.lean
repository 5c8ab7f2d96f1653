import FlutterPractice.Dart.Rounding

/-! # Dart's doubles

IEEE 754 binary64 values with their signed zeros, as exact rationals. Each
operation is its exact result, rounded once. Integer products are exact as
soon as the product itself is a double.
-/

namespace Binary.Format

variable {F : Format}

theorem represents_natCast (h0 : F.minExponent ≤ 0) {n : ℕ} (hn : n ≤ 2 ^ F.precision) :
    F.Represents n := ⟨n, 0, hn, h0, by simp⟩

/-- A represented integer is a significand times a power of two, unless it is a significand. -/
theorem Represents.nat_cases {n : ℕ} (h : F.Represents n) :
    n < 2 ^ F.precision ∨ ∃ m k : ℕ, m < 2 ^ F.precision ∧ n = m * 2 ^ k := by
  obtain ⟨m, e, hm, _, hn⟩ := h.normal
  rcases le_total e 0 with he | he
  · left
    obtain ⟨k, hk⟩ := Int.le.dest he
    have hmk : (m : ℚ) = n * 2 ^ k := by
      rw [hn, mul_assoc, ← zpow_natCast, ← zpow_add₀ two_ne_zero, hk, zpow_zero, mul_one]
    have hle : n ≤ m := by
      have : m = n * 2 ^ k := by exact_mod_cast hmk
      rw [this]
      exact Nat.le_mul_of_pos_right n (by positivity)
    exact hle.trans_lt hm
  · right
    obtain ⟨k, rfl⟩ := Int.eq_ofNat_of_zero_le he
    refine ⟨m, k, hm, ?_⟩
    rw [zpow_natCast] at hn
    exact_mod_cast hn

/-- The divisors of a represented integer are represented: their odd parts are no longer. -/
theorem Represents.of_dvd (h0 : F.minExponent ≤ 0) {a n : ℕ} (h : F.Represents n) (hn : n ≠ 0)
    (ha : a ∣ n) : F.Represents a := by
  rcases h.nat_cases with hlt | ⟨m, k, hm, rfl⟩
  · exact represents_natCast h0 ((Nat.le_of_dvd (Nat.pos_of_ne_zero hn) ha).trans hlt.le)
  · have ha0 : a ≠ 0 := fun he => hn (Nat.eq_zero_of_zero_dvd (he ▸ ha))
    obtain ⟨j, b, hb, rfl⟩ := Nat.exists_eq_two_pow_mul_odd ha0
    have hbm : b ∣ m := by
      have hdvd : b ∣ m * 2 ^ k := (Dvd.intro_left _ rfl).trans ha
      exact (Nat.Coprime.pow_right k hb.coprime_two_right).dvd_of_dvd_mul_right hdvd
    have hm0 : 0 < m := Nat.pos_of_ne_zero fun he => hn (by simp [he])
    refine ⟨b, j, (Nat.le_of_dvd hm0 hbm).trans hm.le, by omega, ?_⟩
    push_cast
    rw [zpow_natCast, mul_comm]

end Binary.Format

namespace Dart

open Binary

def binary64 : Format := ⟨53, -1074, by decide⟩

/-- The bounds of Dart's `int` on the platforms with 64-bit integers. -/
def IsInt64 (z : ℤ) : Prop := -2 ^ 63 ≤ z ∧ z < 2 ^ 63

instance (z : ℤ) : Decidable (IsInt64 z) := inferInstanceAs (Decidable (_ ∧ _))

def signedInt (negative : Bool) (n : ℕ) : ℤ := if negative then -n else n

theorem natAbs_signedInt (negative : Bool) (n : ℕ) : (signedInt negative n).natAbs = n := by
  cases negative <;> simp [signedInt]

theorem IsInt64.natAbs_lt {z : ℤ} (h : IsInt64 z) : z.natAbs < 2 ^ 64 := by
  unfold IsInt64 at h
  omega

theorem IsInt64.lt {negative : Bool} {n : ℕ} (h : IsInt64 (signedInt negative n)) : n < 2 ^ 64 :=
  natAbs_signedInt negative n ▸ h.natAbs_lt

inductive Double where
  | nan
  | infinity (negative : Bool)
  | finite (negative : Bool) (magnitude : {q : ℚ // 0 ≤ q ∧ binary64.Represents q})
  deriving DecidableEq

namespace Double

/-- The double nearest to a magnitude with a sign; too large a magnitude overflows. -/
def round (negative : Bool) (q : ℚ) (hq : 0 ≤ q) : Double :=
  if binary64.round q < 2 ^ 1024 then
    .finite negative ⟨binary64.round q, binary64.round_nonneg q, binary64.represents_round hq⟩
  else .infinity negative

def signed (negative : Bool) (q : ℚ) : ℚ := if negative then -q else q

def toRat : Double → Option ℚ
  | .finite negative q => some (signed negative q)
  | _ => none

def mul : Double → Double → Double
  | .nan, _ | _, .nan => .nan
  | .infinity s, .infinity t => .infinity (s != t)
  | .infinity s, .finite t q | .finite s q, .infinity t =>
    if q.val = 0 then .nan else .infinity (s != t)
  | .finite s p, .finite t q => round (s != t) (p * q) (mul_nonneg p.2.1 q.2.1)

theorem signed_mul (s t : Bool) (p q : ℚ) : signed (s != t) (p * q) = signed s p * signed t q := by
  cases s <;> cases t <;> simp [signed]

@[simp] theorem signed_zero (s : Bool) : signed s 0 = 0 := by cases s <;> simp [signed]

theorem signed_natCast (s : Bool) (n : ℕ) : signed s n = signedInt s n := by
  cases s <;> simp [signed, signedInt]

theorem signed_eq_zero {s : Bool} {q : ℚ} : signed s q = 0 ↔ q = 0 := by
  cases s <;> simp [signed]

theorem abs_signed (s : Bool) {q : ℚ} (hq : 0 ≤ q) : |signed s q| = q := by
  cases s <;> simp [signed, hq]

variable {s t : Bool} {q : ℚ}

theorem round_eq_finite (hq : 0 ≤ q) (hr : binary64.Represents q) (hlt : q < 2 ^ 1024) :
    round s q hq = .finite s ⟨q, hq, hr⟩ := by
  simp only [round, Format.round_eq_self hr, if_pos hlt]

theorem round_eq_finite_of_lt (hq : 0 ≤ q) (hr : binary64.Represents q) (hlt : q < 2 ^ 64) :
    round s q hq = .finite s ⟨q, hq, hr⟩ :=
  round_eq_finite hq hr (hlt.trans (pow_lt_pow_right₀ one_lt_two (by decide)))

theorem represents_of_toRat_round {v : ℚ} (hq : 0 ≤ q) (h : (round s q hq).toRat = some v) :
    binary64.Represents |v| := by
  unfold round at h
  split at h
  · obtain rfl := Option.some.inj h
    rw [abs_signed s (binary64.round_nonneg q)]
    exact binary64.represents_round hq
  · cases h

theorem represents_of_toRat_mul {d d' : Double} {v : ℚ} (h : (mul d d').toRat = some v) :
    binary64.Represents |v| := by
  cases d with
  | nan => cases h
  | infinity s =>
    cases d' with
    | nan => cases h
    | infinity t => cases h
    | finite t p => simp only [mul] at h; split at h <;> cases h
  | finite s p =>
    cases d' with
    | nan => cases h
    | infinity t => simp only [mul] at h; split at h <;> cases h
    | finite t p' => exact represents_of_toRat_round (mul_nonneg p.2.1 p'.2.1) h

theorem round_natCast_finite (s : Bool) {n : ℕ} (hn : n < 2 ^ 64) :
    ∃ p, round s n n.cast_nonneg = .finite s p ∧ p.val = binary64.round n := by
  have hlt : (n : ℚ) < 2 ^ (64 : ℤ) := by exact_mod_cast hn
  have hle := binary64.round_le_two_zpow n.cast_nonneg hlt (by decide)
  have hbound : binary64.round n < 2 ^ 1024 :=
    hle.trans_lt (by exact_mod_cast pow_lt_pow_right₀ (one_lt_two (α := ℚ)) (by decide : 64 < 1024))
  exact ⟨_, by rw [round, if_pos hbound], rfl⟩

theorem round_natCast_eq (s : Bool) {n : ℕ} (hn : n < 2 ^ 64) (hr : binary64.Represents n) :
    round s n n.cast_nonneg = .finite s ⟨n, n.cast_nonneg, hr⟩ :=
  round_eq_finite_of_lt n.cast_nonneg hr (by exact_mod_cast hn)

theorem toRat_mul_round {a b : ℕ} (ha : a < 2 ^ 64) (hb : b < 2 ^ 64)
    (hr : binary64.Represents (a * b : ℕ)) :
    (mul (round s a a.cast_nonneg) (round t b b.cast_nonneg)).toRat =
      some (signed s a * signed t b) := by
  rcases Nat.eq_zero_or_pos (a * b) with h0 | hpos
  · obtain ⟨p, hp, hpv⟩ := round_natCast_finite s ha
    obtain ⟨p', hp', hpv'⟩ := round_natCast_finite t hb
    have hz : p.val * p'.val = 0 := by
      rcases Nat.mul_eq_zero.mp h0 with rfl | rfl
      · simp [hpv, Format.round_eq_self binary64.represents_zero]
      · simp [hpv', Format.round_eq_self binary64.represents_zero]
    have hzero : signed s (a : ℚ) * signed t (b : ℚ) = 0 := by
      rw [← signed_mul, signed_eq_zero]
      exact_mod_cast h0
    rw [hp, hp', hzero]
    have hr0 : binary64.Represents (p.val * p'.val) := by
      rw [hz]
      exact binary64.represents_zero
    have hmul : mul (.finite s p) (.finite t p') =
        .finite (s != t) ⟨p.val * p'.val, mul_nonneg p.2.1 p'.2.1, hr0⟩ :=
      round_eq_finite (mul_nonneg p.2.1 p'.2.1) hr0 (by rw [hz]; positivity)
    rw [hmul]
    simp [toRat, hz]
  · have hra := hr.of_dvd (by decide) hpos.ne' (Nat.dvd_mul_right a b)
    have hrb := hr.of_dvd (by decide) hpos.ne' (Nat.dvd_mul_left b a)
    have hlt : (a : ℚ) * b < 2 ^ 1024 := by
      have : a * b < 2 ^ 64 * 2 ^ 64 := Nat.mul_lt_mul'' ha hb
      calc (a : ℚ) * b < 2 ^ 64 * 2 ^ 64 := by exact_mod_cast this
        _ = 2 ^ 128 := by norm_num
        _ ≤ 2 ^ 1024 := pow_le_pow_right₀ one_le_two (by decide)
    rw [round_natCast_eq s ha hra, round_natCast_eq t hb hrb]
    have hr' : binary64.Represents ((a : ℚ) * b) := by exact_mod_cast hr
    have hmul : mul (.finite s ⟨a, a.cast_nonneg, hra⟩) (.finite t ⟨b, b.cast_nonneg, hrb⟩) =
        .finite (s != t) ⟨(a : ℚ) * b, mul_nonneg a.cast_nonneg b.cast_nonneg, hr'⟩ :=
      round_eq_finite (mul_nonneg a.cast_nonneg b.cast_nonneg) hr' hlt
    rw [hmul, ← signed_mul]
    rfl

/-- The product of two rounded integers has the exact value just when a double can hold it. -/
theorem toRat_mul_round_iff {a b : ℕ} (ha : a < 2 ^ 64) (hb : b < 2 ^ 64) :
    (mul (round s a a.cast_nonneg) (round t b b.cast_nonneg)).toRat =
        some ((signedInt s a * signedInt t b : ℤ) : ℚ) ↔
      binary64.Represents |((signedInt s a * signedInt t b : ℤ) : ℚ)| := by
  have hvalue : ((signedInt s a * signedInt t b : ℤ) : ℚ) = signed s a * signed t b := by
    rw [signed_natCast, signed_natCast, Int.cast_mul]
  rw [hvalue]
  constructor
  · exact represents_of_toRat_mul
  · intro hr
    rw [← signed_mul, abs_signed _ (mul_nonneg a.cast_nonneg b.cast_nonneg), ← Nat.cast_mul] at hr
    exact toRat_mul_round ha hb hr

theorem eq_round_of_toRat {d : Double} {z : ℤ} (h : d.toRat = some (z : ℚ)) (hz : IsInt64 z) :
    ∃ s n, z = signedInt s n ∧ d = round s n n.cast_nonneg := by
  cases d with
  | nan => cases h
  | infinity s => cases h
  | finite s p =>
    have hp : p.val = (z.natAbs : ℚ) := by
      rw [← abs_signed s p.2.1, Option.some.inj h, Nat.cast_natAbs, Int.cast_abs]
    obtain ⟨v, hv, hr⟩ := p
    obtain rfl : v = z.natAbs := hp
    refine ⟨s, z.natAbs, ?_, (round_natCast_eq s hz.natAbs_lt hr).symm⟩
    have hsigned := Option.some.inj h
    rw [signed_natCast] at hsigned
    exact_mod_cast hsigned.symm

end Double

end Dart
