import FlutterPractice.Dart.Double

/-! # Sums of doubles

A sum is added up from the left, and every addition rounds. Over a grid whose
points up to the sum of the magnitudes are all represented, nothing is rounded.
Elsewhere each addition may add an error of half a unit in the last place, and
the errors compound.
-/

namespace Binary

theorem abs_roundHalfEven_sub_le {q : ℚ} (hq : 0 ≤ q) : |(roundHalfEven q : ℚ) - q| ≤ 1 / 2 := by
  have hfloor := Nat.floor_le hq
  have hlt := Nat.lt_floor_add_one q
  rw [abs_le]
  unfold roundHalfEven
  split
  · rename_i h
    have hdiff : q - ⌊q⌋₊ ≤ 1 / 2 := by
      rcases h with h | h
      · exact h.le
      · exact h.1.le
    constructor <;> linarith
  · rename_i h
    have hdiff : 1 / 2 ≤ q - ⌊q⌋₊ := not_lt.mp fun hlt => h (.inl hlt)
    push_cast
    constructor <;> linarith

namespace Format

variable {F : Format} {q : ℚ}

theorem Represents.exists_nat (h : F.Represents q) : ∃ m : ℕ, q = m * 2 ^ F.minExponent := by
  obtain ⟨m, e, -, he, rfl⟩ := h
  obtain ⟨k, rfl⟩ := Int.le.dest he
  refine ⟨m * 2 ^ k, ?_⟩
  rw [zpow_add₀ two_ne_zero, zpow_natCast]
  push_cast
  ring

theorem represents_zsmul {z e : ℤ} (hz : z.natAbs ≤ 2 ^ F.precision) (he : F.minExponent ≤ e) :
    F.Represents |(z : ℚ) * 2 ^ e| := by
  refine ⟨z.natAbs, e, hz, he, ?_⟩
  rw [abs_mul, abs_of_pos (a := (2 : ℚ) ^ e) (by positivity), Nat.cast_natAbs, Int.cast_abs]

/-- The relative error of rounding a point of the finest grid. -/
theorem abs_round_sub_le {m : ℕ} (hq : q = m * 2 ^ F.minExponent) :
    |F.round q - q| ≤ q / 2 ^ F.precision := by
  have hq0 : 0 ≤ q := by rw [hq]; positivity
  rcases Nat.lt_or_ge (2 ^ F.precision) m with hlt | hle
  · have hm : (0 : ℚ) < m := by exact_mod_cast (Nat.zero_le _).trans_lt hlt
    have hpos : 0 < q := by rw [hq]; positivity
    -- Such a magnitude is normal: its unit in the last place is relative to it.
    have hlow : ((2 : ℕ) : ℚ) ^ (F.precision + F.minExponent) ≤ q := by
      rw [hq, Nat.cast_two, zpow_add₀ two_ne_zero, zpow_natCast]
      have : (2 : ℚ) ^ F.precision ≤ m := by exact_mod_cast hlt.le
      gcongr
    have hlog : F.precision + F.minExponent ≤ Int.log 2 q :=
      (Int.zpow_le_iff_le_log one_lt_two hpos).mp hlow
    have hulp : F.ulpExponent q = Int.log 2 q - F.precision + 1 := by
      rw [ulpExponent]
      exact max_eq_left (by omega)
    have hround := abs_roundHalfEven_sub_le (q := q / 2 ^ F.ulpExponent q) (by positivity)
    have hlogq : (2 : ℚ) ^ Int.log 2 q ≤ q := by
      have := Int.zpow_log_le_self one_lt_two (b := 2) hpos
      rwa [Nat.cast_two] at this
    calc |F.round q - q|
        = |(roundHalfEven (q / 2 ^ F.ulpExponent q) : ℚ) - q / 2 ^ F.ulpExponent q| *
            2 ^ F.ulpExponent q := by
          rw [round, ← abs_of_pos (a := (2 : ℚ) ^ F.ulpExponent q) (by positivity), ← abs_mul,
            abs_of_pos (a := (2 : ℚ) ^ F.ulpExponent q) (by positivity), sub_mul,
            div_mul_cancel₀ q (by positivity)]
      _ ≤ 1 / 2 * 2 ^ F.ulpExponent q := by gcongr
      _ = 2 ^ Int.log 2 q / 2 ^ F.precision := by
          rw [hulp, zpow_add₀ two_ne_zero, zpow_sub₀ two_ne_zero, zpow_natCast, zpow_one]
          ring
      _ ≤ q / 2 ^ F.precision := by gcongr
  · rw [round_eq_self ⟨m, F.minExponent, hle, le_rfl, hq⟩, sub_self, abs_zero]
    positivity

end Format

end Binary

namespace Dart

open Binary

namespace Double

def zero : Double := .finite false ⟨0, le_rfl, binary64.represents_zero⟩

/-- An exact sum of zero has the sign of its terms if they agree, and is positive otherwise. -/
def add : Double → Double → Double
  | .nan, _ | _, .nan => .nan
  | .infinity s, .infinity t => if s = t then .infinity s else .nan
  | .infinity s, .finite _ _ | .finite _ _, .infinity s => .infinity s
  | .finite s p, .finite t q =>
    let v := signed s p + signed t q
    round (if v = 0 then s && t else v < 0) |v| (abs_nonneg v)

def neg : Double → Double
  | .nan => .nan
  | .infinity s => .infinity !s
  | .finite s q => .finite (!s) q

def sub (x y : Double) : Double := x.add y.neg

/-- The sum from left to right, as `fold(0, ..)` adds it up. -/
def sum (ds : List Double) : Double := ds.foldl add zero

variable {x y : Double} {a b v : ℚ}

theorem toRat_neg (x : Double) : x.neg.toRat = x.toRat.map (- ·) := by
  rcases x with _ | s | ⟨s, q⟩ <;> try rfl
  cases s <;> simp [neg, toRat, signed]

theorem toRat_eq_some (h : x.toRat = some a) : ∃ s q, x = .finite s q ∧ signed s q = a := by
  rcases x with _ | s | ⟨s, q⟩
  · cases h
  · cases h
  · exact ⟨s, q, rfl, Option.some.inj h⟩

theorem exists_int_of_toRat (h : x.toRat = some a) : ∃ z : ℤ, a = z * 2 ^ binary64.minExponent := by
  obtain ⟨s, ⟨q, hq, hr⟩, rfl, rfl⟩ := toRat_eq_some h
  obtain ⟨m, rfl⟩ := hr.exists_nat
  cases s
  · exact ⟨m, by simp [signed]⟩
  · exact ⟨-m, by simp [signed]⟩

theorem signed_abs (v : ℚ) (s : Bool) : signed (if v = 0 then s else decide (v < 0)) |v| = v := by
  rcases lt_trichotomy v 0 with h | rfl | h
  · simp [signed, h, h.ne, abs_of_neg h]
  · simp
  · simp [signed, h.le, h.ne', abs_of_pos h]

theorem toRat_add_of_represents (hx : x.toRat = some a) (hy : y.toRat = some b)
    (hr : binary64.Represents |a + b|) (hlt : |a + b| < 2 ^ 1024) :
    (x.add y).toRat = some (a + b) := by
  obtain ⟨s, p, rfl, rfl⟩ := toRat_eq_some hx
  obtain ⟨t, q, rfl, rfl⟩ := toRat_eq_some hy
  rw [add, round_eq_finite (abs_nonneg _) hr hlt, toRat, signed_abs]

theorem toRat_round_eq_some {s : Bool} {q : ℚ} (hq : 0 ≤ q) (h : (round s q hq).toRat = some v) :
    v = signed s (binary64.round q) := by
  unfold round at h
  split at h
  · exact (Option.some.inj h).symm
  · cases h

theorem abs_signed_sub (s : Bool) (p q : ℚ) : |signed s p - signed s q| = |p - q| := by
  cases s
  · rfl
  · rw [signed, signed, if_pos rfl, if_pos rfl, neg_sub_neg, abs_sub_comm]

theorem abs_signed_round_sub (v r : ℚ) (s : Bool) :
    |signed (if v = 0 then s else decide (v < 0)) r - v| = |r - (|v|)| := by
  have h := abs_signed_sub (if v = 0 then s else decide (v < 0)) r |v|
  rwa [signed_abs] at h

theorem toRat_add_eq_some (h : (x.add y).toRat = some v) : ∃ a b, x.toRat = some a ∧
    y.toRat = some b ∧ |v - (a + b)| ≤ |a + b| / 2 ^ 53 := by
  rcases x with _ | s | ⟨s, p⟩ <;> rcases y with _ | t | ⟨t, q⟩
  case finite.finite =>
    refine ⟨_, _, rfl, rfl, ?_⟩
    obtain ⟨z, hz⟩ := exists_int_of_toRat (x := .finite s p) rfl
    obtain ⟨w, hw⟩ := exists_int_of_toRat (x := .finite t q) rfl
    have hgrid : |signed s p.val + signed t q.val| =
        ((z + w).natAbs : ℕ) * 2 ^ binary64.minExponent := by
      rw [hz, hw, ← add_mul, abs_mul, abs_of_pos (a := (2 : ℚ) ^ _) (by positivity),
        Nat.cast_natAbs, Int.cast_abs, Int.cast_add]
    have herror := Format.abs_round_sub_le hgrid
    rw [toRat_round_eq_some (abs_nonneg _) h]
    rw [abs_signed_round_sub]
    exact herror
  all_goals
    simp only [add] at h
    first | cases h | (split at h <;> cases h)

theorem toRat_sub_eq_some (h : (x.sub y).toRat = some v) : ∃ a b, x.toRat = some a ∧
    y.toRat = some b ∧ |v - (a - b)| ≤ |a - b| / 2 ^ 53 := by
  obtain ⟨a, b, hx, hy, hv⟩ := toRat_add_eq_some h
  rw [toRat_neg] at hy
  obtain ⟨c, hc, rfl⟩ := Option.map_eq_some_iff.mp hy
  exact ⟨a, c, hx, hc, by rwa [sub_eq_add_neg a c]⟩

/-! ### Sums over a grid -/

def gridPoint (e z : ℤ) : ℚ := z * 2 ^ e

/-- The doubles are these points of the grid with the exponent `e`. -/
def OnGrid (e : ℤ) (ds : List Double) (zs : List ℤ) : Prop :=
  List.Forall₂ (fun d z => d.toRat = some (gridPoint e z)) ds zs

/-- The exponents of the grids that are fine enough and coarse enough for doubles. -/
def IsExponent (e : ℤ) : Prop := -1074 ≤ e ∧ e ≤ 970

instance (e : ℤ) : Decidable (IsExponent e) := inferInstanceAs (Decidable (_ ∧ _))

variable {e z w : ℤ} {ds : List Double} {zs : List ℤ}

@[simp] theorem gridPoint_zero (e : ℤ) : gridPoint e 0 = 0 := by simp [gridPoint]

theorem gridPoint_add (e z w : ℤ) : gridPoint e z + gridPoint e w = gridPoint e (z + w) := by
  simp [gridPoint, add_mul]

theorem gridPoint_neg (e z : ℤ) : -gridPoint e z = gridPoint e (-z) := by simp [gridPoint]

theorem gridPoint_sub (e z w : ℤ) : gridPoint e z - gridPoint e w = gridPoint e (z - w) := by
  rw [sub_eq_add_neg, gridPoint_neg, gridPoint_add, ← sub_eq_add_neg]

theorem natAbs_sum_le (zs : List ℤ) : zs.sum.natAbs ≤ (zs.map Int.natAbs).sum := by
  induction zs with
  | nil => simp
  | cons z zs ih =>
    rw [List.sum_cons, List.map_cons, List.sum_cons]
    have := Int.natAbs_add_le z zs.sum
    omega

theorem toRat_add_of_grid (he : IsExponent e) (hx : x.toRat = some (gridPoint e z))
    (hy : y.toRat = some (gridPoint e w)) (hz : (z + w).natAbs ≤ 2 ^ 53) :
    (x.add y).toRat = some (gridPoint e (z + w)) := by
  rw [← gridPoint_add]
  apply toRat_add_of_represents hx hy
  · rw [gridPoint_add]
    exact Format.represents_zsmul hz he.1
  · rw [gridPoint_add, gridPoint, abs_mul, abs_of_pos (a := (2 : ℚ) ^ e) (by positivity)]
    calc |((z + w : ℤ) : ℚ)| * 2 ^ e
        ≤ 2 ^ 53 * 2 ^ (970 : ℤ) := by
          gcongr
          · rw [← Int.cast_abs, ← Nat.cast_natAbs]
            exact_mod_cast hz
          · exact one_le_two
          · exact he.2
      _ < 2 ^ (1024 : ℤ) := by
          rw [← zpow_natCast, ← zpow_add₀ two_ne_zero]
          exact zpow_lt_zpow_right₀ one_lt_two (by decide)
      _ = 2 ^ 1024 := zpow_natCast 2 1024

theorem toRat_foldl_add (he : IsExponent e) (h : OnGrid e ds zs)
    (hx : x.toRat = some (gridPoint e z))
    (hz : z.natAbs + (zs.map Int.natAbs).sum ≤ 2 ^ 53) :
    (ds.foldl add x).toRat = some (gridPoint e (z + zs.sum)) := by
  induction h generalizing x z with
  | nil => simpa using hx
  | @cons d w ds zs hd _ ih =>
    rw [List.map_cons, List.sum_cons] at hz
    have hle := Int.natAbs_add_le z w
    have hadd := toRat_add_of_grid he hx hd (by omega)
    rw [List.foldl_cons, ih hadd (by omega), List.sum_cons, add_assoc]

/-- Over a grid that is represented far enough, sums are exact. -/
theorem toRat_sum_of_grid (he : IsExponent e) (h : OnGrid e ds zs)
    (hz : (zs.map Int.natAbs).sum ≤ 2 ^ 53) : (sum ds).toRat = some (gridPoint e zs.sum) := by
  have hzero : zero.toRat = some (gridPoint e 0) := by simp [zero, toRat]
  have hfold := toRat_foldl_add he h hzero (by simpa using hz)
  rwa [zero_add] at hfold

theorem toRat_sub_of_grid (he : IsExponent e) (hx : x.toRat = some (gridPoint e z))
    (hy : y.toRat = some (gridPoint e w)) (hz : z.natAbs + w.natAbs ≤ 2 ^ 53) :
    (x.sub y).toRat = some (gridPoint e (z - w)) := by
  have hneg : y.neg.toRat = some (gridPoint e (-w)) := by
    rw [toRat_neg, hy, Option.map_some, gridPoint_neg]
  rw [sub, sub_eq_add_neg]
  exact toRat_add_of_grid he hx hneg (by omega)

/-! ### Errors -/

def Values (ds : List Double) (as : List ℚ) : Prop :=
  List.Forall₂ (fun d a => d.toRat = some a) ds as

/-- What `n` roundings may make of a sum of magnitudes, relative to it. -/
def compound (n : ℕ) : ℚ := (1 + 1 / 2 ^ 53) ^ n - 1

theorem compound_nonneg (n : ℕ) : 0 ≤ compound n :=
  sub_nonneg.mpr (one_le_pow₀ (by norm_num))

theorem compound_mono {m n : ℕ} (h : m ≤ n) : compound m ≤ compound n :=
  sub_le_sub_right (pow_le_pow_right₀ (by norm_num) h) 1

/-- One more rounding: of a value that carries `n` of them already. -/
theorem compound_succ (n : ℕ) : compound (n + 1) = compound n * (1 + 1 / 2 ^ 53) + 1 / 2 ^ 53 := by
  rw [compound, compound, pow_succ]
  ring

theorem abs_le_of_error {n : ℕ} {t c m : ℚ} (h : |v - (t + c)| ≤ compound n * (|t| + m))
    (ht : |t - (a + b)| ≤ |a + b| / 2 ^ 53) (hm : 0 ≤ m) :
    |v - (a + (b + c))| ≤ compound (n + 1) * (|a| + (|b| + m)) := by
  have hab := abs_add_le a b
  have htri : |v - (a + (b + c))| ≤ |v - (t + c)| + |t - (a + b)| := by
    have := abs_add_le (v - (t + c)) (t - (a + b))
    rwa [show v - (t + c) + (t - (a + b)) = v - (a + (b + c)) by ring] at this
  have hta : |t| ≤ (|a| + |b|) * (1 + 1 / 2 ^ 53) := by
    have := abs_add_le (a + b) (t - (a + b))
    rw [show a + b + (t - (a + b)) = t by ring] at this
    linarith
  have hn := compound_nonneg n
  have hmul := mul_le_mul_of_nonneg_left hta hn
  rw [compound_succ]
  nlinarith [mul_nonneg hn hm]

theorem exists_values (h : (ds.foldl add x).toRat = some v) :
    ∃ a as, x.toRat = some a ∧ Values ds as := by
  induction ds generalizing x with
  | nil => exact ⟨v, [], h, .nil⟩
  | cons d ds ih =>
    obtain ⟨t, as, ht, has⟩ := ih h
    obtain ⟨a, b, hx, hd, -⟩ := toRat_add_eq_some ht
    exact ⟨a, b :: as, hx, .cons hd has⟩

/-- The error that adding up a list has made, relative to the sum of all magnitudes. -/
theorem abs_foldl_add_sub_le {as : List ℚ} (hx : x.toRat = some a)
    (h : (ds.foldl add x).toRat = some v) (hds : Values ds as) :
    |v - (a + as.sum)| ≤ compound ds.length * (|a| + (as.map abs).sum) := by
  induction hds generalizing x a with
  | nil =>
    obtain rfl := Option.some.inj (hx.symm.trans h)
    simp [compound]
  | @cons d b ds as hd _ ih =>
    obtain ⟨t, -, ht, -⟩ := exists_values (x := x.add d) h
    obtain ⟨a', b', hx', hd', hround⟩ := toRat_add_eq_some ht
    obtain rfl := Option.some.inj (hx.symm.trans hx')
    obtain rfl := Option.some.inj (hd.symm.trans hd')
    have hnonneg : 0 ≤ (as.map abs).sum := List.sum_nonneg (by simp)
    simpa using abs_le_of_error (ih ht h) hround hnonneg

theorem toRat_of_zero_add (h : (zero.add y).toRat = some v) : y.toRat = some v := by
  obtain ⟨a, b, hz, hy, -⟩ := toRat_add_eq_some h
  obtain rfl : 0 = a := by simpa [zero, toRat] using hz
  obtain ⟨t, q, rfl, rfl⟩ := toRat_eq_some hy
  have hv := toRat_round_eq_some (abs_nonneg _) h
  have hr : binary64.Represents |signed false 0 + signed t q.val| := by
    rw [signed_zero, zero_add, abs_signed t q.2.1]
    exact q.2.2
  have hv : v = signed false 0 + signed t q.val := by
    rwa [Format.round_eq_self hr, signed_abs] at hv
  rw [hv, signed_zero, zero_add, hy]

/-- The first term of a sum is added to zero, which rounds nothing. -/
theorem abs_sum_sub_le (h : (sum ds).toRat = some v) : ∃ as, Values ds as ∧
    |v - as.sum| ≤ compound (ds.length - 1) * (as.map abs).sum := by
  cases ds with
  | nil =>
    obtain rfl : 0 = v := by simpa [sum, zero, toRat] using h
    exact ⟨[], .nil, by simp⟩
  | cons d ds =>
    obtain ⟨t, as, ht, has⟩ := exists_values (x := zero.add d) h
    refine ⟨t :: as, .cons (toRat_of_zero_add ht) has, ?_⟩
    simpa using abs_foldl_add_sub_le ht h has

theorem abs_sub_sub_le {n : ℕ} {t u m m' : ℚ} (ht : |t - a| ≤ compound n * m)
    (hu : |u - b| ≤ compound n * m') (hv : |v - (t - u)| ≤ |t - u| / 2 ^ 53) (ha : |a| ≤ m)
    (hb : |b| ≤ m') : |v - (a - b)| ≤ compound (n + 1) * (m + m') := by
  have htri : |v - (a - b)| ≤ |v - (t - u)| + (|t - a| + |u - b|) := by
    have h₁ := abs_add_le (v - (t - u)) (t - a - (u - b))
    have h₂ := abs_sub (t - a) (u - b)
    rw [show v - (t - u) + (t - a - (u - b)) = v - (a - b) by ring] at h₁
    linarith
  have htu : |t - u| ≤ m + m' + (|t - a| + |u - b|) := by
    have h₁ := abs_add_le (a - b) (t - a - (u - b))
    have h₂ := abs_sub (t - a) (u - b)
    have h₃ := abs_sub a b
    rw [show a - b + (t - a - (u - b)) = t - u by ring] at h₁
    linarith
  rw [compound_succ]
  linarith

end Double

end Dart
