import FlutterPractice.Dart.Sum
import FlutterPractice.Money.Ledger

/-! # The totals of the ledger

The getters add up the amounts of a list from the left, and the balance is the
difference of two such sums. Amounts on a grid of doubles, such as whole
numbers, give exact totals in whatever order they were added. Other amounts
leave an error that their number and their magnitudes bound.
-/

namespace FlutterPractice.Money

open Dart Machine

variable {DateTime : Type}

/-- What `sum + item['amount']` adds to the `double` in front of it; it throws at other values. -/
def amountOf : Json → Option Double
  | .double d => some d
  | .int z => some (.round (z < 0) |(z : ℚ)| (abs_nonneg _))
  | _ => none

def total (items : List (Entry DateTime)) : Option Double :=
  items.foldlM (fun sum item => (amountOf item.amount).map sum.add) Double.zero

def totalExpanse (s : State DateTime) : Option Double := total s.expense

def totalEarning (s : State DateTime) : Option Double := total s.earning

def balance (s : State DateTime) : Option Double := do
  return (← totalEarning s).sub (← totalExpanse s)

/-- The amounts of the entries, as the getters add them up. -/
def Amounts (items : List (Entry DateTime)) (ds : List Double) : Prop :=
  List.Forall₂ (fun item d => amountOf item.amount = some d) items ds

def AmountsOnGrid (e : ℤ) (items : List (Entry DateTime)) (zs : List ℤ) : Prop :=
  ∃ ds, Amounts items ds ∧ Double.OnGrid e ds zs

variable {F : IsoFormat DateTime} {prefs : Prefs} {s t : State DateTime}
  {items : List (Entry DateTime)} {es : List (Event DateTime)}

theorem foldlM_amounts {ds : List Double} (h : Amounts items ds) (sum : Double) :
    items.foldlM (fun sum item => (amountOf item.amount).map sum.add) sum =
      some (ds.foldl Double.add sum) := by
  induction h generalizing sum with
  | nil => rfl
  | cons hd _ ih =>
    rw [List.foldlM_cons, hd]
    exact ih _

theorem total_eq {ds : List Double} (h : Amounts items ds) : total items = some (Double.sum ds) :=
  foldlM_amounts h _

theorem amounts_of_foldlM {sum total : Double}
    (h : items.foldlM (fun sum item => (amountOf item.amount).map sum.add) sum = some total) :
    ∃ ds, Amounts items ds := by
  induction items generalizing sum with
  | nil => exact ⟨[], .nil⟩
  | cons item items ih =>
    rw [List.foldlM_cons] at h
    obtain ⟨next, hnext, h⟩ := Option.bind_eq_some_iff.mp h
    obtain ⟨d, hd, -⟩ := Option.map_eq_some_iff.mp hnext
    obtain ⟨ds, hds⟩ := ih h
    exact ⟨d :: ds, .cons hd hds⟩

theorem total_eq_some {d : Double} (h : total items = some d) :
    ∃ ds, Amounts items ds ∧ d = Double.sum ds := by
  obtain ⟨ds, hds⟩ := amounts_of_foldlM h
  exact ⟨ds, hds, Option.some.inj (h.symm.trans (total_eq hds))⟩

theorem balance_eq_some {d : Double} (h : balance s = some d) :
    ∃ earning expense, totalEarning s = some earning ∧ totalExpanse s = some expense ∧
      d = earning.sub expense := by
  obtain ⟨earning, hearning, h⟩ := Option.bind_eq_some_iff.mp h
  obtain ⟨expense, hexpense, h⟩ := Option.bind_eq_some_iff.mp h
  exact ⟨earning, expense, hearning, hexpense, (Option.some.inj h).symm⟩

theorem kept_of_exec (h : exec (step F) (opened F prefs) es = some t) : Kept F prefs es t :=
  exec_history (H := Kept F prefs) (kept_opened prefs) (fun _ _ _ _ => kept_step) h

structure Totals (s : State DateTime) (earning expense : ℚ) : Prop where
  totalEarning : ∃ d, totalEarning s = some d ∧ d.toRat = some earning
  totalExpanse : ∃ d, totalExpanse s = some d ∧ d.toRat = some expense
  balance : ∃ d, balance s = some d ∧ d.toRat = some (earning - expense)

theorem totals_of_grid {e : ℤ} {zs ws : List ℤ} (he : Double.IsExponent e)
    (hz : AmountsOnGrid e s.earning zs) (hw : AmountsOnGrid e s.expense ws)
    (hsum : (zs.map Int.natAbs).sum + (ws.map Int.natAbs).sum ≤ 2 ^ 53) :
    Totals s (Double.gridPoint e zs.sum) (Double.gridPoint e ws.sum) := by
  obtain ⟨ds, hds, hgrid⟩ := hz
  obtain ⟨cs, hcs, hgrid'⟩ := hw
  have hearning := Double.toRat_sum_of_grid he hgrid (by omega)
  have hexpense := Double.toRat_sum_of_grid he hgrid' (by omega)
  refine ⟨⟨_, total_eq hds, hearning⟩, ⟨_, total_eq hcs, hexpense⟩,
    ⟨(Double.sum ds).sub (Double.sum cs), ?_, ?_⟩⟩
  · rw [balance, totalEarning, totalExpanse, total_eq hds, total_eq hcs]
    rfl
  · have hz := Double.natAbs_sum_le zs
    have hw := Double.natAbs_sum_le ws
    rw [Double.toRat_sub_of_grid he hearning hexpense (by omega), Double.gridPoint_sub]

/-- Amounts on a grid are finite, so a save can encode them. -/
theorem encodable_of_grid {e : ℤ} {zs : List ℤ} (h : AmountsOnGrid e items zs) :
    ∀ item ∈ items, item.amount.encodable = true := by
  obtain ⟨ds, hds, hgrid⟩ := h
  intro item hitem
  induction hds generalizing zs with
  | nil => cases hitem
  | @cons item' d items ds hd _ ih =>
    cases hgrid with
    | cons hz hgrid =>
      rcases List.mem_cons.mp hitem with rfl | hitem
      · cases hamount : item.amount with
        | double d' =>
          rw [hamount] at hd
          obtain rfl := Option.some.inj hd
          rw [Json.encodable, hz]
          rfl
        | int z => rfl
        | null | bool b | string text | array elements | object fields =>
          rw [hamount] at hd
          cases hd
      · exact ih hgrid hitem

theorem title_encodable_added {isEarning : Bool} :
    ∀ item ∈ added isEarning es, item.title.encodable = true := by
  intro item hitem
  obtain ⟨event, -, hevent⟩ := List.mem_filterMap.mp hitem
  cases event with
  | saveData => cases hevent
  | onPressed other title amount entryDate =>
    obtain ⟨-, hevent⟩ := Option.ite_none_right_eq_some.mp hevent
    obtain ⟨d, -, rfl⟩ := Option.map_eq_some_iff.mp hevent
    rfl

/--
From the load of the page on, while the amounts are points of one grid, few and small enough for
their magnitudes to add up to `2 ^ 53` units, the three totals are exact. They are again on the page
that is opened next, once that has loaded.
-/
theorem totals_exact {e : ℤ} {zs ws : List ℤ}
    (h : exec (step F) (opened F prefs) es = some t) (he : Double.IsExponent e)
    (hz : AmountsOnGrid e ((loadData F prefs).1 ++ added true es) zs)
    (hw : AmountsOnGrid e ((loadData F prefs).2 ++ added false es) ws)
    (hsum : (zs.map Int.natAbs).sum + (ws.map Int.natAbs).sum ≤ 2 ^ 53) :
    Totals t (Double.gridPoint e zs.sum) (Double.gridPoint e ws.sum) ∧
      (t.saves = 0 →
        Totals (opened F t.prefs) (Double.gridPoint e zs.sum) (Double.gridPoint e ws.sum)) := by
  obtain ⟨hearning, hexpense, hback⟩ := kept_of_exec h
  rw [← hearning] at hz
  rw [← hexpense] at hw
  refine ⟨totals_of_grid he hz hw hsum, fun hsaves => ?_⟩
  obtain ⟨hloaded, hloaded'⟩ := encodable_loadData (F := F) prefs
  have htitle : ∀ item ∈ t.earning, item.title.encodable = true := by
    rw [hearning]
    exact List.forall_mem_append.mpr
      ⟨fun item hitem => (hloaded item hitem).1, title_encodable_added⟩
  have htitle' : ∀ item ∈ t.expense, item.title.encodable = true := by
    rw [hexpense]
    exact List.forall_mem_append.mpr
      ⟨fun item hitem => (hloaded' item hitem).1, title_encodable_added⟩
  have hread : ReadsBack F t :=
    hback hsaves (fun item hitem => ⟨htitle item hitem, encodable_of_grid hz item hitem⟩)
      (fun item hitem => ⟨htitle' item hitem, encodable_of_grid hw item hitem⟩)
  apply totals_of_grid he _ _ hsum <;> rw [opened, hread]
  · exact hz
  · exact hw

def AmountValues (items : List (Entry DateTime)) (as : List ℚ) : Prop :=
  ∃ ds, Amounts items ds ∧ Double.Values ds as

def magnitudes (as : List ℚ) : ℚ := (as.map abs).sum

theorem magnitudes_nonneg (as : List ℚ) : 0 ≤ magnitudes as := List.sum_nonneg (by simp)

theorem abs_sum_le_magnitudes (as : List ℚ) : |as.sum| ≤ magnitudes as := by
  induction as with
  | nil => simp [magnitudes]
  | cons a as ih =>
    have := abs_add_le a as.sum
    rw [List.sum_cons, magnitudes, List.map_cons, List.sum_cons, ← magnitudes]
    linarith

/-- A value is within the error of adding up the exact amounts. -/
def Within (v : ℚ) (as : List ℚ) : Prop :=
  |v - as.sum| ≤ Double.compound (as.length - 1) * magnitudes as

theorem total_within {d : Double} {v : ℚ} (h : total items = some d) (hv : d.toRat = some v) :
    ∃ as, AmountValues items as ∧ Within v as := by
  obtain ⟨ds, hds, rfl⟩ := total_eq_some h
  obtain ⟨as, has, herror⟩ := Double.abs_sum_sub_le hv
  refine ⟨as, ⟨ds, hds, has⟩, ?_⟩
  rwa [Within, ← has.length_eq]

theorem difference_within {as bs : List ℚ} {u w v : ℚ} (hu : Within u as) (hw : Within w bs)
    (hv : |v - (u - w)| ≤ |u - w| / 2 ^ 53) : |v - (as.sum - bs.sum)| ≤
      Double.compound (max as.length bs.length) * (magnitudes as + magnitudes bs) := by
  have hmono (k : ℕ) (cs : List ℚ) (hk : cs.length - 1 ≤ k) :
      Double.compound (cs.length - 1) * magnitudes cs ≤ Double.compound k * magnitudes cs :=
    mul_le_mul_of_nonneg_right (Double.compound_mono hk) (magnitudes_nonneg cs)
  rcases Nat.eq_zero_or_pos (max as.length bs.length) with hzero | hpos
  · obtain ⟨ha, hb⟩ := Nat.max_eq_zero_iff.mp hzero
    obtain rfl := List.length_eq_zero_iff.mp ha
    obtain rfl := List.length_eq_zero_iff.mp hb
    obtain rfl : u = 0 := by simpa [Within, magnitudes] using hu
    obtain rfl : w = 0 := by simpa [Within, magnitudes] using hw
    simpa [magnitudes] using hv
  · obtain ⟨n, hn⟩ := Nat.exists_eq_succ_of_ne_zero hpos.ne'
    rw [hn]
    exact Double.abs_sub_sub_le (hu.trans (hmono n as (by omega)))
      (hw.trans (hmono n bs (by omega))) hv (abs_sum_le_magnitudes as) (abs_sum_le_magnitudes bs)

/--
Whatever the amounts are, the totals of a page that has loaded are off from the exact ones by no
more than the roundings of their additions can compound to, and so is the balance.
-/
theorem totals_within {d : Double} {v : ℚ} (h : exec (step F) (opened F prefs) es = some t)
    (hb : balance t = some d) (hv : d.toRat = some v) :
    ∃ as bs, AmountValues ((loadData F prefs).1 ++ added true es) as ∧
      AmountValues ((loadData F prefs).2 ++ added false es) bs ∧
      (∃ E u, totalEarning t = some E ∧ E.toRat = some u ∧ Within u as) ∧
      (∃ X w, totalExpanse t = some X ∧ X.toRat = some w ∧ Within w bs) ∧
      |v - (as.sum - bs.sum)| ≤
        Double.compound (max as.length bs.length) * (magnitudes as + magnitudes bs) := by
  obtain ⟨hearning, hexpense, -⟩ := kept_of_exec h
  obtain ⟨E, X, hE, hX, rfl⟩ := balance_eq_some hb
  obtain ⟨u, w, hu, hw, hround⟩ := Double.toRat_sub_eq_some hv
  obtain ⟨as, has, herror⟩ := total_within hE hu
  obtain ⟨bs, hbs, herror'⟩ := total_within hX hw
  rw [← hearning, ← hexpense]
  exact ⟨as, bs, has, hbs, ⟨E, u, hE, hu, herror⟩, ⟨X, w, hX, hw, herror'⟩,
    difference_within herror herror' hround⟩

section Examples

/-- A decimal number of half dollars that is small enough is not rounded. -/
theorem toRat_round_scaled {n m : ℕ} {k : ℤ} (hm : m ≤ 2 ^ 53)
    (h : scaled n k = Double.gridPoint (-1) m) (hlt : scaled n k < 2 ^ 64) :
    (Double.round false (scaled n k) (scaled_nonneg n k)).toRat =
      some (Double.gridPoint (-1) m) := by
  have hr : binary64.Represents (scaled n k) :=
    ⟨m, -1, hm, by decide, by rw [h, Double.gridPoint, Int.cast_natCast]⟩
  rw [Double.round_eq_finite_of_lt (scaled_nonneg n k) hr hlt, ← h]
  rfl

theorem accepted_salary : accepted "Salary" "1200.5" =
    some (.round false (scaled 12005 (-1)) (scaled_nonneg _ _)) := by
  rw [accepted, if_pos (by decide)]
  rfl

theorem accepted_rent_eq : accepted "Rent" "800" =
    some (.round false (scaled 800 0) (scaled_nonneg _ _)) := by
  rw [accepted, if_pos (by decide)]
  rfl

theorem salary_onGrid : AmountsOnGrid (-1) (added true salaryAndRent) [2401] := by
  have hadded : added true salaryAndRent = [⟨.string "Salary", .double
      (.round false (scaled 12005 (-1)) (scaled_nonneg _ _)), payday⟩] := by
    simp [added, salaryAndRent, accepted_salary]
  rw [hadded]
  exact ⟨_, .cons rfl .nil, .cons (toRat_round_scaled (by decide)
    (by norm_num [scaled, Double.gridPoint]) (by norm_num [scaled])) .nil⟩

theorem rent_onGrid : AmountsOnGrid (-1) (added false salaryAndRent) [1600] := by
  have hadded : added false salaryAndRent = [⟨.string "Rent", .double
      (.round false (scaled 800 0) (scaled_nonneg _ _)), payday⟩] := by
    simp [added, salaryAndRent, accepted_rent_eq]
  rw [hadded]
  exact ⟨_, .cons rfl .nil, .cons (toRat_round_scaled (by decide)
    (by norm_num [scaled, Double.gridPoint]) (by norm_num [scaled])) .nil⟩

theorem exec_salaryAndRent : ∃ t,
    exec (step midnights) (opened midnights ⟨none, none⟩) salaryAndRent = some t ∧
      t.saves = 0 := by
  simp [salaryAndRent, exec, step, onPressed, accepted_salary, accepted_rent_eq, addEntry, opened]

/-- In half dollars: a balance of 400.5. -/
theorem totals_exact_salary : ∃ t,
    exec (step midnights) (opened midnights ⟨none, none⟩) salaryAndRent = some t ∧
      Totals t (Double.gridPoint (-1) 2401) (Double.gridPoint (-1) 1600) ∧
      Totals (opened midnights t.prefs) (Double.gridPoint (-1) 2401)
        (Double.gridPoint (-1) 1600) := by
  obtain ⟨t, ht, hsaves⟩ := exec_salaryAndRent
  obtain ⟨htotals, hopened⟩ :=
    totals_exact ht (by decide) salary_onGrid rent_onGrid (by decide)
  exact ⟨t, ht, htotals, hopened hsaves⟩

theorem totals_within_salary : ∃ t d v as bs,
    exec (step midnights) (opened midnights ⟨none, none⟩) salaryAndRent = some t ∧
      balance t = some d ∧ d.toRat = some v ∧ AmountValues (added true salaryAndRent) as ∧
      AmountValues (added false salaryAndRent) bs ∧ |v - (as.sum - bs.sum)| ≤
        Double.compound (max as.length bs.length) * (magnitudes as + magnitudes bs) := by
  obtain ⟨t, ht, -⟩ := exec_salaryAndRent
  obtain ⟨hearning, hexpense, -⟩ := kept_of_exec ht
  have hgrid : AmountsOnGrid (-1) t.earning [2401] := hearning ▸ salary_onGrid
  have hgrid' : AmountsOnGrid (-1) t.expense [1600] := hexpense ▸ rent_onGrid
  obtain ⟨d, hd, hv⟩ := (totals_of_grid (by decide) hgrid hgrid' (by decide)).balance
  obtain ⟨as, bs, has, hbs, -, -, herror⟩ := totals_within ht hd hv
  exact ⟨t, d, _, as, bs, ht, hd, hv, has, hbs, herror⟩

end Examples

end FlutterPractice.Money
