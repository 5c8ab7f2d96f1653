import FlutterPractice.Machine.Saturating
import FlutterPractice.WaterTracker.Tank

/-! # The level of the tank

The buttons and the timer change the level by fixed amounts, and the level
stops at an empty and at a full tank. At most one snack bar is on its way, and
on the screen that is what `_isSnackBarVisible` says.
-/

namespace FlutterPractice.WaterTracker

open Machine Lifetime

/-- What an event adds to the tank of a page on the screen. -/
def change : TankEvent → List ℤ
  | .pressed .add100 => [100]
  | .pressed .add200 => [200]
  | .pressed .sub100 => [-100]
  | .ticked => [1]
  | .snackBarClosed => []

def changes (p : Page Tank) : Lifetime.Event TankEvent → List ℤ
  | .callback e => if p.disposed then [] else change e
  | .dispose => []

/-- The level is one of the tank, and the flag knows of the snack bar that is on its way. -/
structure Sound (p : Page Tank) : Prop where
  nonneg : 0 ≤ p.fields.currentWaterInTank
  le : p.fields.currentWaterInTank ≤ targetWater
  closing_le : p.fields.closing ≤ p.fields.isSnackBarVisible.toNat
  closing : p.disposed = false → p.fields.closing = p.fields.isSnackBarVisible.toNat

def levelFrom (level : ℤ) (ds : List ℤ) : ℤ := Saturating.sum 0 targetWater level ds

variable {p t : Page Tank} {s : Tank} {e : TankEvent} {es fs : List (Lifetime.Event TankEvent)}

theorem sound_initial : Sound (created .initial) where
  nonneg := le_rfl
  le := by decide
  closing_le := le_rfl
  closing _ := rfl

@[simp] theorem showSnackBar_currentWaterInTank :
    s.showSnackBar.currentWaterInTank = s.currentWaterInTank := by
  rw [Tank.showSnackBar]
  split
  · rfl
  · rfl

theorem showSnackBar_closing (h : s.closing = s.isSnackBarVisible.toNat) :
    s.showSnackBar.closing = s.showSnackBar.isSnackBarVisible.toNat := by
  rw [Tank.showSnackBar]
  split
  · exact h
  · rename_i hvisible
    have hclosing : s.closing = 0 := by simpa [hvisible] using h
    simp [hclosing]

/-- An addition reaches the target or not; there is nothing to cut off below. -/
theorem levelFrom_of_nonneg {level amount : ℤ} (hl : 0 ≤ level) (ha : 0 ≤ amount) :
    levelFrom level [amount] =
      if level + amount ≥ targetWater then targetWater else level + amount := by
  have htarget : targetWater = 2000 := rfl
  simp only [levelFrom, Saturating.sum, Saturating.add, List.foldl_cons, List.foldl_nil]
  split
  · omega
  · omega

theorem levelFrom_of_nonpos {level amount : ℤ} (hl : level ≤ targetWater) (ha : 0 ≤ amount) :
    levelFrom level [-amount] = if level - amount ≤ 0 then 0 else level - amount := by
  have htarget : targetWater = 2000 := rfl
  simp only [levelFrom, Saturating.sum, Saturating.add, List.foldl_cons, List.foldl_nil]
  split
  · omega
  · omega

theorem waterAdd_level (h : 0 ≤ s.currentWaterInTank) {amount : ℤ} (ha : 0 ≤ amount) :
    (Tank.waterAdd amount false s).fields.currentWaterInTank =
      levelFrom s.currentWaterInTank [amount] := by
  rw [levelFrom_of_nonneg h ha, Tank.waterAdd, Callback.setState_mounted]
  split
  · simp
  · rfl

theorem waterRemove_level (h : s.currentWaterInTank ≤ targetWater) {amount : ℤ}
    (ha : 0 ≤ amount) : (Tank.waterRemove amount false s).fields.currentWaterInTank =
      levelFrom s.currentWaterInTank [-amount] := by
  rw [levelFrom_of_nonpos h ha, Tank.waterRemove, Callback.setState_mounted]
  split
  · simp
  · rfl

theorem onTick_level (h : 0 ≤ s.currentWaterInTank) :
    (Tank.onTick false s).fields.currentWaterInTank = levelFrom s.currentWaterInTank [1] := by
  rw [levelFrom_of_nonneg h zero_le_one, Tank.onTick, Callback.setState_mounted]
  split
  · rfl
  · rfl

theorem callback_level (h : Sound ⟨s, false⟩) {c : Callback Tank}
    (hc : widget.callback s e = some c) :
    (c false s).fields.currentWaterInTank = levelFrom s.currentWaterInTank (change e) := by
  cases e with
  | pressed button =>
    obtain rfl := Option.some.inj hc
    cases button with
    | add100 => exact waterAdd_level h.nonneg (by decide)
    | add200 => exact waterAdd_level h.nonneg (by decide)
    | sub100 => exact waterRemove_level h.le (by decide)
  | ticked =>
    obtain rfl := Option.some.inj hc
    exact onTick_level h.nonneg
  | snackBarClosed =>
    obtain ⟨-, hc⟩ := Option.ite_none_right_eq_some.mp hc
    obtain rfl := Option.some.inj hc
    rfl

theorem callback_closing (h : s.closing = s.isSnackBarVisible.toNat) {c : Callback Tank}
    (hc : widget.callback s e = some c) :
    (c false s).fields.closing = (c false s).fields.isSnackBarVisible.toNat := by
  cases e with
  | pressed button =>
    obtain rfl := Option.some.inj hc
    have hadd (amount : ℤ) : (Tank.waterAdd amount false s).fields.closing =
        (Tank.waterAdd amount false s).fields.isSnackBarVisible.toNat := by
      rw [Tank.waterAdd, Callback.setState_mounted]
      split
      · exact showSnackBar_closing h
      · exact h
    have hremove (amount : ℤ) : (Tank.waterRemove amount false s).fields.closing =
        (Tank.waterRemove amount false s).fields.isSnackBarVisible.toNat := by
      rw [Tank.waterRemove, Callback.setState_mounted]
      split
      · exact showSnackBar_closing h
      · exact h
    cases button with
    | add100 => exact hadd 100
    | add200 => exact hadd 200
    | sub100 => exact hremove 100
  | ticked =>
    obtain rfl := Option.some.inj hc
    rw [Tank.onTick, Callback.setState_mounted]
    split
    · exact h
    · exact h
  | snackBarClosed =>
    obtain ⟨hpos, hc⟩ := Option.ite_none_right_eq_some.mp hc
    obtain rfl := Option.some.inj hc
    have hle : s.isSnackBarVisible.toNat ≤ 1 := Bool.toNat_le _
    have hzero : s.closing - 1 = 0 := by omega
    exact hzero

/-- Behind the disposal only a snack bar that closes changes a field. -/
theorem callback_disposed {c : Callback Tank} (hc : widget.callback s e = some c) :
    (c true s).fields.currentWaterInTank = s.currentWaterInTank ∧
      (c true s).fields.isSnackBarVisible = s.isSnackBarVisible ∧
      (c true s).fields.closing ≤ s.closing := by
  cases e with
  | pressed button =>
    obtain rfl := Option.some.inj hc
    cases button with
    | add100 => exact ⟨rfl, rfl, le_rfl⟩
    | add200 => exact ⟨rfl, rfl, le_rfl⟩
    | sub100 => exact ⟨rfl, rfl, le_rfl⟩
  | ticked =>
    obtain rfl := Option.some.inj hc
    exact ⟨rfl, rfl, le_rfl⟩
  | snackBarClosed =>
    obtain ⟨-, hc⟩ := Option.ite_none_right_eq_some.mp hc
    obtain rfl := Option.some.inj hc
    exact ⟨rfl, rfl, Nat.sub_le _ _⟩

theorem Sound.step {e : Lifetime.Event TankEvent} (h : Sound p)
    (ht : widget.step p e = some t) : Sound t ∧
      t.fields.currentWaterInTank = levelFrom p.fields.currentWaterInTank (changes p e) := by
  obtain ⟨s, disposed⟩ := p
  cases e with
  | dispose =>
    obtain ⟨-, ht⟩ := Option.ite_none_left_eq_some.mp ht
    obtain rfl := Option.some.inj ht
    exact ⟨⟨h.nonneg, h.le, h.closing_le, nofun⟩, rfl⟩
  | callback e =>
    cases disposed with
    | false =>
      obtain ⟨c, hc, rfl⟩ := Option.map_eq_some_iff.mp ht
      have hlevel := callback_level h hc
      have hclosing := callback_closing (h.closing rfl) hc
      refine ⟨⟨?_, ?_, hclosing.le, fun _ => hclosing⟩, hlevel⟩
      · exact (Saturating.le_sum h.nonneg).trans_eq hlevel.symm
      · exact hlevel.trans_le (Saturating.sum_le (by decide) h.le)
    | true =>
      obtain ⟨-, c, hc, rfl⟩ := Widget.step_disposed rfl ht
      obtain ⟨hlevel, hvisible, hclosing⟩ := callback_disposed hc
      refine ⟨⟨?_, ?_, ?_, nofun⟩, hlevel⟩
      · exact h.nonneg.trans_eq hlevel.symm
      · exact hlevel.trans_le h.le
      · exact hclosing.trans (h.closing_le.trans_eq (congrArg _ hvisible.symm))

theorem Sound.exec (h : Sound p) (ht : exec widget.step p es = some t) : Sound t ∧
    t.fields.currentWaterInTank =
      levelFrom p.fields.currentWaterInTank (outputs widget.step changes p es) := by
  refine exec_outputs (H := fun ds t => Sound t ∧
    t.fields.currentWaterInTank = levelFrom p.fields.currentWaterInTank ds) ⟨h, rfl⟩ ?_ ht
  rintro ds t e u ⟨hsound, hlevel⟩ hu
  obtain ⟨hnext, hchange⟩ := hsound.step hu
  refine ⟨hnext, ?_⟩
  rw [hchange, hlevel, levelFrom, levelFrom, levelFrom, Saturating.sum, Saturating.sum,
    Saturating.sum, List.foldl_append]

end FlutterPractice.WaterTracker
