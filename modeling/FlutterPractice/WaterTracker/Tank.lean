import FlutterPractice.Machine.Lifetime
import Mathlib.Algebra.Order.Group.Int

/-! # The water tracker

`initState` starts a periodic timer, and a full or an empty tank shows a snack
bar that closes by itself. The page has no `dispose` of its own: the timer goes
on ticking, and the snack bar closes, when the page has been left.
-/

namespace FlutterPractice.WaterTracker

open Machine Lifetime

/-- The fields of `_WaterTrackerState`, and the snack bars that have not closed yet. -/
structure Tank where
  currentWaterInTank : ℤ
  isSnackBarVisible : Bool
  closing : ℕ
  deriving DecidableEq

def targetWater : ℤ := 2000

inductive TankButton where
  | add100
  | add200
  | sub100
  deriving DecidableEq

inductive TankEvent where
  | pressed (button : TankButton)
  | ticked
  | snackBarClosed
  deriving DecidableEq

namespace Tank

def initial : Tank := ⟨0, false, 0⟩

def showSnackBar (s : Tank) : Tank :=
  if s.isSnackBarVisible then s
  else { s with isSnackBarVisible := true, closing := s.closing + 1 }

def waterAdd (amount : ℤ) : Callback Tank := .setState fun s =>
  if s.currentWaterInTank + amount ≥ targetWater then
    { s with currentWaterInTank := targetWater }.showSnackBar
  else { s with currentWaterInTank := s.currentWaterInTank + amount }

def waterRemove (amount : ℤ) : Callback Tank := .setState fun s =>
  if s.currentWaterInTank - amount ≤ 0 then { s with currentWaterInTank := 0 }.showSnackBar
  else { s with currentWaterInTank := s.currentWaterInTank - amount }

def onTick : Callback Tank := .setState fun s =>
  if s.currentWaterInTank + 1 ≥ targetWater then { s with currentWaterInTank := targetWater }
  else { s with currentWaterInTank := s.currentWaterInTank + 1 }

def onSnackBarClosed : Callback Tank :=
  .andThen (.modify fun s => { s with closing := s.closing - 1 })
    (.setState fun s => { s with isSnackBarVisible := false })

def onPressed : TankButton → Callback Tank
  | .add100 => waterAdd 100
  | .add200 => waterAdd 200
  | .sub100 => waterRemove 100

end Tank

/-- `dispose` is the inherited one. -/
def widget : Widget Tank TankEvent where
  onScreen
    | .pressed _ => true
    | .ticked | .snackBarClosed => false
  callback s
    | .pressed button => some (Tank.onPressed button)
    | .ticked => some Tank.onTick
    | .snackBarClosed => if 0 < s.closing then some Tank.onSnackBarClosed else none
  dispose := .skip

/-- The ticks, and the snack bars that close. -/
def Late (_ : Tank) : TankEvent → Prop
  | .pressed _ => False
  | .ticked | .snackBarClosed => True

variable {p : Page Tank} {es : List (Event TankEvent)}

theorem along_spares_iff : Along widget.step widget.Spares p es ↔
    Along widget.step (Avoids Late) p es := by
  apply Widget.along_spares_iff
  intro s e c hscreen hc
  cases e with
  | pressed button => cases hscreen
  | ticked =>
    obtain rfl := Option.some.inj hc
    exact iff_of_true rfl trivial
  | snackBarClosed =>
    obtain ⟨-, hc⟩ := Option.ite_none_right_eq_some.mp hc
    obtain rfl := Option.some.inj hc
    exact iff_of_true rfl trivial

/-- The timer ticks on a page that has been left. -/
theorem not_forall_along_spares (hp : p.disposed = true) :
    ¬ ∀ es, Along widget.step widget.Spares p es := by
  rw [Widget.forall_along_spares_iff (fun _ => False) hp]
  · exact not_false
  · rintro s e c ⟨⟩
  · exact fun s _ => ⟨[.callback .ticked], Widget.not_along_singleton rfl rfl rfl⟩

end FlutterPractice.WaterTracker
