import FlutterPractice.ComplexApi.Lifetime
import FlutterPractice.ComplexApi.UserModel
import FlutterPractice.Crud.Lifetime
import FlutterPractice.StepCounter.History
import FlutterPractice.StepCounter.Lifetime
import FlutterPractice.WaterTracker.Tank

/-! # Updates after disposal

None of the four pages guards its callbacks by `mounted`, and none cancels its
sources in `dispose`. For each of them, the events that call `setState` on the
page when it has been left, and the pages that can be left safely.
-/

namespace FlutterPractice

open Machine Lifetime

/-- The water tracker cannot be left safely, the other pages while nothing is awaited. -/
theorem pages_sparedIff (tank : Page WaterTracker.Tank) (live : Page StepCounter.Live)
    (users : Page (ComplexApi.State ComplexApi.UserModel)) (screen : Page Crud.Screen) :
    WaterTracker.widget.SparedIff WaterTracker.Late (fun _ => False) tank ∧
    StepCounter.Live.widget.SparedIff StepCounter.Live.Late StepCounter.Live.Quiet live ∧
    (ComplexApi.Live.widget ComplexApi.UserModel.fromJson).SparedIff ComplexApi.Live.Late
      (fun s => s.inFlight = []) users ∧
    Crud.Screen.widget.SparedIff Crud.Screen.Late
      (fun s => s.list.inFlight = 0 ∧ s.deleting = 0) screen := by
  refine ⟨⟨?_, ?_⟩, ⟨?_, ?_⟩, ⟨?_, ?_⟩, ⟨?_, ?_⟩⟩
  · exact fun es => WaterTracker.along_spares_iff
  · exact fun hp => iff_false_intro (WaterTracker.not_forall_along_spares hp)
  · exact fun es => StepCounter.Live.along_spares_iff
  · exact StepCounter.Live.forall_along_spares_iff
  · exact fun es => ComplexApi.Live.along_spares_iff
  · exact ComplexApi.Live.forall_along_spares_iff
  · exact fun es => Crud.Screen.along_spares_iff
  · exact Crud.Screen.forall_along_spares_iff

/-- A tick, a reading, a request that fails, and a load that is answered with 404, each on a page
that has just been left. -/
theorem pages_not_spared :
    ¬ Along WaterTracker.widget.step WaterTracker.widget.Spares (created .initial)
      [.dispose, .callback .ticked] ∧
    ¬ Along StepCounter.Live.widget.step StepCounter.Live.widget.Spares
      (created (.initial .empty StepCounter.march1))
      [.callback (.prefsAnswered StepCounter.march1),
        .callback (.permissionAnswered (some true) true), .dispose, .callback (.reading 100)] ∧
    ¬ Along (ComplexApi.Live.widget ComplexApi.UserModel.fromJson).step
      (ComplexApi.Live.widget ComplexApi.UserModel.fromJson).Spares
      (created ComplexApi.Live.initial) [.dispose, .callback (.reply 0 .exception)] ∧
    ¬ Along Crud.Screen.widget.step Crud.Screen.widget.Spares (created Crud.Screen.initial)
      [.dispose, .callback (.reply (.response 404 (.text none)))] := by
  exact ⟨by decide, by decide, by decide, by decide⟩

end FlutterPractice
