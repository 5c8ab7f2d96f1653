import FlutterPractice.Crud.FormLifetime
import FlutterPractice.Money.Lifetime
import FlutterPractice.Students.Lifetime

/-! # Late answers

Five more classes whose handlers do not look at `mounted` behind what they await.
Which late answers call `setState` depends on what stands in front of it: the
context of a page that is gone throws, and then only a `finally` block goes on.
-/

namespace FlutterPractice

open Machine Lifetime

/-- The item of the list can always be left, the ledger once it is loaded, and the others while
they await nothing. -/
theorem late_answers_sparedIff {DateTime : Type} (F : Money.IsoFormat DateTime)
    (add update item : Page BusyFlag.State) (students : Page Students.StudentPage)
    (ledger : Page (Money.Opening DateTime)) :
    Crud.AddScreen.widget.SparedIff (Crud.Form.Answers Crud.AddScreen.Late)
      (fun s => s.running = 0) add ∧
    Crud.UpdateScreen.widget.SparedIff (Crud.Form.Answers fun _ => True)
      (fun s => s.running = 0) update ∧
    Crud.Item.widget.SparedIff (Crud.Form.Answers fun _ => False) (fun _ => True) item ∧
    Students.StudentPage.widget.SparedIff Students.StudentPage.Late
      (fun s => s.Settled) students ∧
    (Money.Opening.widget F).SparedIff Money.Opening.Late (fun s => s.loaded = true) ledger := by
  refine ⟨⟨?_, ?_⟩, ⟨?_, ?_⟩, ⟨?_, ?_⟩, ⟨?_, ?_⟩, ⟨?_, ?_⟩⟩
  · exact fun es => Crud.Form.along_spares_iff Crud.AddScreen.called_onAnswered_iff
  · have hlate : Crud.AddScreen.Late (.response 404 (.text none)) := ⟨404, none, rfl, by decide⟩
    exact Crud.Form.forall_along_spares_iff fun s =>
      (Crud.AddScreen.called_onAnswered_iff _ s).mpr hlate
  · exact fun es => Crud.Form.along_spares_iff fun reply s =>
      iff_of_true (Crud.UpdateScreen.called_onAnswered reply s) trivial
  · exact Crud.Form.forall_along_spares_iff (Crud.UpdateScreen.called_onAnswered .exception)
  · exact fun es => Crud.Item.along_spares_iff
  · exact fun _ => iff_of_true Crud.Item.along_spares trivial
  · exact fun es => Students.StudentPage.along_spares_iff
  · exact Students.StudentPage.forall_along_spares_iff
  · exact fun es => Money.Opening.along_spares_iff
  · exact Money.Opening.forall_along_spares_iff

end FlutterPractice
