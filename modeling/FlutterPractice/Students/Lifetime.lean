import FlutterPractice.Machine.Lifetime
import FlutterPractice.Students.StudentPage

/-! # The lifetime of the students page

A list that comes in is assigned and shown by `setState`, on whatever page. The
answer to a write does not call it, but asks for another list. So a page can be
left safely only while nothing is under way.
-/

namespace FlutterPractice.Students

open Machine Lifetime

namespace StudentPage

def onAdvance (s t : StudentPage) : Viewing.Advance → Callback StudentPage
  | .run _ => .modify fun _ => t
  | .answer =>
    match s.replies with
    | .contents _ :: _ => .andThen (.modify fun _ => t) (.setState id)
    | _ => .modify fun _ => t

/-- `dispose` is the inherited one. -/
def widget : Widget StudentPage Event where
  onScreen
    | .save _ _ _ | .delete _ => true
    | .database _ => false
  callback s
    | .save name age grade => some (.modify fun s => s.addStudent name age grade)
    | .delete index => s.view[index]?.map fun student => .modify fun s => s.onDelete student
    | .database e => (s.advance Table.apply Table.getAll e).map fun t => onAdvance s t e
  dispose := .skip

def Late (s : StudentPage) : Event → Prop
  | .database .answer => ∃ students replies, s.replies = .contents students :: replies
  | _ => False

variable {s t : StudentPage} {p : Page StudentPage} {es : List (Lifetime.Event Event)}

theorem onAdvance_fields (s t : StudentPage) (e : Viewing.Advance) (disposed : Bool) :
    (onAdvance s t e disposed s).fields = t := by
  cases e with
  | run i => rfl
  | answer =>
    rw [onAdvance]
    rcases s.replies with _ | ⟨_ | students, replies⟩
    · rfl
    · rfl
    · cases disposed <;> rfl

theorem called_onAdvance_iff (s t : StudentPage) (e : Viewing.Advance) :
    (onAdvance s t e true s).called = true ↔ Late s (.database e) := by
  cases e with
  | run i => simp [onAdvance, Late]
  | answer =>
    rw [onAdvance, Late]
    rcases s.replies with _ | ⟨_ | students, replies⟩ <;> simp

theorem step_mounted (s : StudentPage) (e : Event) :
    widget.step ⟨s, false⟩ (.callback e) = (s.step e).map fun s => ⟨s, false⟩ := by
  rw [Widget.step_mounted]
  cases e with
  | save name age grade => rfl
  | delete index => simp [widget, StudentPage.step, Function.comp_def]
  | database e => simp [widget, StudentPage.step, Function.comp_def, onAdvance_fields]

theorem along_spares_iff :
    Along widget.step widget.Spares p es ↔ Along widget.step (Avoids Late) p es := by
  apply Widget.along_spares_iff
  intro s e c hscreen hc
  cases e with
  | save name age grade | delete index => cases hscreen
  | database e =>
    obtain ⟨t, -, rfl⟩ := Option.map_eq_some_iff.mp hc
    exact called_onAdvance_iff s t e

/-- However it goes on, a list comes in unless nothing is under way. -/
theorem exists_not_along (h : ¬ s.Settled) :
    ∃ es, ¬ Along widget.step widget.Spares ⟨s, true⟩ es := by
  induction hn : s.work using Nat.strong_induction_on generalizing s with
  | h n ih =>
    obtain ⟨e, t, ht⟩ : ∃ e t, s.advance Table.apply Table.getAll e = some t :=
      Viewing.exists_advance h
    have hc : widget.callback s (.database e) = some (onAdvance s t e) := by
      simp only [widget, ht, Option.map_some]
    by_cases hlate : Late s (.database e)
    · exact ⟨_, Widget.not_along_singleton rfl hc ((called_onAdvance_iff s t e).mpr hlate)⟩
    · -- A statement has run, or a write is answered: its answer or another list is to come.
      have hnext : ¬ t.Settled := by
        rintro ⟨hwaiting, hreplies⟩
        cases e with
        | run i =>
          rcases Viewing.run_cases ht with ⟨w, -, rfl⟩ | ⟨-, rfl⟩ <;> simp at hreplies
        | answer =>
          rcases Viewing.answer_cases ht with ⟨replies, -, rfl⟩ | ⟨students, replies, hs, -⟩
          · simp at hwaiting
          · exact hlate ⟨students, replies, hs⟩
      have hwork := Viewing.work_advance ht
      obtain ⟨es, hes⟩ := ih t.work (by omega) hnext rfl
      exact ⟨_, Widget.not_along_cons rfl hc (by rwa [onAdvance_fields])⟩

theorem forall_along_spares_iff (hp : p.disposed = true) :
    (∀ es, Along widget.step widget.Spares p es) ↔ p.fields.Settled := by
  apply Widget.forall_along_spares_iff (fun s : StudentPage => s.Settled) hp
  · rintro s e c ⟨hwaiting, hreplies⟩ hscreen hc
    cases e with
    | save name age grade | delete index => cases hscreen
    | database e =>
      cases e with
      | run i => simp [widget, Viewing.advance, Viewing.run, hwaiting] at hc
      | answer => simp [widget, Viewing.advance, Viewing.answer, hreplies] at hc
  · exact fun s hs => exists_not_along hs

end StudentPage

end FlutterPractice.Students
