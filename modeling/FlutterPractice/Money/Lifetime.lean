import FlutterPractice.Machine.Lifetime
import FlutterPractice.Money.InitialLoad

/-! # The lifetime of the ledger

What `_loadData` reads is assigned inside `setState`, whether the page is still
there or not. The saves that go on behind a page do not call it.
-/

namespace FlutterPractice.Money

open Machine Lifetime

variable {DateTime : Type} (F : IsoFormat DateTime)

namespace Opening

/-- The button of the form; `_addEntry` calls `setState`, and then `_saveData`. -/
def onPressed (isEarning : Bool) (title amount : String) (entryDate : DateTime) :
    Callback (Opening DateTime) :=
  match accepted title amount with
  | none => .skip
  | some d => .setState fun s => { s with page := addEntry s.page title d entryDate isEarning }

/-- `_saveData` from its suspension on. -/
def onSave : Callback (Opening DateTime) := .modify fun s =>
  { s with page := { s.page with prefs := saveData F s.page, saves := s.page.saves - 1 } }

/-- `_loadData` from its suspension on. -/
def onLoad : Callback (Opening DateTime) :=
  .andThen (.modify fun s => { s with loaded := true })
    (.setState fun s => { s with page := load F s.page })

/-- `dispose` is the inherited one. -/
def widget : Widget (Opening DateTime) (OpeningEvent DateTime) where
  onScreen
    | .ledger (.onPressed _ _ _ _) => true
    | .ledger .saveData | .loadData => false
  callback s
    | .ledger (.onPressed isEarning title amount entryDate) =>
      some (onPressed isEarning title amount entryDate)
    | .ledger .saveData => if 0 < s.page.saves then some (onSave F) else none
    | .loadData => if s.loaded then none else some (onLoad F)
  dispose := .skip

def Late (_ : Opening DateTime) (e : OpeningEvent DateTime) : Prop := e = .loadData

variable {F} {s : Opening DateTime} {p : Page (Opening DateTime)}
  {es : List (Lifetime.Event (OpeningEvent DateTime))}

theorem step_mounted (s : Opening DateTime) (e : OpeningEvent DateTime) :
    (widget F).step ⟨s, false⟩ (.callback e) = (Opening.step F s e).map fun s => ⟨s, false⟩ := by
  rw [Widget.step_mounted]
  cases e with
  | ledger e =>
    cases e with
    | onPressed isEarning title amount entryDate =>
      simp only [widget, onPressed, Opening.step, Money.step, Money.onPressed, Option.map_some]
      cases accepted title amount <;> rfl
    | saveData =>
      simp only [widget, Opening.step, Money.step]
      split <;> rfl
  | loadData =>
    simp only [widget, Opening.step]
    split <;> rfl

theorem along_spares_iff :
    Along (widget F).step (widget F).Spares p es ↔ Along (widget F).step (Avoids Late) p es := by
  apply Widget.along_spares_iff
  intro s e c hscreen hc
  cases e with
  | ledger e =>
    cases e with
    | onPressed isEarning title amount entryDate => cases hscreen
    | saveData =>
      obtain ⟨-, hc⟩ := Option.ite_none_right_eq_some.mp hc
      obtain rfl := Option.some.inj hc
      simp [onSave, Late]
  | loadData =>
    obtain ⟨-, hc⟩ := Option.ite_none_left_eq_some.mp hc
    obtain rfl := Option.some.inj hc
    exact iff_of_true rfl rfl

theorem forall_along_spares_iff (hp : p.disposed = true) :
    (∀ es, Along (widget F).step (widget F).Spares p es) ↔ p.fields.loaded = true := by
  apply Widget.forall_along_spares_iff (fun s : Opening DateTime => s.loaded = true) hp
  · intro s e c hs hscreen hc
    cases e with
    | ledger e =>
      cases e with
      | onPressed isEarning title amount entryDate => cases hscreen
      | saveData =>
        obtain ⟨-, hc⟩ := Option.ite_none_right_eq_some.mp hc
        obtain rfl := Option.some.inj hc
        exact ⟨rfl, hs⟩
    | loadData => simp [widget, hs] at hc
  · intro s hs
    exact ⟨[.callback .loadData], Widget.not_along_singleton rfl (if_neg hs) rfl⟩

end Opening

end FlutterPractice.Money
