import FlutterPractice.Machine.Run

/-! # The lifetime of a page

The callbacks of a page as code over its fields. Once the page is disposed,
`setState` throws before it runs its function, but a source that is still there
calls its callback all the same. The page is spared if no callback that runs
behind its disposal calls `setState`.
-/

namespace Lifetime

open Machine

variable {σ ε : Type*}

/-- What a callback leaves, and whether it has called `setState` and ends with an exception. -/
structure Outcome (σ : Type*) where
  fields : σ
  called : Bool
  threw : Bool
  deriving DecidableEq

/-- Code that runs on a page, disposed or not. -/
def Callback (σ : Type*) := Bool → σ → Outcome σ

namespace Callback

def skip : Callback σ := fun _ s => ⟨s, false, false⟩

def throw : Callback σ := fun _ s => ⟨s, false, true⟩

def modify (f : σ → σ) : Callback σ := fun _ s => ⟨f s, false, false⟩

def setState (f : σ → σ) : Callback σ := fun disposed s =>
  if disposed then ⟨s, true, true⟩ else ⟨f s, true, false⟩

def andThen (first second : Callback σ) : Callback σ := fun disposed s =>
  let o := first disposed s
  if o.threw then o
  else
    let o' := second disposed o.fields
    { o' with called := o.called || o'.called }

/-- `try { body } catch { handler }` -/
def attempt (body handler : Callback σ) : Callback σ := fun disposed s =>
  let o := body disposed s
  if o.threw then
    let o' := handler disposed o.fields
    { o' with called := o.called || o'.called }
  else o

def branch (c : σ → Bool) (yes no : Callback σ) : Callback σ := fun disposed s =>
  if c s then yes disposed s else no disposed s

/-- `if (mounted) body` -/
def ifMounted (body : Callback σ) : Callback σ := fun disposed s =>
  if disposed then ⟨s, false, false⟩ else body disposed s

/-- The context of a page that is disposed throws, and so do the controllers that `dispose` has let
go of. -/
def useContext : Callback σ := fun disposed s => ⟨s, false, disposed⟩

/-- `try { body } finally { last }` -/
def lastly (body last : Callback σ) : Callback σ := fun disposed s =>
  let o := body disposed s
  let o' := last disposed o.fields
  ⟨o'.fields, o.called || o'.called, o.threw || o'.threw⟩

variable {f : σ → σ} {c : σ → Bool} {first second body handler yes no last : Callback σ}
  {disposed : Bool} {s : σ}

@[simp] theorem skip_apply : skip disposed s = ⟨s, false, false⟩ := rfl

@[simp] theorem throw_apply : throw disposed s = ⟨s, false, true⟩ := rfl

@[simp] theorem modify_apply : modify f disposed s = ⟨f s, false, false⟩ := rfl

@[simp] theorem setState_mounted : setState f false s = ⟨f s, true, false⟩ := rfl

@[simp] theorem setState_disposed : setState f true s = ⟨s, true, true⟩ := rfl

@[simp] theorem ifMounted_mounted : ifMounted body false s = body false s := rfl

@[simp] theorem ifMounted_disposed : ifMounted body true s = ⟨s, false, false⟩ := rfl

@[simp] theorem useContext_apply : useContext disposed s = ⟨s, false, disposed⟩ := rfl

/-- Nothing keeps the last block from running. -/
theorem lastly_setState_disposed (body : Callback σ) (s : σ) :
    (lastly body (setState f) true s).called = true := Bool.or_true _

theorem andThen_of_threw (h : (first disposed s).threw = true) :
    andThen first second disposed s = first disposed s := if_pos h

theorem andThen_of_returned (h : (first disposed s).threw = false) :
    andThen first second disposed s =
      { second disposed (first disposed s).fields with
        called := (first disposed s).called ||
          (second disposed (first disposed s).fields).called } := by
  simp only [andThen, h, Bool.false_eq_true, if_false]

@[simp] theorem modify_andThen : andThen (modify f) second disposed s = second disposed (f s) :=
  rfl

@[simp] theorem setState_andThen_disposed :
    andThen (setState f) second true s = ⟨s, true, true⟩ := rfl

@[simp] theorem setState_andThen_mounted :
    (andThen (setState f) second false s).fields = (second false (f s)).fields := rfl

end Callback

/-- The class of a page: which of its events come from the screen, the callback of an event that
can occur, and what `dispose` does. -/
structure Widget (σ ε : Type*) where
  onScreen : ε → Bool
  callback : σ → ε → Option (Callback σ)
  dispose : Callback σ

structure Page (σ : Type*) where
  fields : σ
  disposed : Bool
  deriving DecidableEq

inductive Event (ε : Type*) where
  | callback (e : ε)
  | dispose

def created (s : σ) : Page σ := ⟨s, false⟩

namespace Widget

/-- A disposed page gets no more events from the screen. -/
def step (W : Widget σ ε) (p : Page σ) : Event ε → Option (Page σ)
  | .callback e =>
    if p.disposed && W.onScreen e then none
    else (W.callback p.fields e).map fun c =>
      { p with fields := (c p.disposed p.fields).fields }
  | .dispose => if p.disposed then none else some ⟨(W.dispose false p.fields).fields, true⟩

def called (W : Widget σ ε) (p : Page σ) : Event ε → Bool
  | .callback e => (W.callback p.fields e).any fun c => (c p.disposed p.fields).called
  | .dispose => false

/-- No callback calls `setState` on a disposed page. -/
def Spares (W : Widget σ ε) (p : Page σ) (e : Event ε) (_ : Page σ) : Prop :=
  p.disposed = true → W.called p e = false

instance (W : Widget σ ε) (p t : Page σ) (e : Event ε) : Decidable (W.Spares p e t) :=
  inferInstanceAs (Decidable (_ → _))

end Widget

/-- No event of the kind comes to a disposed page. -/
def Avoids (Late : σ → ε → Prop) (p : Page σ) (e : Event ε) (_ : Page σ) : Prop :=
  p.disposed = true → ∀ e', e = .callback e' → ¬ Late p.fields e'

/-- A run spares the page iff no late event comes, and once the page is disposed, all runs do iff
it is quiet. -/
structure Widget.SparedIff (W : Widget σ ε) (Late : σ → ε → Prop) (Quiet : σ → Prop)
    (p : Page σ) : Prop where
  along : ∀ es, Along W.step W.Spares p es ↔ Along W.step (Avoids Late) p es
  forall_along : p.disposed = true → ((∀ es, Along W.step W.Spares p es) ↔ Quiet p.fields)

namespace Widget

variable {W : Widget σ ε} {p t : Page σ} {e : ε} {s : σ} {c : Callback σ} {es : List (Event ε)}
  {Late : σ → ε → Prop}

theorem step_mounted (W : Widget σ ε) (s : σ) (e : ε) : W.step ⟨s, false⟩ (.callback e) =
    (W.callback s e).map fun c => ⟨(c false s).fields, false⟩ := rfl

theorem step_disposed (hp : p.disposed = true) (ht : W.step p (.callback e) = some t) :
    W.onScreen e = false ∧ ∃ c, W.callback p.fields e = some c ∧
      t = ⟨(c true p.fields).fields, true⟩ := by
  obtain ⟨hscreen, ht⟩ := Option.ite_none_left_eq_some.mp ht
  obtain ⟨c, hc, rfl⟩ := Option.map_eq_some_iff.mp ht
  rw [hp, Bool.true_and, Bool.not_eq_true] at hscreen
  exact ⟨hscreen, c, hc, by rw [hp]⟩

theorem disposed_step (ht : W.step p (.callback e) = some t) : t.disposed = p.disposed := by
  obtain ⟨-, ht⟩ := Option.ite_none_left_eq_some.mp ht
  obtain ⟨c, -, rfl⟩ := Option.map_eq_some_iff.mp ht
  rfl

theorem called_of_callback (hc : W.callback p.fields e = some c) :
    W.called p (.callback e) = (c p.disposed p.fields).called := by
  rw [called, hc, Option.any_some]

/-- A page is spared along a run iff no event of the kinds that call `setState` comes late. -/
theorem along_spares_iff (hlate : ∀ s e c, W.onScreen e = false → W.callback s e = some c →
      ((c true s).called = true ↔ Late s e)) :
    Along W.step W.Spares p es ↔ Along W.step (Avoids Late) p es := by
  apply along_congr (I := fun _ => True) trivial
  intro p e t _ ht
  refine ⟨forall_congr' fun hp => ?_, fun _ => trivial⟩
  cases e with
  | dispose => simp [called]
  | callback e =>
    obtain ⟨hscreen, c, hc, -⟩ := step_disposed hp ht
    have hiff := hlate p.fields e c hscreen hc
    rw [called_of_callback hc, hp, ← Bool.not_eq_true, hiff]
    constructor
    · rintro hnot e' ⟨⟩
      exact hnot
    · intro hnot
      exact hnot e rfl

theorem not_along_singleton (hscreen : W.onScreen e = false) (hc : W.callback s e = some c)
    (hcalled : (c true s).called = true) :
    ¬ Along W.step W.Spares ⟨s, true⟩ [.callback e] := by
  intro h
  have ht : W.step ⟨s, true⟩ (.callback e) = some ⟨(c true s).fields, true⟩ := by
    simp [step, hscreen, hc]
  have hspared := (h _ ht).1 rfl
  rw [called_of_callback hc, hcalled] at hspared
  cases hspared

theorem not_along_cons (hscreen : W.onScreen e = false) (hc : W.callback s e = some c)
    (h : ¬ Along W.step W.Spares ⟨(c true s).fields, true⟩ es) :
    ¬ Along W.step W.Spares ⟨s, true⟩ (.callback e :: es) := by
  intro hes
  have ht : W.step ⟨s, true⟩ (.callback e) = some ⟨(c true s).fields, true⟩ := by
    simp [step, hscreen, hc]
  exact h (hes _ ht).2

theorem forall_along_spares_iff (Quiet : σ → Prop) (hp : p.disposed = true)
    (hquiet : ∀ s e c, Quiet s → W.onScreen e = false → W.callback s e = some c →
      (c true s).called = false ∧ Quiet (c true s).fields)
    (hbusy : ∀ s, ¬ Quiet s → ∃ es, ¬ Along W.step W.Spares ⟨s, true⟩ es) :
    (∀ es, Along W.step W.Spares p es) ↔ Quiet p.fields := by
  obtain ⟨s, disposed⟩ := p
  obtain rfl : disposed = true := hp
  constructor
  · intro h
    by_contra hnot
    obtain ⟨es, hes⟩ := hbusy s hnot
    exact hes (h es)
  · intro hs es
    apply along_true.of_invariant (I := fun p => p.disposed = true ∧ Quiet p.fields) ⟨rfl, hs⟩
    rintro p e t ⟨hp, hs⟩ - ht
    cases e with
    | dispose => simp [step, hp] at ht
    | callback e =>
      obtain ⟨hscreen, c, hc, rfl⟩ := step_disposed hp ht
      obtain ⟨hcalled, hnext⟩ := hquiet p.fields e c hs hscreen hc
      refine ⟨fun _ => ?_, rfl, hnext⟩
      rw [called_of_callback hc, hp, hcalled]

end Widget

end Lifetime
