import Mathlib.Data.Int.Notation
import Mathlib.Data.List.Basic
import FlutterPractice.Machine.Run

/-! # Overlapping payments over one payment sheet

Each tap on a pay button starts a flow: create a payment intent, configure the
payment sheet, present it. The SDK holds one sheet for the whole app, so the
flows meet there. Every reply may arrive at any later time and in any order.
-/

namespace FlutterPractice.Stripe

open Machine

inductive Button | pay10 | pay99 | pay990
  deriving DecidableEq, Repr

def Button.amount : Button → ℤ
  | .pay10 => 10
  | .pay99 => 99
  | .pay990 => 990

def currency : String := "usd"
def merchantName : String := "Majid Store"

structure IntentBody where
  amount : String
  currency : String
  paymentMethodTypes : String
  deriving DecidableEq

def createPaymentIntent (amount : ℤ) (currency : String) : IntentBody where
  amount := toString (amount * 100)
  currency := currency
  paymentMethodTypes := "card"

/-- A payment intent of the server, with the flow whose request created it. Its position in the
server's list is its client secret. -/
structure PaymentIntent where
  body : IntentBody
  createdBy : ℕ
  deriving DecidableEq

structure SheetParameters where
  paymentIntentClientSecret : ℕ
  merchantDisplayName : String
  deriving DecidableEq

/-- Where the handler of a tap is suspended, or how it ended. -/
inductive Phase where
  | creatingIntent
  | configuring (clientSecret : ℕ)
  | configured
  | presenting
  | presented (sheet : Option SheetParameters)
  | succeeded
  | failed
  deriving DecidableEq

structure Flow where
  amount : ℤ
  currency : String
  phase : Phase
  deriving DecidableEq

/-- The flows in the order of their taps, the server's intents, and the sheet of the SDK. -/
structure State where
  flows : List Flow
  intents : List PaymentIntent
  sheet : Option SheetParameters
  deriving DecidableEq

inductive Event where
  | tap (b : Button)
  | intentCreated (f : ℕ)
  | intentFailed (f : ℕ)
  | initExecuted (f : ℕ)
  | initReturned (f : ℕ)
  | initFailed (f : ℕ)
  | presentExecuted (f : ℕ)
  | presentReturned (f : ℕ) (ok : Bool)
  deriving DecidableEq

def initial : State := ⟨[], [], none⟩

def State.setPhase (s : State) (f : ℕ) (flow : Flow) (phase : Phase) : State :=
  { s with flows := s.flows.set f { flow with phase := phase } }

def step (s : State) : Event → Option State
  | .tap b => some { s with flows := s.flows ++ [⟨b.amount, currency, .creatingIntent⟩] }
  | .intentCreated f => s.flows[f]?.bind fun flow =>
    match flow.phase with
    | .creatingIntent =>
      some { s.setPhase f flow (.configuring s.intents.length) with
        intents := s.intents ++ [⟨createPaymentIntent flow.amount flow.currency, f⟩] }
    | _ => none
  | .intentFailed f => s.flows[f]?.bind fun flow =>
    match flow.phase with
    | .creatingIntent => some (s.setPhase f flow .failed)
    | _ => none
  | .initExecuted f => s.flows[f]?.bind fun flow =>
    match flow.phase with
    | .configuring secret =>
      some { s.setPhase f flow .configured with sheet := some ⟨secret, merchantName⟩ }
    | _ => none
  | .initReturned f => s.flows[f]?.bind fun flow =>
    match flow.phase with
    | .configured => some (s.setPhase f flow .presenting)
    | _ => none
  | .initFailed f => s.flows[f]?.bind fun flow =>
    match flow.phase with
    | .configuring _ | .configured => some (s.setPhase f flow .failed)
    | _ => none
  | .presentExecuted f => s.flows[f]?.bind fun flow =>
    match flow.phase with
    | .presenting => some (s.setPhase f flow (.presented s.sheet))
    | _ => none
  | .presentReturned f ok => s.flows[f]?.bind fun flow =>
    match flow.phase with
    | .presented _ => some (s.setPhase f flow (if ok then .succeeded else .failed))
    | _ => none

/-- The sheet on screen for a flow. -/
def Flow.shown (flow : Flow) : Option SheetParameters :=
  match flow.phase with
  | .presented sheet => sheet
  | _ => none

/-- The sheet on screen for flow `f` is for an intent that `f` created, with `amount * 100` in the
currency of the flow. -/
def OwnSheet (s : State) (f : ℕ) : Prop :=
  ∃ flow ∈ s.flows[f]?, ∃ sheet ∈ flow.shown,
    ∃ intent ∈ s.intents[sheet.paymentIntentClientSecret]?,
      intent.body.amount = toString (flow.amount * 100) ∧ intent.body.currency = flow.currency ∧
        intent.createdBy = f

def Event.presents : Event → Option ℕ
  | .presentExecuted f => some f
  | _ => none

def Event.configures : Event → Option ℕ
  | .initExecuted f => some f
  | _ => none

def PresentsOwn (_ : State) (e : Event) (t : State) : Prop :=
  ∀ f ∈ e.presents, OwnSheet t f

instance (s : State) (e : Event) (t : State) : Decidable (PresentsOwn s e t) :=
  inferInstanceAs (Decidable (∀ f ∈ e.presents, ∃ flow ∈ t.flows[f]?, ∃ sheet ∈ flow.shown,
    ∃ intent ∈ t.intents[sheet.paymentIntentClientSecret]?, _ = _ ∧ _ = _ ∧ _ = _))

/-- The flow whose configuration of the sheet was executed last. -/
def lastConfigured (es : List Event) : Option ℕ := (es.filterMap Event.configures).getLast?

inductive Move (s : State) : Event → State → Prop where

  | tap (b : Button) : Move s (.tap b)
      { s with flows := s.flows ++ [⟨b.amount, currency, .creatingIntent⟩] }

  | intentCreated {f : ℕ} {flow : Flow} : s.flows[f]? = some flow →
      flow.phase = .creatingIntent → Move s (.intentCreated f)
      { s.setPhase f flow (.configuring s.intents.length) with
        intents := s.intents ++ [⟨createPaymentIntent flow.amount flow.currency, f⟩] }

  | intentFailed {f : ℕ} {flow : Flow} : s.flows[f]? = some flow →
      flow.phase = .creatingIntent → Move s (.intentFailed f) (s.setPhase f flow .failed)

  | initExecuted {f : ℕ} {flow : Flow} {secret : ℕ} : s.flows[f]? = some flow →
      flow.phase = .configuring secret → Move s (.initExecuted f)
      { s.setPhase f flow .configured with sheet := some ⟨secret, merchantName⟩ }

  | initReturned {f : ℕ} {flow : Flow} : s.flows[f]? = some flow →
      flow.phase = .configured → Move s (.initReturned f) (s.setPhase f flow .presenting)

  | initFailed {f : ℕ} {flow : Flow} : s.flows[f]? = some flow →
      Move s (.initFailed f) (s.setPhase f flow .failed)

  | presentExecuted {f : ℕ} {flow : Flow} : s.flows[f]? = some flow →
      flow.phase = .presenting → Move s (.presentExecuted f)
      (s.setPhase f flow (.presented s.sheet))

  | presentReturned {f : ℕ} {flow : Flow} {ok : Bool} : s.flows[f]? = some flow →
      Move s (.presentReturned f ok) (s.setPhase f flow (if ok then .succeeded else .failed))

theorem step_move {s t : State} {e : Event} (h : step s e = some t) : Move s e t := by
  cases e with
  | tap b =>
    obtain rfl := Option.some.inj h
    exact .tap b
  | intentCreated f =>
    obtain ⟨flow, hf, h⟩ := Option.bind_eq_some_iff.mp h
    cases hp : flow.phase <;> simp only [hp, reduceCtorEq, Option.some.injEq] at h
    exact h ▸ .intentCreated hf hp
  | intentFailed f =>
    obtain ⟨flow, hf, h⟩ := Option.bind_eq_some_iff.mp h
    cases hp : flow.phase <;> simp only [hp, reduceCtorEq, Option.some.injEq] at h
    exact h ▸ .intentFailed hf hp
  | initExecuted f =>
    obtain ⟨flow, hf, h⟩ := Option.bind_eq_some_iff.mp h
    cases hp : flow.phase <;> simp only [hp, reduceCtorEq, Option.some.injEq] at h
    exact h ▸ .initExecuted hf hp
  | initReturned f =>
    obtain ⟨flow, hf, h⟩ := Option.bind_eq_some_iff.mp h
    cases hp : flow.phase <;> simp only [hp, reduceCtorEq, Option.some.injEq] at h
    exact h ▸ .initReturned hf hp
  | initFailed f =>
    obtain ⟨flow, hf, h⟩ := Option.bind_eq_some_iff.mp h
    cases hp : flow.phase <;> simp only [hp, reduceCtorEq, Option.some.injEq] at h
    · exact h ▸ .initFailed hf
    · exact h ▸ .initFailed hf
  | presentExecuted f =>
    obtain ⟨flow, hf, h⟩ := Option.bind_eq_some_iff.mp h
    cases hp : flow.phase <;> simp only [hp, reduceCtorEq, Option.some.injEq] at h
    exact h ▸ .presentExecuted hf hp
  | presentReturned f ok =>
    obtain ⟨flow, hf, h⟩ := Option.bind_eq_some_iff.mp h
    cases hp : flow.phase <;> simp only [hp, reduceCtorEq, Option.some.injEq] at h
    exact h ▸ .presentReturned hf

/-- Flow `g` is owed the intent with this secret. -/
def Owns (s : State) (g secret : ℕ) : Prop :=
  ∃ flow, s.flows[g]? = some flow ∧
    s.intents[secret]? = some ⟨createPaymentIntent flow.amount flow.currency, g⟩

theorem Owns.createdBy {s : State} {g c : ℕ} {intent : PaymentIntent} (h : Owns s g c)
    (hi : s.intents[c]? = some intent) : intent.createdBy = g := by
  obtain ⟨flow, -, hown⟩ := h
  rw [hi, Option.some.injEq] at hown
  exact congrArg PaymentIntent.createdBy hown

/-- A flow keeps its amount and currency, and the server keeps its intents. -/
structure Keeps (s t : State) : Prop where
  flows : ∀ (f : ℕ) (flow : Flow), s.flows[f]? = some flow →
    ∃ flow' : Flow, t.flows[f]? = some flow' ∧ flow'.amount = flow.amount ∧
      flow'.currency = flow.currency
  intents : ∀ (c : ℕ) (intent : PaymentIntent), s.intents[c]? = some intent →
    t.intents[c]? = some intent

theorem keeps_setPhase {s : State} {f : ℕ} {flow : Flow} (hf : s.flows[f]? = some flow)
    (phase : Phase) : Keeps s (s.setPhase f flow phase) where
  flows g flow' hg := by
    obtain ⟨hlt, _⟩ := List.getElem?_eq_some_iff.mp hf
    by_cases he : f = g
    · subst he
      rw [hf] at hg
      obtain rfl := Option.some.inj hg
      exact ⟨{ flow with phase := phase }, by simp [State.setPhase, hlt], rfl, rfl⟩
    · exact ⟨flow', by simp [State.setPhase, List.getElem?_set_ne he, hg], rfl, rfl⟩
  intents _ _ h := h

theorem Move.keeps {s t : State} {e : Event} (h : Move s e t) : Keeps s t := by
  cases h with
  | tap b =>
    exact ⟨fun f flow hf => ⟨flow, by simp [List.getElem?_append_left
      (List.getElem?_eq_some_iff.mp hf).1, hf], rfl, rfl⟩, fun _ _ h => h⟩
  | intentCreated hf hp =>
    refine ⟨(keeps_setPhase hf _).flows, fun c intent hc => ?_⟩
    show (s.intents ++ _)[c]? = some intent
    rw [List.getElem?_append_left (List.getElem?_eq_some_iff.mp hc).1, hc]
  | initExecuted hf hp => exact ⟨(keeps_setPhase hf _).flows, fun _ _ h => h⟩
  | intentFailed hf | initReturned hf | initFailed hf | presentExecuted hf | presentReturned hf =>
    exact keeps_setPhase hf _

theorem Keeps.owns {s t : State} (h : Keeps s t) {g c : ℕ} (ho : Owns s g c) : Owns t g c := by
  obtain ⟨flow, hf, hi⟩ := ho
  obtain ⟨flow', hf', ha, hc⟩ := h.flows g flow hf
  exact ⟨flow', hf', by rw [ha, hc]; exact h.intents c _ hi⟩

/-- The sheet after a run, told from its events. -/
structure Configured (es : List Event) (s : State) : Prop where
  configuring : ∀ (f : ℕ) (flow : Flow) (c : ℕ), s.flows[f]? = some flow →
    flow.phase = .configuring c → Owns s f c
  sheet : lastConfigured es = none ∧ s.sheet = none ∨ ∃ g params, lastConfigured es = some g ∧
    s.sheet = some params ∧ Owns s g params.paymentIntentClientSecret

theorem lastConfigured_append (es : List Event) (e : Event) :
    lastConfigured (es ++ [e]) = e.configures.or (lastConfigured es) := by
  cases h : e.configures <;> simp [lastConfigured, List.filterMap_append, h]

theorem Configured.sheet_step {es : List Event} {s t : State} {e : Event} (h : Configured es s)
    (hk : Keeps s t) (he : e.configures = none) (ht : t.sheet = s.sheet) :
    lastConfigured (es ++ [e]) = none ∧ t.sheet = none ∨
      ∃ g params, lastConfigured (es ++ [e]) = some g ∧ t.sheet = some params ∧
        Owns t g params.paymentIntentClientSecret := by
  rw [lastConfigured_append, he, Option.none_or, ht]
  rcases h.sheet with hn | ⟨g, params, hg, hs, ho⟩
  · exact Or.inl hn
  · exact Or.inr ⟨g, params, hg, hs, hk.owns ho⟩

theorem Configured.configuring_setPhase {es : List Event} {s t : State} (h : Configured es s)
    (hk : Keeps s t) {f : ℕ} {flow : Flow} {phase : Phase} (hp : ∀ c, phase ≠ .configuring c)
    (ht : t.flows = s.flows.set f { flow with phase := phase }) (g : ℕ) (flow' : Flow) (c : ℕ)
    (hg : t.flows[g]? = some flow') (hc : flow'.phase = .configuring c) : Owns t g c := by
  rw [ht, List.getElem?_set] at hg
  split at hg
  · split at hg
    · obtain rfl := Option.some.inj hg
      exact (hp c hc).elim
    · cases hg
  · exact hk.owns (h.configuring g flow' c hg hc)

theorem Configured.move {es : List Event} {s t : State} {e : Event} (h : Configured es s)
    (hm : Move s e t) : Configured (es ++ [e]) t := by
  have hk := hm.keeps
  cases hm with
  | tap b =>
    refine ⟨fun f flow c hf hc => ?_, h.sheet_step hk rfl rfl⟩
    rcases Nat.lt_or_ge f s.flows.length with hlt | hge
    · rw [List.getElem?_append_left hlt] at hf
      exact hk.owns (h.configuring f flow c hf hc)
    · rw [List.getElem?_append_right hge] at hf
      obtain rfl := List.mem_singleton.mp (List.mem_of_getElem? hf)
      cases hc
  | @intentCreated f flow hf hp =>
    refine ⟨fun g flow' c hg hc => ?_, h.sheet_step hk rfl rfl⟩
    have hflows : (s.setPhase f flow (.configuring s.intents.length)).flows[g]? = some flow' := hg
    simp only [State.setPhase, List.getElem?_set] at hflows
    split at hflows
    · rename_i he
      subst he
      split at hflows
      · obtain rfl := Option.some.inj hflows
        obtain rfl := Phase.configuring.inj hc
        exact ⟨_, hg, by simp⟩
      · cases hflows
    · exact hk.owns (h.configuring g flow' c hflows hc)
  | @initExecuted f flow secret hf hp =>
    refine ⟨h.configuring_setPhase hk (by simp) rfl,
      Or.inr ⟨f, ⟨secret, merchantName⟩, ?_, rfl, ?_⟩⟩
    · rw [lastConfigured_append]; rfl
    · exact hk.owns (h.configuring _ _ _ hf hp)
  | presentReturned hf =>
    refine ⟨h.configuring_setPhase hk (fun c => ?_) rfl, h.sheet_step hk rfl rfl⟩
    split <;> simp
  | intentFailed hf | initReturned hf | initFailed hf | presentExecuted hf =>
    exact ⟨h.configuring_setPhase hk (by simp) rfl, h.sheet_step hk rfl rfl⟩

theorem configured_of_exec {es : List Event} {s : State} (h : exec step initial es = some s) :
    Configured es s := by
  apply exec_history (H := Configured) _ (fun es s e t hs ht => hs.move (step_move ht)) h
  exact ⟨fun f flow c hf => by simp [initial] at hf, Or.inl ⟨rfl, rfl⟩⟩

/-- The sheet presented to flow `f` is its own exactly when `f` configured the sheet last. -/
theorem Configured.ownSheet_iff {es : List Event} {s t : State} {f : ℕ} (h : Configured es s)
    (ht : step s (.presentExecuted f) = some t) : OwnSheet t f ↔ lastConfigured es = some f := by
  cases step_move ht with
  | @presentExecuted _ flow hf hp =>
    obtain ⟨hlt, _⟩ := List.getElem?_eq_some_iff.mp hf
    have hget : (s.setPhase f flow (.presented s.sheet)).flows[f]? =
        some { flow with phase := .presented s.sheet } := by
      simp [State.setPhase, hlt]
    constructor
    · rintro ⟨flow', hf', sheet, hs, intent, hi, -, -, hcreated⟩
      obtain rfl := Option.some.inj (hget.symm.trans hf')
      have hs : s.sheet = some sheet := hs
      rcases h.sheet with ⟨_, hn⟩ | ⟨g, params, hg, hp, ho⟩
      · rw [hn] at hs
        cases hs
      · obtain rfl := Option.some.inj (hp.symm.trans hs)
        rw [hg, ← hcreated, ho.createdBy hi]
    · intro hl
      rcases h.sheet with ⟨hn, _⟩ | ⟨g, params, hg, hs, flow', hf', hi⟩
      · rw [hn] at hl
        cases hl
      · obtain rfl := Option.some.inj (hg.symm.trans hl)
        obtain rfl := Option.some.inj (hf.symm.trans hf')
        exact ⟨_, hget, params, hs, _, hi, rfl, rfl, rfl⟩

/--
A run presents only sheets of the presenting flow exactly when, at each presentation, that flow's
own configuration of the sheet was the last one executed.
-/
theorem presents_own_iff {es : List Event} {s : State} (h : exec step initial es = some s) :
    Along step PresentsOwn initial es ↔
      ∀ pre f post, es = pre ++ .presentExecuted f :: post → lastConfigured pre = some f := by
  rw [along_iff]
  constructor
  · rintro ha pre f post rfl
    obtain ⟨u, hu, hs⟩ := exec_append_eq_some.mp h
    obtain ⟨v, hv, _⟩ := exec_cons.mp hs
    have ho : OwnSheet v f := ha pre _ post u v rfl hu hv f rfl
    exact ((configured_of_exec hu).ownSheet_iff hv).mp ho
  · rintro hl pre e post u v rfl hu hv f hf
    cases e with
    | presentExecuted g =>
      obtain rfl := Option.some.inj hf
      exact ((configured_of_exec hu).ownSheet_iff hv).mpr (hl pre g post rfl)
    | _ => cases hf

/-- One payment after the other. -/
theorem presents_own_iff_sequential :
    let es := [.tap .pay10, .intentCreated 0, .initExecuted 0, .initReturned 0, .presentExecuted 0,
      .presentReturned 0 true, .tap .pay990, .intentCreated 1, .initExecuted 1, .initReturned 1,
      .presentExecuted 1]
    exec step initial es = some ⟨[⟨10, "usd", .succeeded⟩,
        ⟨990, "usd", .presented (some ⟨1, "Majid Store"⟩)⟩],
      [⟨⟨"1000", "usd", "card"⟩, 0⟩, ⟨⟨"99000", "usd", "card"⟩, 1⟩], some ⟨1, "Majid Store"⟩⟩ ∧
    Along step PresentsOwn initial es ∧
    (Along step PresentsOwn initial es ↔
      ∀ pre f post, es = pre ++ .presentExecuted f :: post → lastConfigured pre = some f) := by
  intro es
  have hrun : exec step initial es = some _ := rfl
  exact ⟨by decide, by decide, presents_own_iff hrun⟩

/-- The sheet for $990 is configured between the configuration for $10 and its presentation. -/
theorem overlapping_not_own :
    ¬ Along step PresentsOwn initial [.tap .pay10, .tap .pay990, .intentCreated 0,
      .intentCreated 1, .initExecuted 0, .initExecuted 1, .initReturned 0, .presentExecuted 0] := by
  decide

end FlutterPractice.Stripe
