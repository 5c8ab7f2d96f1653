import Mathlib
import FlutterPractice.Stripe.PaymentSheet

/-! # What every tap on a pay button comes to

The handlers of all taps run at once, but each of them only goes forward, and
its end shows one snack bar. The account of a run is read off its events: which
tap each intent was created for, whose sheet a successful tap was shown, and
how much is left to do.
-/

namespace FlutterPractice.Stripe

open Machine

inductive Message | successful | failed
  deriving DecidableEq, Repr

def Event.tapped : Event → Option Button
  | .tap b => some b
  | _ => none

def Event.messages : Event → List (ℕ × Message)
  | .intentFailed f | .initFailed f => [(f, .failed)]
  | .presentReturned f ok => [(f, if ok then .successful else .failed)]
  | _ => []

def taps (es : List Event) : List Button := es.filterMap Event.tapped

def messagesOf (es : List Event) (f : ℕ) : List Message :=
  (es.flatMap Event.messages).filterMap fun m => if m.1 = f then some m.2 else none

namespace Phase

def messages : Phase → List Message
  | .succeeded => [.successful]
  | .failed => [.failed]
  | _ => []

/-- The events a handler still waits for, at most. -/
def work : Phase → ℕ
  | .creatingIntent => 5
  | .configuring _ => 4
  | .configured => 3
  | .presenting => 2
  | .presented _ => 1
  | .succeeded | .failed => 0

/-- The statements of the handler in their order, with its catch clause. -/
def Leads : Phase → Phase → Prop
  | .creatingIntent, .configuring _ | .configuring _, .configured | .configured, .presenting
  | .presenting, .presented _ | .presented _, .succeeded => True
  | .creatingIntent, .failed | .configuring _, .failed | .configured, .failed
  | .presented _, .failed => True
  | _, _ => False

theorem Leads.work_lt {p q : Phase} (h : p.Leads q) : q.work < p.work := by
  cases p <;> cases q <;> simp_all [Leads, work]

theorem Leads.messages_eq_nil {p q : Phase} (h : p.Leads q) : p.messages = [] := by
  cases p <;> cases q <;> simp_all [Leads, messages]

theorem Leads.presented {p : Phase} (h : p.Leads .succeeded) : ∃ sheet, p = .presented sheet := by
  cases p <;> simp_all [Leads]

theorem messages_of_work_eq_zero {p : Phase} (h : p.work = 0) : p.messages.length = 1 := by
  cases p <;> simp_all [work, messages]

theorem length_messages_le (p : Phase) : p.messages.length ≤ 1 := by
  cases p <;> simp [messages]

end Phase

def State.work (s : State) : ℕ := (s.flows.map fun flow => flow.phase.work).sum

/-- A step is a tap, or takes the handler of one tap forward. -/
inductive Turn (s : State) (e : Event) (t : State) : Prop where

  | tap (b : Button) : e.tapped = some b → e.messages = [] →
      t.flows = s.flows ++ [⟨b.amount, currency, .creatingIntent⟩] → Turn s e t

  | forward (f : ℕ) (flow : Flow) (phase : Phase) : s.flows[f]? = some flow →
      t.flows = s.flows.set f { flow with phase := phase } → flow.phase.Leads phase →
      e.tapped = none → e.messages = phase.messages.map (f, ·) → Turn s e t

theorem step_turn {s t : State} {e : Event} (h : step s e = some t) : Turn s e t := by
  cases e with
  | tap b =>
    obtain rfl := Option.some.inj h
    exact .tap b rfl rfl rfl
  | presentReturned f ok =>
    obtain ⟨flow, hf, h⟩ := Option.bind_eq_some_iff.mp h
    cases hp : flow.phase <;> simp only [hp, reduceCtorEq, Option.some.injEq] at h
    subst h
    cases ok
    · exact .forward f flow .failed hf rfl (by simp [hp, Phase.Leads]) rfl rfl
    · exact .forward f flow .succeeded hf rfl (by simp [hp, Phase.Leads]) rfl rfl
  | intentCreated f | intentFailed f | initExecuted f | initReturned f | initFailed f
  | presentExecuted f =>
    obtain ⟨flow, hf, h⟩ := Option.bind_eq_some_iff.mp h
    cases hp : flow.phase <;> simp only [hp, reduceCtorEq, Option.some.injEq] at h
    all_goals
      subst h
      exact .forward f flow _ hf rfl (by simp [hp, Phase.Leads]) rfl rfl

/-- A handler that has not ended can go on, and without an error. -/
theorem exists_step {s : State} {f : ℕ} {flow : Flow} (hf : s.flows[f]? = some flow)
    (hw : flow.phase.work ≠ 0) : ∃ e t, step s e = some t ∧ e.tapped = none ∧
      ∀ m ∈ e.messages, m.2 = .successful := by
  cases hp : flow.phase with
  | creatingIntent =>
    exact ⟨.intentCreated f, { s.setPhase f flow (.configuring s.intents.length) with
      intents := s.intents ++ [⟨createPaymentIntent flow.amount flow.currency, f⟩] },
      by simp [step, hf, hp], rfl, by simp [Event.messages]⟩
  | configuring c =>
    exact ⟨.initExecuted f, { s.setPhase f flow .configured with sheet := some ⟨c, merchantName⟩ },
      by simp [step, hf, hp], rfl, by simp [Event.messages]⟩
  | configured =>
    exact ⟨.initReturned f, s.setPhase f flow .presenting,
      by simp [step, hf, hp], rfl, by simp [Event.messages]⟩
  | presenting =>
    exact ⟨.presentExecuted f, s.setPhase f flow (.presented s.sheet),
      by simp [step, hf, hp], rfl, by simp [Event.messages]⟩
  | presented sheet =>
    exact ⟨.presentReturned f true, s.setPhase f flow .succeeded,
      by simp [step, hf, hp], rfl, by simp [Event.messages]⟩
  | succeeded | failed => simp [hp, Phase.work] at hw

/-! ### The messages and the work left -/

/-- What the events of a run say about its flows. -/
structure Accounted (es : List Event) (s : State) : Prop where
  amounts : s.flows.map Flow.amount = (taps es).map Button.amount
  currencies : ∀ flow ∈ s.flows, flow.currency = currency
  messages : ∀ f, messagesOf es f = s.flows[f]?.elim [] fun flow => flow.phase.messages
  work : es.length + s.work ≤ 6 * (taps es).length

theorem Accounted.length_flows {es : List Event} {s : State} (h : Accounted es s) :
    s.flows.length = (taps es).length := by
  simpa using congrArg List.length h.amounts

theorem messagesOf_append (es fs : List Event) (f : ℕ) :
    messagesOf (es ++ fs) f = messagesOf es f ++ messagesOf fs f := by
  simp [messagesOf]

theorem messagesOf_singleton {e : Event} {ms : List Message} {f : ℕ}
    (h : e.messages = ms.map (f, ·)) (g : ℕ) : messagesOf [e] g = if f = g then ms else [] := by
  have hall : ∀ ms : List Message, (ms.map (f, ·)).filterMap
      (fun m : ℕ × Message => if m.1 = g then some m.2 else none) = if f = g then ms else [] := by
    intro ms
    induction ms with
    | nil => simp
    | cons m ms ih =>
      split at ih <;> rename_i hg <;> simp_all
  simp [messagesOf, h, hall]

theorem messagesOf_of_messages_eq_nil {e : Event} (h : e.messages = []) (f : ℕ) :
    messagesOf [e] f = [] := by
  simp [messagesOf, h]

theorem taps_append (es : List Event) (e : Event) :
    taps (es ++ [e]) = taps es ++ e.tapped.toList := by
  cases h : e.tapped <;> simp [taps, List.filterMap_append, h]

theorem work_set {flows : List Flow} {f : ℕ} {flow flow' : Flow} (hf : flows[f]? = some flow)
    (hlt : flow'.phase.work < flow.phase.work) :
    ((flows.set f flow').map fun flow => flow.phase.work).sum + 1 ≤
      (flows.map fun flow => flow.phase.work).sum := by
  induction flows generalizing f with
  | nil => simp at hf
  | cons a flows ih =>
    cases f with
    | zero =>
      obtain rfl := Option.some.inj hf
      simp only [List.set_cons_zero, List.map_cons, List.sum_cons]
      omega
    | succ f =>
      have := ih (f := f) (by simpa using hf)
      simp only [List.set_cons_succ, List.map_cons, List.sum_cons]
      omega

theorem work_lt {s t : State} {e : Event} (h : step s e = some t) (he : e.tapped = none) :
    t.work < s.work := by
  cases step_turn h with
  | tap b hb => simp [he] at hb
  | forward f flow phase hf hflows hleads =>
    rw [State.work, hflows]
    exact work_set hf hleads.work_lt

theorem Accounted.step {es : List Event} {s t : State} {e : Event} (h : Accounted es s)
    (ht : step s e = some t) : Accounted (es ++ [e]) t := by
  cases step_turn ht with
  | tap b he hm hflows =>
    refine ⟨?_, ?_, fun f => ?_, ?_⟩
    · simp [hflows, taps_append, he, h.amounts]
    · intro flow hflow
      rw [hflows, List.mem_append, List.mem_singleton] at hflow
      rcases hflow with hflow | rfl
      · exact h.currencies flow hflow
      · rfl
    · rw [messagesOf_append, h.messages, messagesOf_of_messages_eq_nil hm, List.append_nil, hflows]
      rcases Nat.lt_trichotomy f s.flows.length with hlt | rfl | hgt
      · rw [List.getElem?_append_left hlt]
      · simp [Phase.messages]
      · rw [List.getElem?_eq_none (by omega), List.getElem?_eq_none (by simp; omega)]
    · have := h.work
      simp only [State.work, hflows, taps_append, he, List.length_append, List.map_append,
        List.sum_append, List.map_cons, List.map_nil, List.sum_cons, List.sum_nil, Phase.work,
        List.length_singleton, Option.toList_some] at this ⊢
      omega
  | forward f flow phase hf hflows hleads he hm =>
    have htaps : taps (es ++ [e]) = taps es := by simp [taps_append, he]
    obtain ⟨hlt, hget⟩ := List.getElem?_eq_some_iff.mp hf
    refine ⟨?_, ?_, fun g => ?_, ?_⟩
    · rw [htaps, ← h.amounts, hflows, List.map_set]
      subst hget
      show (s.flows.map Flow.amount).set f (Flow.amount s.flows[f]) = _
      rw [← List.map_set, List.set_getElem_self]
    · intro flow' hflow
      rw [hflows] at hflow
      rcases List.mem_or_eq_of_mem_set hflow with hflow | rfl
      · exact h.currencies flow' hflow
      · exact h.currencies flow (List.mem_of_getElem? hf)
    · rw [messagesOf_append, h.messages, messagesOf_singleton hm, hflows]
      by_cases hg : f = g
      · subst hg
        simp [hlt, hget, hleads.messages_eq_nil]
      · simp [List.getElem?_set_ne hg, hg]
    · have hlt := work_lt ht he
      have hwork := h.work
      rw [htaps, List.length_append, List.length_singleton]
      omega

theorem accounted_of_exec {es : List Event} {s : State} (h : exec step initial es = some s) :
    Accounted es s := by
  apply exec_history (H := Accounted) _ (fun es s e t hs ht => hs.step ht) h
  exact ⟨rfl, by simp [initial], fun f => by simp [initial, messagesOf], by decide⟩

/-! ### The intents and the sheets -/

/-- `f` was presented this sheet: the one that `g` configured last, for an intent of its own. -/
def PresentedFor (es : List Event) (s : State) (f : ℕ) (sheet : Option SheetParameters) : Prop :=
  ∃ pre post g params, es = pre ++ .presentExecuted f :: post ∧ lastConfigured pre = some g ∧
    sheet = some params ∧ Owns s g params.paymentIntentClientSecret

/-- What the earlier statements of the handler have left, where its tap is the one numbered `f`. -/
def Phase.Sound (es : List Event) (s : State) (f : ℕ) : Phase → Prop
  | .creatingIntent => ∀ intent ∈ s.intents, intent.createdBy ≠ f
  | .configuring c => Owns s f c
  | .configured | .presenting => (∃ c, Owns s f c) ∧ s.sheet ≠ none
  | .presented sheet => (∃ c, Owns s f c) ∧ PresentedFor es s f sheet
  | .succeeded => (∃ c, Owns s f c) ∧ ∃ sheet, PresentedFor es s f sheet
  | .failed => True

structure Billed (es : List Event) (s : State) : Prop where
  once : (s.intents.map PaymentIntent.createdBy).Nodup
  owned : ∀ c (intent : PaymentIntent), s.intents[c]? = some intent → Owns s intent.createdBy c
  sound : ∀ f (flow : Flow), s.flows[f]? = some flow → flow.phase.Sound es s f

theorem PresentedFor.step {es : List Event} {s t : State} {f : ℕ} {sheet : Option SheetParameters}
    (h : PresentedFor es s f sheet) (hk : Keeps s t) (e : Event) :
    PresentedFor (es ++ [e]) t f sheet := by
  obtain ⟨pre, post, g, params, rfl, hl, hs, ho⟩ := h
  exact ⟨pre, post ++ [e], g, params, by simp, hl, hs, hk.owns ho⟩

theorem Phase.Sound.step {es : List Event} {s t : State} {f : ℕ} {phase : Phase}
    (h : phase.Sound es s f) (hk : Keeps s t) (e : Event) (hs : s.sheet ≠ none → t.sheet ≠ none)
    (hi : ∀ intent ∈ t.intents, intent ∈ s.intents ∨ intent.createdBy ≠ f) :
    phase.Sound (es ++ [e]) t f := by
  cases phase with
  | creatingIntent => exact fun intent hin => (hi intent hin).elim (h intent) id
  | configuring c => exact hk.owns h
  | configured | presenting =>
    obtain ⟨⟨c, hc⟩, hsheet⟩ := h
    exact ⟨⟨c, hk.owns hc⟩, hs hsheet⟩
  | presented sheet =>
    obtain ⟨⟨c, hc⟩, hp⟩ := h
    exact ⟨⟨c, hk.owns hc⟩, hp.step hk e⟩
  | succeeded =>
    obtain ⟨⟨c, hc⟩, sheet, hp⟩ := h
    exact ⟨⟨c, hk.owns hc⟩, sheet, hp.step hk e⟩
  | failed => trivial

theorem Billed.setPhase {es : List Event} {s t : State} {e : Event} {f : ℕ} {flow : Flow}
    {phase : Phase} (h : Billed es s) (hk : Keeps s t) (hs : s.sheet ≠ none → t.sheet ≠ none)
    (hi : t.intents = s.intents) (hf : s.flows[f]? = some flow)
    (ht : t.flows = s.flows.set f { flow with phase := phase })
    (hp : phase.Sound (es ++ [e]) t f) : Billed (es ++ [e]) t where
  once := by rw [hi]; exact h.once
  owned c intent hc := hk.owns (h.owned c intent (by rwa [hi] at hc))
  sound g flow' hg := by
    rw [ht, List.getElem?_set] at hg
    split at hg
    · rename_i he
      subst he
      rw [if_pos (List.getElem?_eq_some_iff.mp hf).1] at hg
      obtain rfl := Option.some.inj hg
      exact hp
    · exact (h.sound g flow' hg).step hk e hs fun intent hin => .inl (by rwa [hi] at hin)

theorem Billed.tap {es : List Event} {s : State} (h : Billed es s) (b : Button)
    (hk : Keeps s { s with flows := s.flows ++ [⟨b.amount, currency, .creatingIntent⟩] }) :
    Billed (es ++ [.tap b])
      { s with flows := s.flows ++ [⟨b.amount, currency, .creatingIntent⟩] } where
  once := h.once
  owned c intent hc := hk.owns (h.owned c intent hc)
  sound f flow hf := by
    rcases Nat.lt_or_ge f s.flows.length with hlt | hge
    · rw [List.getElem?_append_left hlt] at hf
      exact (h.sound f flow hf).step hk _ id fun intent => .inl
    · rw [List.getElem?_append_right hge] at hf
      obtain rfl := List.mem_singleton.mp (List.mem_of_getElem? hf)
      intro intent hin
      obtain ⟨c, hc⟩ := List.mem_iff_getElem?.mp hin
      obtain ⟨flow', hflow, _⟩ := h.owned c intent hc
      have := (List.getElem?_eq_some_iff.mp hflow).1
      omega

theorem Billed.intentCreated {es : List Event} {s t : State} {f : ℕ} {flow : Flow}
    (h : Billed es s) (hf : s.flows[f]? = some flow) (hp : flow.phase = .creatingIntent)
    (ht : t = { s.setPhase f flow (.configuring s.intents.length) with
      intents := s.intents ++ [⟨createPaymentIntent flow.amount flow.currency, f⟩] })
    (hk : Keeps s t) : Billed (es ++ [.intentCreated f]) t := by
  have hnew : ∀ intent ∈ s.intents, intent.createdBy ≠ f := by
    have := h.sound f flow hf
    rwa [hp] at this
  have hlt := (List.getElem?_eq_some_iff.mp hf).1
  have hown : Owns t f s.intents.length :=
    ⟨{ flow with phase := .configuring s.intents.length }, by simp [ht, State.setPhase, hlt],
      by simp [ht]⟩
  refine ⟨?_, fun c intent hc => ?_, fun g flow' hg => ?_⟩
  · rw [ht, List.map_append, List.nodup_append]
    refine ⟨h.once, by simp, ?_⟩
    simpa using hnew
  · simp only [ht, List.getElem?_append] at hc
    split at hc
    · exact hk.owns (h.owned c intent hc)
    · rw [List.getElem?_singleton, Option.ite_none_right_eq_some] at hc
      obtain ⟨hlen, hc⟩ := hc
      obtain rfl := Option.some.inj hc
      obtain rfl : c = s.intents.length := by omega
      exact hown
  · simp only [ht, State.setPhase, List.getElem?_set] at hg
    split at hg
    · rename_i he
      subst he
      obtain rfl := Option.some.inj (by simpa [hlt] using hg)
      exact hown
    · rename_i hne
      refine (h.sound g flow' hg).step hk _ (by simp [ht, State.setPhase]) fun intent hin => ?_
      rw [ht, List.mem_append, List.mem_singleton] at hin
      rcases hin with hin | rfl
      · exact .inl hin
      · exact .inr hne

theorem exists_presented {s t : State} {f : ℕ} {ok : Bool}
    (h : step s (.presentReturned f ok) = some t) :
    ∃ flow sheet, s.flows[f]? = some flow ∧ flow.phase = .presented sheet := by
  obtain ⟨flow, hf, h⟩ := Option.bind_eq_some_iff.mp h
  cases hp : flow.phase <;> simp only [hp, reduceCtorEq] at h
  exact ⟨flow, _, hf, hp⟩

theorem Billed.step {es : List Event} {s t : State} {e : Event} (h : Billed es s)
    (hc : Configured es s) (ht : step s e = some t) : Billed (es ++ [e]) t := by
  have hm := step_move ht
  have hk := hm.keeps
  cases hm with
  | tap b => exact h.tap b hk
  | @intentCreated f flow hf hp => exact h.intentCreated hf hp rfl hk
  | @intentFailed f flow hf hp => exact h.setPhase hk id rfl hf rfl trivial
  | @initExecuted f flow c hf hp =>
    have hs := h.sound f flow hf
    rw [hp] at hs
    exact h.setPhase hk (by simp) rfl hf rfl ⟨⟨c, hk.owns hs⟩, by simp⟩
  | @initReturned f flow hf hp =>
    have hs := h.sound f flow hf
    rw [hp] at hs
    obtain ⟨⟨c, ho⟩, hsheet⟩ := hs
    exact h.setPhase hk id rfl hf rfl ⟨⟨c, hk.owns ho⟩, hsheet⟩
  | @initFailed f flow hf => exact h.setPhase hk id rfl hf rfl trivial
  | @presentExecuted f flow hf hp =>
    have hs := h.sound f flow hf
    rw [hp] at hs
    obtain ⟨⟨c, ho⟩, hsheet⟩ := hs
    refine h.setPhase hk id rfl hf rfl ⟨⟨c, hk.owns ho⟩, ?_⟩
    rcases hc.sheet with ⟨_, hn⟩ | ⟨g, params, hg, hs, hown⟩
    · exact absurd hn hsheet
    · exact ⟨es, [], g, params, rfl, hg, hs, hk.owns hown⟩
  | @presentReturned f flow ok hf =>
    cases ok with
    | false => exact h.setPhase hk id rfl hf rfl trivial
    | true =>
      obtain ⟨flow', sheet, hf', hp⟩ := exists_presented ht
      obtain rfl := Option.some.inj (hf.symm.trans hf')
      have hs := h.sound f flow hf
      rw [hp] at hs
      obtain ⟨⟨c, ho⟩, hfor⟩ := hs
      exact h.setPhase hk id rfl hf rfl ⟨⟨c, hk.owns ho⟩, sheet, hfor.step hk _⟩

theorem billed_of_exec {es : List Event} {s : State} (h : exec step initial es = some s) :
    Billed es s := by
  have hboth : Billed es s ∧ Configured es s := by
    apply exec_history (H := fun es s => Billed es s ∧ Configured es s) _ _ h
    · exact ⟨⟨by simp [initial], by simp [initial], by simp [initial]⟩, configured_of_exec rfl⟩
    · exact fun es s e t hs ht => ⟨hs.1.step hs.2 ht, hs.2.move (step_move ht)⟩
  exact hboth.1

/-! ### Every tap -/

theorem Accounted.exists_tap {es : List Event} {s : State} (h : Accounted es s) {f : ℕ}
    {flow : Flow} (hf : s.flows[f]? = some flow) : ∃ b, (taps es)[f]? = some b ∧
      createPaymentIntent flow.amount flow.currency = createPaymentIntent b.amount currency := by
  have ha := congrArg (·[f]?) h.amounts
  simp only [List.getElem?_map, hf, Option.map_some] at ha
  obtain ⟨b, hb, hamount⟩ := Option.map_eq_some_iff.mp ha.symm
  exact ⟨b, hb, by rw [hamount, h.currencies flow (List.mem_of_getElem? hf)]⟩

theorem exists_unfinished {s : State} (h : s.work ≠ 0) :
    ∃ (f : ℕ) (flow : Flow), s.flows[f]? = some flow ∧ flow.phase.work ≠ 0 := by
  by_contra hall
  push Not at hall
  apply h
  refine List.sum_eq_zero_iff_forall_eq_nat.mpr fun n hn => ?_
  obtain ⟨flow, hflow, rfl⟩ := List.mem_map.mp hn
  obtain ⟨f, hf⟩ := List.mem_iff_getElem?.mp hflow
  exact hall f flow hf

theorem work_eq_zero {s : State} (h : s.work = 0) {f : ℕ} {flow : Flow}
    (hf : s.flows[f]? = some flow) : flow.phase.work = 0 :=
  List.sum_eq_zero_iff_forall_eq_nat.mp h _ (List.mem_map_of_mem (List.mem_of_getElem? hf))

/-- With a server and an SDK that answer, the handlers of all taps come to their ends. -/
theorem exists_settled {es : List Event} {s : State} (h : Accounted es s) :
    ∃ fs t, exec step s fs = some t ∧ taps fs = [] ∧ Accounted (es ++ fs) t ∧ t.work = 0 ∧
      ∀ m ∈ fs.flatMap Event.messages, m.2 = .successful := by
  induction hw : s.work using Nat.strongRecOn generalizing es s with
  | _ n ih =>
    by_cases hn : s.work = 0
    · exact ⟨[], s, rfl, rfl, by simpa using h, hn, by simp⟩
    · obtain ⟨f, flow, hf, hflow⟩ := exists_unfinished hn
      obtain ⟨e, t, ht, he, hm⟩ := exists_step hf hflow
      obtain ⟨fs, u, hu, htaps, hacc, hwork, hms⟩ := ih t.work (hw ▸ work_lt ht he) (h.step ht) rfl
      refine ⟨e :: fs, u, exec_cons.mpr ⟨t, ht, hu⟩, ?_, by simpa using hacc, hwork, ?_⟩
      · rw [taps, List.filterMap_cons_none he]
        exact htaps
      · rw [List.flatMap_cons]
        exact List.forall_mem_append.mpr ⟨hm, hms⟩

theorem ends_with {ms ms' : List Message} (hlen : (ms ++ ms').length = 1)
    (h : ∀ m ∈ ms', m = .successful) :
    ms ++ ms' = [.successful] ∨ ms ++ ms' = [.failed] ∧ ms = [.failed] := by
  obtain ⟨m, hm⟩ := List.length_eq_one_iff.mp hlen
  cases m with
  | successful => exact .inl hm
  | failed =>
    refine .inr ⟨hm, ?_⟩
    rcases List.append_eq_singleton_iff.mp hm with ⟨rfl, rfl⟩ | ⟨hms, _⟩
    · cases h .failed (List.mem_singleton_self _)
    · exact hms

/-- What a run on the payment screen owes each of its taps. -/
structure Settles (es : List Event) (s : State) : Prop where
  /-- A tap has at most one intent, -/
  intents_nodup : (s.intents.map PaymentIntent.createdBy).Nodup
  /-- which is for the amount of its button. -/
  intents_tapped : ∀ intent ∈ s.intents, ∃ b, (taps es)[intent.createdBy]? = some b ∧
    intent.body = createPaymentIntent b.amount currency
  /-- A sheet on the screen is the one configured last, for an intent of its configuring tap. -/
  presented : ∀ f (flow : Flow) sheet, s.flows[f]? = some flow → flow.phase = .presented sheet →
    PresentedFor es s f sheet
  messages_le_one : ∀ f, (messagesOf es f).length ≤ 1
  /-- A tap whose payment succeeded has an intent, and was presented such a sheet. -/
  successful : ∀ f, .successful ∈ messagesOf es f →
    (∃ c, Owns s f c) ∧ ∃ sheet, PresentedFor es s f sheet
  length_le : es.length ≤ 6 * (taps es).length
  /-- Without further taps and errors, every tap gets its message. -/
  settled : ∃ fs t, exec step s fs = some t ∧ taps fs = [] ∧
    ∀ f < (taps es).length, messagesOf es f ++ messagesOf fs f = [.successful] ∨
      messagesOf es f ++ messagesOf fs f = [.failed] ∧ messagesOf es f = [.failed]

/--
Whatever order the replies to overlapping payments come in, every tap gets at most one intent, of
its own amount, and one message about its end.
-/
theorem payments_settle {es : List Event} {s : State} (h : exec step initial es = some s) :
    Settles es s := by
  have hacc := accounted_of_exec h
  have hbill := billed_of_exec h
  refine ⟨hbill.once, fun intent hin => ?_, fun f flow sheet hf hp => ?_, fun f => ?_,
    fun f hm => ?_, by have := hacc.work; omega, ?_⟩
  · obtain ⟨c, hc⟩ := List.mem_iff_getElem?.mp hin
    obtain ⟨flow, hf, hi⟩ := hbill.owned c intent hc
    obtain ⟨b, hb, hbody⟩ := hacc.exists_tap hf
    rw [hc] at hi
    exact ⟨b, hb, hbody ▸ congrArg PaymentIntent.body (Option.some.inj hi)⟩
  · have hs := hbill.sound f flow hf
    rw [hp] at hs
    exact hs.2
  · rw [hacc.messages]
    cases s.flows[f]? with
    | none => simp
    | some flow => exact flow.phase.length_messages_le
  · rw [hacc.messages] at hm
    cases hf : s.flows[f]? with
    | none => simp [hf] at hm
    | some flow =>
      have hs := hbill.sound f flow hf
      rw [hf] at hm
      cases hp : flow.phase <;> simp only [hp, Option.elim_some, Phase.messages, List.mem_singleton,
        List.not_mem_nil, reduceCtorEq] at hm
      rwa [hp] at hs
  · obtain ⟨fs, t, ht, htaps, hall, hwork, hms⟩ := exists_settled hacc
    refine ⟨fs, t, ht, htaps, fun f hf => ?_⟩
    have hlt : f < t.flows.length := by
      rwa [hall.length_flows, taps, List.filterMap_append, List.length_append,
        show fs.filterMap Event.tapped = [] from htaps]
    have hdone : t.flows[f].phase.work = 0 := work_eq_zero hwork (List.getElem?_eq_getElem hlt)
    have hlen := Phase.messages_of_work_eq_zero hdone
    have hmsgs := hall.messages f
    rw [List.getElem?_eq_getElem hlt, Option.elim_some, messagesOf_append] at hmsgs
    rw [← hmsgs] at hlen
    have hsucc : ∀ m ∈ messagesOf fs f, m = .successful := by
      intro m hm
      obtain ⟨⟨g, m'⟩, hin, hm⟩ := List.mem_filterMap.mp hm
      split at hm
      · exact Option.some.inj hm ▸ hms _ hin
      · cases hm
    exact ends_with hlen hsucc

/-- The run of `overlapping_not_own`, up to the message that the payment of $10 succeeded. -/
theorem payments_settle_overlapping :
    Settles [.tap .pay10, .tap .pay990, .intentCreated 0, .intentCreated 1, .initExecuted 0,
      .initExecuted 1, .initReturned 0, .presentExecuted 0, .presentReturned 0 true]
      ⟨[⟨10, "usd", .succeeded⟩, ⟨990, "usd", .configured⟩],
        [⟨⟨"1000", "usd", "card"⟩, 0⟩, ⟨⟨"99000", "usd", "card"⟩, 1⟩], some ⟨1, "Majid Store"⟩⟩ :=
  payments_settle (by decide)

end FlutterPractice.Stripe
