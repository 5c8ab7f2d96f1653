import Mathlib.Data.List.Induction

/-! # Runs of event-driven machines

A machine is a partial step function: an event may be disabled in a state. A
run feeds a list of events to it. `Along` states a relation of every step of a
run, so that conditions on a run and guarantees about it have the same shape
and one invariant rule leads from the first to the second. `outputs` collects
what the steps emit, for comparing a run with an abstract account of it.
-/

namespace Machine

variable {σ ε ω τ : Type*}

/-- Feed a list of events to the machine; a disabled event ends in `none`. -/
def exec (step : σ → ε → Option σ) : σ → List ε → Option σ
  | s, [] => some s
  | s, e :: es => (step s e).bind fun t => exec step t es

/-- The relation holds of every step that the run takes. -/
def Along (step : σ → ε → Option σ) (R : σ → ε → σ → Prop) : σ → List ε → Prop
  | _, [] => True
  | s, e :: es => ∀ t, step s e = some t → R s e t ∧ Along step R t es

/-- What the steps of the run emit, in order. -/
def outputs (step : σ → ε → Option σ) (emit : σ → ε → List ω) : σ → List ε → List ω
  | _, [] => []
  | s, e :: es =>
    match step s e with
    | none => []
    | some t => emit s e ++ outputs step emit t es

/-- A relation along a run can be evaluated where its steps can. -/
instance decidableAlong (step : σ → ε → Option σ) (R : σ → ε → σ → Prop)
    [∀ s e t, Decidable (R s e t)] : ∀ s es, Decidable (Along step R s es)
  | _, [] => .isTrue trivial
  | s, e :: es =>
    match h : step s e with
    | none => .isTrue fun t ht => by simp [h] at ht
    | some t =>
      have := decidableAlong step R t es
      decidable_of_iff (R s e t ∧ Along step R t es) (by simp [Along, h])

variable {step : σ → ε → Option σ} {R C : σ → ε → σ → Prop} {s t : σ} {es fs : List ε}

theorem exec_cons {e : ε} :
    exec step s (e :: es) = some t ↔ ∃ u, step s e = some u ∧ exec step u es = some t := by
  simp [exec, Option.bind_eq_some_iff]

theorem exec_singleton {e : ε} : exec step s [e] = step s e := by
  simp [exec]

theorem exec_append :
    exec step s (es ++ fs) = (exec step s es).bind fun t => exec step t fs := by
  induction es generalizing s with
  | nil => rfl
  | cons e es ih =>
    simp only [List.cons_append, exec]
    cases step s e with
    | none => rfl
    | some u => exact ih

theorem exec_append_eq_some :
    exec step s (es ++ fs) = some t ↔ ∃ u, exec step s es = some u ∧ exec step u fs = some t := by
  rw [exec_append, Option.bind_eq_some_iff]

theorem exec_concat {e : ε} {u : σ} (h : exec step s es = some t) (hu : step t e = some u) :
    exec step s (es ++ [e]) = some u :=
  exec_append_eq_some.mpr ⟨t, h, exec_singleton.trans hu⟩

theorem along_iff : Along step R s es ↔
    ∀ pre e post u v, es = pre ++ e :: post → exec step s pre = some u → step u e = some v →
      R u e v := by
  induction es generalizing s with
  | nil => simp [Along]
  | cons e es ih =>
    constructor
    · intro h pre f post u v he hu hv
      cases pre with
      | nil =>
        obtain ⟨rfl, rfl⟩ := List.cons.inj he
        obtain rfl := Option.some.inj hu
        exact (h v hv).1
      | cons g pre =>
        obtain ⟨rfl, rfl⟩ := List.cons.inj he
        obtain ⟨w, hw, hu⟩ := exec_cons.mp hu
        exact ih.mp (h w hw).2 pre f post u v rfl hu hv
    · intro h t ht
      refine ⟨h [] e es s t rfl rfl ht, ih.mpr fun pre f post u v he hu hv => ?_⟩
      exact h (e :: pre) f post u v (by rw [he]; rfl) (exec_cons.mpr ⟨t, ht, hu⟩) hv

theorem Along.mono (h : Along step R s es) (hRC : ∀ s e t, R s e t → C s e t) :
    Along step C s es := by
  induction es generalizing s with
  | nil => trivial
  | cons e es ih => exact fun t ht => ⟨hRC _ _ _ (h t ht).1, ih (h t ht).2⟩

theorem Along.and (h : Along step R s es) (h' : Along step C s es) :
    Along step (fun s e t => R s e t ∧ C s e t) s es := by
  induction es generalizing s with
  | nil => trivial
  | cons e es ih => exact fun t ht => ⟨⟨(h t ht).1, (h' t ht).1⟩, ih (h t ht).2 (h' t ht).2⟩

theorem Along.last {e : ε} {u : σ} (h : Along step R s (es ++ [e])) (ht : exec step s es = some t)
    (hu : step t e = some u) : R t e u :=
  along_iff.mp h es e [] t u rfl ht hu

/--
The invariant rule: an invariant that every admissible step preserves turns a condition on the
steps of a run into a guarantee about each of them.
-/
theorem Along.of_invariant {I : σ → Prop} (h : Along step C s es) (hs : I s)
    (hstep : ∀ s e t, I s → C s e t → step s e = some t → R s e t ∧ I t) :
    Along step R s es := by
  induction es generalizing s with
  | nil => trivial
  | cons e es ih =>
    intro t ht
    obtain ⟨hc, hes⟩ := h t ht
    obtain ⟨hr, hi⟩ := hstep s e t hs hc ht
    exact ⟨hr, ih hes hi⟩

theorem Along.exec_invariant {I : σ → Prop} (h : Along step C s es) (hs : I s)
    (hstep : ∀ s e t, I s → C s e t → step s e = some t → I t)
    (ht : exec step s es = some t) : I t := by
  induction es generalizing s with
  | nil => exact Option.some.inj ht ▸ hs
  | cons e es ih =>
    obtain ⟨u, hu, ht⟩ := exec_cons.mp ht
    obtain ⟨hc, hes⟩ := h u hu
    exact ih hes (hstep s e u hs hc hu) ht

theorem along_true : Along step (fun _ _ _ => True) s es := by
  induction es generalizing s with
  | nil => trivial
  | cons e es ih => exact fun t _ => ⟨trivial, ih⟩

/-- Two relations agree along a run where they agree in all states that the second one admits. -/
theorem Along.congr {V : σ → ε → σ → Prop} {I : σ → Prop} (hv : Along step V s es) (hs : I s)
    (hstep : ∀ s e t, I s → V s e t → step s e = some t →
      (R s e t ↔ C s e t) ∧ (C s e t → I t)) :
    Along step R s es ↔ Along step C s es := by
  constructor
  · intro h
    apply (hv.and h).of_invariant hs
    rintro s e t hi ⟨hv, hr⟩ ht
    obtain ⟨hiff, hnext⟩ := hstep s e t hi hv ht
    exact ⟨hiff.mp hr, hnext (hiff.mp hr)⟩
  · intro h
    apply (hv.and h).of_invariant hs
    rintro s e t hi ⟨hv, hc⟩ ht
    obtain ⟨hiff, hnext⟩ := hstep s e t hi hv ht
    exact ⟨hiff.mpr hc, hnext hc⟩

theorem along_congr {I : σ → Prop} (hs : I s)
    (hstep : ∀ s e t, I s → step s e = some t → (R s e t ↔ C s e t) ∧ (C s e t → I t)) :
    Along step R s es ↔ Along step C s es :=
  along_true.congr hs fun s e t hi _ ht => hstep s e t hi ht

theorem exec_invariant {I : σ → Prop} (hs : I s)
    (hstep : ∀ s e t, I s → step s e = some t → I t)
    (ht : exec step s es = some t) : I t :=
  along_true.exec_invariant hs (fun s e t hi _ h => hstep s e t hi h) ht

/-- Where what is emitted depends on the events only, a whole run emits it for its events. -/
theorem outputs_of_exec {emit : ε → List ω} (h : exec step s es = some t) :
    outputs step (fun _ e => emit e) s es = es.flatMap emit := by
  induction es generalizing s with
  | nil => rfl
  | cons e es ih =>
    obtain ⟨u, hu, ht⟩ := exec_cons.mp h
    simp only [outputs, hu, ih ht, List.flatMap_cons]

theorem along_of_forall {P : ε → Prop} (h : ∀ e ∈ es, P e) :
    Along step (fun _ e _ => P e) s es := by
  induction es generalizing s with
  | nil => trivial
  | cons e es ih =>
    obtain ⟨he, hes⟩ := List.forall_mem_cons.mp h
    exact fun t _ => ⟨he, ih hes⟩

/-- The invariant rule for invariants that speak of the events so far. -/
theorem exec_history {H : List ε → σ → Prop} (hs : H [] s)
    (hstep : ∀ es s e t, H es s → step s e = some t → H (es ++ [e]) t)
    (ht : exec step s es = some t) : H es t := by
  induction es using List.reverseRecOn generalizing t with
  | nil => exact Option.some.inj ht ▸ hs
  | append_singleton es e ih =>
    obtain ⟨u, hu, ht⟩ := exec_append_eq_some.mp ht
    obtain ⟨v, hv, ht⟩ := exec_cons.mp ht
    exact Option.some.inj ht ▸ hstep es u e v (ih hu) hv

/-- The invariant rule for invariants that speak of the outputs so far. -/
theorem exec_outputs {emit : σ → ε → List ω} {H : List ω → σ → Prop} (hs : H [] s)
    (hstep : ∀ ws s e t, H ws s → step s e = some t → H (ws ++ emit s e) t)
    (ht : exec step s es = some t) : H (outputs step emit s es) t := by
  have hgen : ∀ (es : List ε) ws s, H ws s → exec step s es = some t →
      H (ws ++ outputs step emit s es) t := by
    intro es
    induction es with
    | nil =>
      intro ws s hs ht
      obtain rfl := Option.some.inj ht
      simpa [outputs] using hs
    | cons e es ih =>
      intro ws s hs ht
      obtain ⟨u, hu, ht⟩ := exec_cons.mp ht
      simp only [outputs, hu]
      rw [← List.append_assoc]
      exact ih _ u (hstep ws s e u hs hu) ht
  exact hgen es [] s hs ht

/-- The same for two kinds of outputs, and for the events themselves, along a condition. -/
theorem Along.exec_outputs_pair {emit : σ → ε → List ω} {emit' : σ → ε → List τ}
    {H : List ε → List ω → List τ → σ → Prop} (h : Along step C s es) (hs : H [] [] [] s)
    (hstep : ∀ es ws vs s e t, H es ws vs s → C s e t → step s e = some t →
      H (es ++ [e]) (ws ++ emit s e) (vs ++ emit' s e) t)
    (ht : exec step s es = some t) : H es (outputs step emit s es) (outputs step emit' s es) t := by
  have hgen : ∀ (es fs : List ε) ws vs s, Along step C s es → H fs ws vs s →
      exec step s es = some t →
        H (fs ++ es) (ws ++ outputs step emit s es) (vs ++ outputs step emit' s es) t := by
    intro es
    induction es with
    | nil =>
      intro fs ws vs s _ hs ht
      obtain rfl := Option.some.inj ht
      simpa [outputs] using hs
    | cons e es ih =>
      intro fs ws vs s h hs ht
      obtain ⟨u, hu, ht⟩ := exec_cons.mp ht
      obtain ⟨hc, hes⟩ := h u hu
      simp only [outputs, hu]
      rw [← List.append_assoc, ← List.append_assoc, List.append_cons]
      exact ih _ _ _ u hes (hstep fs ws vs s e u hs hc hu) ht
  exact hgen es [] [] [] s h hs ht

theorem outputs_append_singleton {emit : σ → ε → List ω} {e : ε} {u : σ}
    (ht : exec step s es = some t) (hu : step t e = some u) :
    outputs step emit s (es ++ [e]) = outputs step emit s es ++ emit t e := by
  induction es generalizing s with
  | nil =>
    obtain rfl := Option.some.inj ht
    simp [outputs, hu]
  | cons e' es ih =>
    obtain ⟨v, hv, ht⟩ := exec_cons.mp ht
    simp only [List.cons_append, outputs, hv, ih ht, List.append_assoc]

/--
Forward simulation: when every step keeps the concrete state related to the account of its
outputs, a whole run does.
-/
theorem Along.simulation {emit : σ → ε → List ω} {apply : τ → ω → τ} {Rel : σ → τ → Prop} {a : τ}
    (h : Along step C s es) (hs : Rel s a)
    (hstep : ∀ s e t a, Rel s a → C s e t → step s e = some t →
      Rel t ((emit s e).foldl apply a))
    (ht : exec step s es = some t) : Rel t ((outputs step emit s es).foldl apply a) := by
  induction es generalizing s a with
  | nil => exact Option.some.inj ht ▸ hs
  | cons e es ih =>
    obtain ⟨u, hu, ht⟩ := exec_cons.mp ht
    obtain ⟨hc, hes⟩ := h u hu
    simp only [outputs, hu, List.foldl_append]
    exact ih hes (hstep s e u a hs hc hu) ht

/-- Forward simulation by another machine, which takes a list of events for every step. -/
theorem Along.refinement {ε' : Type*} {step' : τ → ε' → Option τ} {translate : σ → ε → List ε'}
    {Rel : σ → τ → Prop} {a : τ} (h : Along step C s es) (hs : Rel s a)
    (hstep : ∀ s e t a, Rel s a → C s e t → step s e = some t →
      ∃ b, exec step' a (translate s e) = some b ∧ Rel t b)
    (ht : exec step s es = some t) :
    ∃ b, exec step' a (outputs step translate s es) = some b ∧ Rel t b := by
  induction es generalizing s a with
  | nil =>
    obtain rfl := Option.some.inj ht
    exact ⟨a, rfl, hs⟩
  | cons e es ih =>
    obtain ⟨u, hu, ht⟩ := exec_cons.mp ht
    obtain ⟨hc, hes⟩ := h u hu
    obtain ⟨b, hb, hrel⟩ := hstep s e u a hs hc hu
    obtain ⟨b', hb', hrel'⟩ := ih hes hrel ht
    refine ⟨b', ?_, hrel'⟩
    simp only [outputs, hu]
    exact exec_append_eq_some.mpr ⟨b, hb, hb'⟩

end Machine
