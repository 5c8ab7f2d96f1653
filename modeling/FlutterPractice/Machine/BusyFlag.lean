import FlutterPractice.Machine.Run

/-! # Busy flags

A flag that the calls of one handler raise when they start and lower when they
end, where calls may overlap. A call may also end before its first suspension,
and each way to end lowers the flag or leaves it as it is. The flag is released
when the last running call ends exactly if that call lowers it, or an earlier
one has done so since the last start.
-/

namespace BusyFlag

open Machine

/-- What the synchronous part of a call does. -/
inductive Begun where
  | rejected
  | ended (lowered : Bool)
  | waiting
  deriving DecidableEq

/-- The handler of calls with an input, each of which awaits one answer. -/
structure Handler (ι ρ : Type*) where
  begins : ι → Begun
  lowers : ρ → Bool

structure State where
  inProgress : Bool
  running : ℕ
  deriving DecidableEq

inductive Event (ι ρ : Type*) where
  | call (input : ι)
  | answer (reply : ρ)

def idle : State := ⟨false, 0⟩

variable {ι ρ : Type*}

namespace Handler

def step (H : Handler ι ρ) (s : State) : Event ι ρ → Option State
  | .call input =>
    match H.begins input with
    | .rejected => some s
    | .ended lowered => some { s with inProgress := !lowered }
    | .waiting => some ⟨true, s.running + 1⟩
  | .answer reply =>
    if 0 < s.running then
      some ⟨if H.lowers reply then false else s.inProgress, s.running - 1⟩
    else none

/-- Where a call ends and no other one is running, the flag is down. -/
def Released (H : Handler ι ρ) (_ : State) (e : Event ι ρ) (t : State) : Prop :=
  match e with
  | .call input => (∃ lowered, H.begins input = .ended lowered) → t.running = 0 →
      t.inProgress = false
  | .answer _ => t.running = 0 → t.inProgress = false

end Handler

/-- Where no other call is running, a call starts with an input of one kind, and it gets an answer
of one kind unless the flag is down already. -/
def Lowered (P : ι → Prop) (Q : ρ → Prop) (s : State) (e : Event ι ρ) (_ : State) : Prop :=
  match e with
  | .call input => s.running = 0 → P input
  | .answer reply => s.running = 1 → Q reply ∨ s.inProgress = false

variable {H : Handler ι ρ} {P : ι → Prop} {Q : ρ → Prop} {s t : State}

theorem released_iff {e : Event ι ρ} (hP : ∀ input, H.begins input ≠ .ended false ↔ P input)
    (hQ : ∀ reply, H.lowers reply = true ↔ Q reply) (ht : H.step s e = some t) :
    H.Released s e t ↔ Lowered P Q s e t := by
  cases e with
  | call input =>
    simp only [Handler.Released, Lowered, ← hP]
    simp only [Handler.step] at ht
    split at ht <;> rename_i hb <;> obtain rfl := Option.some.inj ht
    · simp [hb]
    · simp [hb]
    · simp [hb]
  | answer reply =>
    simp only [Handler.Released, Lowered, ← hQ]
    obtain ⟨hpos, ht⟩ := Option.ite_none_right_eq_some.mp ht
    obtain rfl := Option.some.inj ht
    have hlast : s.running - 1 = 0 ↔ s.running = 1 := by omega
    rw [hlast]
    cases H.lowers reply <;> simp

/-- Over whole runs, the flag is released where inputs and answers are of the kinds that end so. -/
theorem along_released_iff {es : List (Event ι ρ)}
    (hP : ∀ input, H.begins input ≠ .ended false ↔ P input)
    (hQ : ∀ reply, H.lowers reply = true ↔ Q reply) :
    Along H.step H.Released s es ↔ Along H.step (Lowered P Q) s es :=
  along_congr (I := fun _ => True) trivial fun _ _ _ _ ht =>
    ⟨released_iff hP hQ ht, fun _ => trivial⟩

theorem along_released (hP : ∀ input, H.begins input ≠ .ended false)
    (hQ : ∀ reply, H.lowers reply = true) (es : List (Event ι ρ)) :
    Along H.step H.Released s es := by
  rw [along_released_iff (P := fun _ => True) (Q := fun _ => True)
    (fun input => iff_of_true (hP input) trivial) (fun reply => iff_of_true (hQ reply) trivial)]
  apply along_true.mono
  rintro s e t -
  cases e with
  | call input => exact fun _ => trivial
  | answer reply => exact fun _ => .inl trivial

end BusyFlag
