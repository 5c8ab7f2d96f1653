import FlutterPractice.Machine.Lifetime

/-! # The lifetime of the two screens

Both screens show by a flag that a request is on its way. The login button gives
way to its progress indicator, the one of sign-up does not. A screen that is
left while its request runs gets the answer all the same: Google sign-in looks
at `mounted` first, the other two handlers do not.
-/

namespace FlutterPractice.Auth

open Machine Lifetime

inductive Answer where
  | ok
  | nothing
  | throws
  deriving DecidableEq

inductive LogInStage where
  | signInWithEmailAndPassword
  | getInstance
  deriving DecidableEq

inductive GoogleStage where
  | signIn
  | authentication
  | signInWithCredential
  | getInstance
  | setBool
  deriving DecidableEq

/-- No user is an answer to the first call only. -/
def LogInStage.answeredBy : LogInStage → Answer → Bool
  | .getInstance, .nothing => false
  | _, _ => true

def GoogleStage.answeredBy : GoogleStage → Answer → Bool
  | .signIn, .nothing => true
  | _, .nothing => false
  | _, _ => true

/-- The fields of `_LoginScreenState`, its handlers that are suspended, and the stored flag. -/
structure LoginPage where
  loading : Bool
  googleLoading : Bool
  logIns : List LogInStage
  googleSignIns : List GoogleStage
  isLoggedIn : Bool
  deriving DecidableEq

/-- The login button is pressed over a form that validates. -/
inductive LoginEvent where
  | logInPressed
  | googlePressed
  | logInAnswered (i : ℕ) (answer : Answer)
  | googleAnswered (i : ℕ) (answer : Answer)
  deriving DecidableEq

namespace LoginPage

def initial (isLoggedIn : Bool) : LoginPage := ⟨false, false, [], [], isLoggedIn⟩

def logIn : Callback LoginPage :=
  .andThen (.setState fun s => { s with loading := true }) <|
    .modify fun s => { s with logIns := s.logIns ++ [.signInWithEmailAndPassword] }

def endLogIn (i : ℕ) : Callback LoginPage :=
  .modify fun s => { s with logIns := s.logIns.eraseIdx i }

def endGoogle (i : ℕ) : Callback LoginPage :=
  .modify fun s => { s with googleSignIns := s.googleSignIns.eraseIdx i }

/-- `logIn` from an answer on. Without a user nothing is done, not even to the flag. -/
def onLogIn (i : ℕ) : LogInStage → Answer → Callback LoginPage
  | .signInWithEmailAndPassword, .ok =>
    .modify fun s => { s with logIns := s.logIns.set i .getInstance }
  | .signInWithEmailAndPassword, .nothing => endLogIn i
  | .getInstance, .ok =>
    .andThen (endLogIn i) <| .attempt
      (.andThen (.modify fun s => { s with isLoggedIn := true })
        (.setState fun s => { s with loading := false }))
      (.setState fun s => { s with loading := false })
  | _, _ => .andThen (endLogIn i) <|
    .attempt .throw (.setState fun s => { s with loading := false })

def signInWithGoogle : Callback LoginPage :=
  .andThen (.setState fun s => { s with googleLoading := true }) <|
    .modify fun s => { s with googleSignIns := s.googleSignIns ++ [.signIn] }

def googleFinally : Callback LoginPage :=
  .ifMounted (.setState fun s => { s with googleLoading := false })

/-- `signInWithGoogle` from an answer on; a cancelled one releases the flag twice. -/
def onGoogle (i : ℕ) : GoogleStage → Answer → Callback LoginPage
  | .signIn, .ok =>
    .modify fun s => { s with googleSignIns := s.googleSignIns.set i .authentication }
  | .authentication, .ok =>
    .modify fun s => { s with googleSignIns := s.googleSignIns.set i .signInWithCredential }
  | .signInWithCredential, .ok =>
    .modify fun s => { s with googleSignIns := s.googleSignIns.set i .getInstance }
  | .getInstance, .ok =>
    .modify fun s => { s with
      isLoggedIn := true
      googleSignIns := s.googleSignIns.set i .setBool }
  | .signIn, .nothing => .andThen (endGoogle i) <| .andThen googleFinally googleFinally
  | _, _ => .andThen (endGoogle i) googleFinally

/-- The button and its progress indicator take turns, and the login disables the other button. -/
def widget : Widget LoginPage LoginEvent where
  onScreen
    | .logInPressed | .googlePressed => true
    | .logInAnswered _ _ | .googleAnswered _ _ => false
  callback s
    | .logInPressed => if s.loading then none else some logIn
    | .googlePressed => if s.googleLoading || s.loading then none else some signInWithGoogle
    | .logInAnswered i answer => s.logIns[i]?.bind fun stage =>
      if stage.answeredBy answer then some (onLogIn i stage answer) else none
    | .googleAnswered i answer => s.googleSignIns[i]?.bind fun stage =>
      if stage.answeredBy answer then some (onGoogle i stage answer) else none
  dispose := .skip

/-- The answers to `logIn` that end in a `setState`. -/
def Late (s : LoginPage) : LoginEvent → Prop
  | .logInAnswered i answer => answer = .throws ∨ s.logIns[i]? = some .getInstance
  | _ => False

variable {s : LoginPage} {p q : Page LoginPage} {e : LoginEvent} {es : List (Event LoginEvent)}

/-- What is left of a handler behind the disposal calls `setState`, unless another call of its own
or no user comes first. -/
theorem called_onLogIn (i : ℕ) (stage : LogInStage) (answer : Answer) :
    (onLogIn i stage answer true s).called = true ↔ answer = .throws ∨ stage = .getInstance := by
  cases stage <;> cases answer <;> simp [onLogIn, endLogIn, Callback.attempt, Callback.andThen]

theorem called_onGoogle (i : ℕ) (stage : GoogleStage) (answer : Answer) :
    (onGoogle i stage answer true s).called = false ∧
      (onGoogle i stage answer true s).fields.logIns = s.logIns := by
  cases stage <;> cases answer <;>
    simp [onGoogle, endGoogle, googleFinally, Callback.andThen]

theorem callback_logInAnswered {i : ℕ} {answer : Answer} {c : Callback LoginPage}
    (h : widget.callback s (.logInAnswered i answer) = some c) :
    ∃ stage, s.logIns[i]? = some stage ∧ stage.answeredBy answer = true ∧
      c = onLogIn i stage answer := by
  obtain ⟨stage, hi, h⟩ := Option.bind_eq_some_iff.mp h
  obtain ⟨hanswer, h⟩ := Option.ite_none_right_eq_some.mp h
  exact ⟨stage, hi, hanswer, (Option.some.inj h).symm⟩

theorem callback_googleAnswered {i : ℕ} {answer : Answer} {c : Callback LoginPage}
    (h : widget.callback s (.googleAnswered i answer) = some c) :
    ∃ stage, s.googleSignIns[i]? = some stage ∧ stage.answeredBy answer = true ∧
      c = onGoogle i stage answer := by
  obtain ⟨stage, hi, h⟩ := Option.bind_eq_some_iff.mp h
  obtain ⟨hanswer, h⟩ := Option.ite_none_right_eq_some.mp h
  exact ⟨stage, hi, hanswer, (Option.some.inj h).symm⟩

theorem along_spares_iff : Along widget.step widget.Spares p es ↔
    Along widget.step (Avoids Late) p es := by
  apply Widget.along_spares_iff
  intro s e c hscreen hc
  cases e with
  | logInPressed | googlePressed => cases hscreen
  | logInAnswered i answer =>
    obtain ⟨stage, hi, -, rfl⟩ := callback_logInAnswered hc
    simp [Late, called_onLogIn, hi]
  | googleAnswered i answer =>
    obtain ⟨stage, -, -, rfl⟩ := callback_googleAnswered hc
    simp [Late, called_onGoogle]

theorem forall_along_spares_iff (hp : p.disposed = true) :
    (∀ es, Along widget.step widget.Spares p es) ↔ p.fields.logIns = [] := by
  apply Widget.forall_along_spares_iff (fun s => s.logIns = []) hp
  · intro s e c hs hscreen hc
    cases e with
    | logInPressed | googlePressed => cases hscreen
    | logInAnswered i answer => simp [widget, hs] at hc
    | googleAnswered i answer =>
      obtain ⟨stage, -, -, rfl⟩ := callback_googleAnswered hc
      obtain ⟨hcalled, hlogIns⟩ := called_onGoogle (s := s) i stage answer
      exact ⟨hcalled, hlogIns.trans hs⟩
  · intro s hs
    obtain ⟨stage, logIns, hcons⟩ := List.exists_cons_of_ne_nil hs
    refine ⟨[.callback (.logInAnswered 0 .throws)],
      Widget.not_along_singleton (c := onLogIn 0 stage .throws) rfl ?_ ?_⟩
    · cases stage <;> simp [widget, hcons, LogInStage.answeredBy]
    · exact (called_onLogIn 0 stage .throws).mpr (.inl rfl)

/-- A `logIn` has been answered without a user. -/
def WithoutUser (es : List (Event LoginEvent)) : Prop :=
  ∃ i, .callback (.logInAnswered i .nothing) ∈ es

/-- One handler of each kind at a time, and the flags of a screen that has not been left: after an
answer without a user the flag of the login stays set, and its button is gone. -/
@[mk_iff] structure Flags (es : List (Event LoginEvent)) (s : LoginPage) : Prop where
  logIns : s.logIns.length ≤ 1
  googleSignIns : s.googleSignIns.length ≤ 1
  loading : s.loading = true ↔ s.logIns ≠ [] ∨ WithoutUser es
  googleLoading : s.googleLoading = true ↔ s.googleSignIns ≠ []
  stuck : WithoutUser es → s.logIns = []

theorem withoutUser_append {e : Event LoginEvent} : WithoutUser (es ++ [e]) ↔
    WithoutUser es ∨ ∃ i, e = .callback (.logInAnswered i .nothing) := by
  simp [WithoutUser, List.mem_append, exists_or, eq_comm]

theorem eq_singleton_of_getElem? {α : Type} {l : List α} {i : ℕ} {a : α} (h : l.length ≤ 1)
    (hi : l[i]? = some a) : i = 0 ∧ l = [a] := by
  obtain ⟨hlt, rfl⟩ := List.getElem?_eq_some_iff.mp hi
  obtain rfl : i = 0 := by omega
  obtain ⟨b, rfl⟩ := List.length_eq_one_iff.mp (by omega : l.length = 1)
  exact ⟨rfl, rfl⟩

theorem Flags.onLogIn (h : Flags es s) {i : ℕ} {stage : LogInStage} {answer : Answer}
    (hi : s.logIns[i]? = some stage) (hanswer : stage.answeredBy answer = true) :
    Flags (es ++ [.callback (.logInAnswered i answer)])
      (LoginPage.onLogIn i stage answer false s).fields := by
  obtain ⟨rfl, hone⟩ := eq_singleton_of_getElem? h.logIns hi
  have huser : ¬ WithoutUser es := fun hnone => by simpa [hone] using h.stuck hnone
  have hloading : s.loading = true := h.loading.mpr (.inl (by simp [hone]))
  cases stage with
  | signInWithEmailAndPassword =>
    cases answer <;>
      simp [flags_iff, LoginPage.onLogIn, endLogIn, Callback.andThen, Callback.attempt,
        withoutUser_append, hone, huser, hloading, h.googleLoading, h.googleSignIns]
  | getInstance =>
    cases answer with
    | nothing => cases hanswer
    | ok | throws =>
      simp [flags_iff, LoginPage.onLogIn, endLogIn, Callback.andThen, Callback.attempt,
        withoutUser_append, hone, huser, h.googleLoading, h.googleSignIns]

theorem Flags.onGoogle (h : Flags es s) {i : ℕ} {stage : GoogleStage} {answer : Answer}
    (hi : s.googleSignIns[i]? = some stage) (hanswer : stage.answeredBy answer = true) :
    Flags (es ++ [.callback (.googleAnswered i answer)])
      (LoginPage.onGoogle i stage answer false s).fields := by
  obtain ⟨rfl, hone⟩ := eq_singleton_of_getElem? h.googleSignIns hi
  have hgoogle : s.googleLoading = true := h.googleLoading.mpr (by simp [hone])
  cases stage <;> cases answer <;> first
    | exact absurd hanswer Bool.false_ne_true
    | simpa [flags_iff, LoginPage.onGoogle, endGoogle, googleFinally, Callback.andThen,
        withoutUser_append, hone, hgoogle, h.loading, h.logIns] using h.stuck

theorem Flags.step (h : p.disposed = false → Flags es p.fields) {e : Event LoginEvent}
    (ht : widget.step p e = some q) (hq : q.disposed = false) : Flags (es ++ [e]) q.fields := by
  obtain ⟨s, disposed⟩ := p
  cases e with
  | dispose =>
    obtain ⟨-, ht⟩ := Option.ite_none_left_eq_some.mp ht
    obtain rfl := Option.some.inj ht
    cases hq
  | callback e =>
    obtain rfl : disposed = false := (Widget.disposed_step ht).symm.trans hq
    have hs : Flags es s := h rfl
    rw [Widget.step_mounted] at ht
    obtain ⟨c, hc, rfl⟩ := Option.map_eq_some_iff.mp ht
    cases e with
    | logInPressed =>
      obtain ⟨hloading, hc⟩ := Option.ite_none_left_eq_some.mp hc
      obtain rfl := Option.some.inj hc
      have hidle := mt hs.loading.mpr hloading
      rw [not_or, not_not] at hidle
      simp [flags_iff, logIn, Callback.andThen, withoutUser_append, hidle.1, hidle.2,
        hs.googleLoading, hs.googleSignIns]
    | googlePressed =>
      obtain ⟨hloading, hc⟩ := Option.ite_none_left_eq_some.mp hc
      obtain rfl := Option.some.inj hc
      rw [Bool.or_eq_true, not_or] at hloading
      have hidle := not_not.mp (mt hs.googleLoading.mpr hloading.1)
      simpa [flags_iff, signInWithGoogle, Callback.andThen, withoutUser_append, hidle, hs.logIns,
        hs.loading] using hs.stuck
    | logInAnswered i answer =>
      obtain ⟨stage, hi, hanswer, rfl⟩ := callback_logInAnswered hc
      exact hs.onLogIn hi hanswer
    | googleAnswered i answer =>
      obtain ⟨stage, hi, hanswer, rfl⟩ := callback_googleAnswered hc
      exact hs.onGoogle hi hanswer

theorem flags_of_exec {isLoggedIn : Bool}
    (h : exec widget.step (created (initial isLoggedIn)) es = some p) (hp : p.disposed = false) :
    Flags es p.fields := by
  have hall : p.disposed = false → Flags es p.fields := by
    apply exec_history (H := fun es p => p.disposed = false → Flags es p.fields) _ _ h
    · intro _
      simp [flags_iff, created, initial, WithoutUser]
    · exact fun es p e q hp hq hdisposed => Flags.step hp hq hdisposed
  exact hall hp

end LoginPage

/-- The field of `_SignUpScreenState`, and its `signup` calls that await their answer. -/
structure SignUpPage where
  loading : Bool
  signups : ℕ
  deriving DecidableEq

/-- The button is pressed over a form that validates; it does not look at the flag. -/
inductive SignUpEvent where
  | signUpPressed
  | answered (ok : Bool)
  deriving DecidableEq

namespace SignUpPage

def initial : SignUpPage := ⟨false, 0⟩

def signup : Callback SignUpPage :=
  .andThen (.setState fun s => { s with loading := true }) <|
    .modify fun s => { s with signups := s.signups + 1 }

/-- `signup` from the answer on: whatever it was, the `finally` block follows. -/
def onAnswered (_ : Bool) : Callback SignUpPage :=
  .andThen (.modify fun s => { s with signups := s.signups - 1 }) <|
    .setState fun s => { s with loading := false }

def widget : Widget SignUpPage SignUpEvent where
  onScreen
    | .signUpPressed => true
    | .answered _ => false
  callback s
    | .signUpPressed => some signup
    | .answered ok => if 0 < s.signups then some (onAnswered ok) else none
  dispose := .skip

/-- The answers. -/
def Late (_ : SignUpPage) : SignUpEvent → Prop
  | .signUpPressed => False
  | .answered _ => True

variable {p q : Page SignUpPage} {es : List (Event SignUpEvent)}

theorem along_spares_iff : Along widget.step widget.Spares p es ↔
    Along widget.step (Avoids Late) p es := by
  apply Widget.along_spares_iff
  intro s e c hscreen hc
  cases e with
  | signUpPressed => cases hscreen
  | answered ok =>
    obtain ⟨-, hc⟩ := Option.ite_none_right_eq_some.mp hc
    obtain rfl := Option.some.inj hc
    exact iff_of_true rfl trivial

theorem forall_along_spares_iff (hp : p.disposed = true) :
    (∀ es, Along widget.step widget.Spares p es) ↔ p.fields.signups = 0 := by
  apply Widget.forall_along_spares_iff (fun s => s.signups = 0) hp
  · intro s e c hs hscreen hc
    cases e with
    | signUpPressed => cases hscreen
    | answered ok =>
      obtain ⟨hpos, -⟩ := Option.ite_none_right_eq_some.mp hc
      omega
  · intro s hs
    exact ⟨[.callback (.answered true)],
      Widget.not_along_singleton rfl (if_pos (Nat.pos_of_ne_zero hs)) rfl⟩

/-- The flag of a screen tells what happened last: with two calls on their way, the first answer
clears it. -/
theorem loading_iff_of_exec (h : exec widget.step (created initial) es = some p)
    (hp : p.disposed = false) :
    p.fields.loading = true ↔ es.getLast? = some (.callback .signUpPressed) := by
  induction es using List.reverseRecOn with
  | nil =>
    obtain rfl := Option.some.inj h
    simp [created, initial]
  | append_singleton es e _ =>
    obtain ⟨⟨s, disposed⟩, -, h⟩ := exec_append_eq_some.mp h
    obtain ⟨q, hq, h⟩ := exec_cons.mp h
    obtain rfl := Option.some.inj h
    rw [List.getLast?_concat]
    cases e with
    | dispose =>
      obtain ⟨-, hq⟩ := Option.ite_none_left_eq_some.mp hq
      obtain rfl := Option.some.inj hq
      cases hp
    | callback e =>
      obtain rfl : disposed = false := (Widget.disposed_step hq).symm.trans hp
      rw [Widget.step_mounted] at hq
      obtain ⟨c, hc, rfl⟩ := Option.map_eq_some_iff.mp hq
      cases e with
      | signUpPressed =>
        obtain rfl := Option.some.inj hc
        exact iff_of_true rfl rfl
      | answered ok =>
        obtain ⟨-, hc⟩ := Option.ite_none_right_eq_some.mp hc
        obtain rfl := Option.some.inj hc
        simp [onAnswered, Callback.andThen]

end SignUpPage

/--
The two screens over their whole lives. The login screen is spared behind its disposal iff no
`logIn` is suspended, the sign-up screen iff no answer is to come; on the screen, the login's flags
are set exactly while a handler is on its way or a login has ended without a user, the sign-up's
only between a press and the next answer.
-/
theorem screens_live (login : Page LoginPage) (signUp : Page SignUpPage) :
    LoginPage.widget.SparedIff LoginPage.Late (fun s => s.logIns = []) login ∧
    SignUpPage.widget.SparedIff SignUpPage.Late (fun s => s.signups = 0) signUp ∧
    (∀ isLoggedIn es, exec LoginPage.widget.step (created (.initial isLoggedIn)) es = some login →
      login.disposed = false → LoginPage.Flags es login.fields) ∧
    ∀ es, exec SignUpPage.widget.step (created .initial) es = some signUp →
      signUp.disposed = false →
        (signUp.fields.loading = true ↔ es.getLast? = some (.callback .signUpPressed)) := by
  refine ⟨⟨?_, ?_⟩, ⟨?_, ?_⟩, ?_, ?_⟩
  · exact fun es => LoginPage.along_spares_iff
  · exact LoginPage.forall_along_spares_iff
  · exact fun es => SignUpPage.along_spares_iff
  · exact SignUpPage.forall_along_spares_iff
  · exact fun isLoggedIn es => LoginPage.flags_of_exec
  · exact fun es => SignUpPage.loading_iff_of_exec

/-- A login without a user, and two sign-ups of which one is answered. -/
theorem screens_live_stuck :
    LoginPage.Flags [.callback .logInPressed, .callback (.logInAnswered 0 .nothing)]
      ⟨true, false, [], [], false⟩ ∧
    (false = true ↔ [Event.callback SignUpEvent.signUpPressed, .callback .signUpPressed,
      .callback (.answered true)].getLast? = some (.callback .signUpPressed)) := by
  obtain ⟨-, -, hlogin, hsignUp⟩ :=
    screens_live ⟨⟨true, false, [], [], false⟩, false⟩ ⟨⟨false, 1⟩, false⟩
  exact ⟨hlogin false _ rfl rfl, hsignUp [.callback .signUpPressed, .callback .signUpPressed,
    .callback (.answered true)] rfl rfl⟩

end FlutterPractice.Auth
