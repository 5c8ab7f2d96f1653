import FlutterPractice.StepCounter.Conservation
import FlutterPractice.StepCounter.Lifetime

/-! # Visits to the step counter page

The page is opened, left and opened again over the same preferences. A page
that has been left still hears the sources that nobody has cancelled, and its
saves go on. As long as the next page gets its preferences behind these saves,
any number of visits is one page that is restarted.
-/

namespace FlutterPractice.StepCounter

open Dart Machine Lifetime

structure Visits where
  page : Lifetime.Page Live
  left : List Live

/-- What happens to the page of the visit or to one that was left before, and the next visit. -/
inductive VisitEvent where
  | page (e : Lifetime.Event LiveEvent)
  | left (i : ℕ) (e : LiveEvent)
  | reopen

/-- The preferences and the clock are those of all pages. -/
def Live.share (l : Live) (s : State) : Live :=
  { l with state := { l.state with prefs := s.prefs, clock := s.clock } }

def visit (v : Visits) : VisitEvent → Option Visits
  | .page e => (Live.widget.step v.page e).map fun p => { v with page := p }
  | .left i e =>
    v.left[i]?.bind fun l =>
      (Live.widget.step ⟨l.share v.page.fields.state, true⟩ (.callback e)).map fun p =>
        ⟨{ v.page with fields := v.page.fields.share p.fields.state }, v.left.set i p.fields⟩
  | .reopen =>
    if v.page.disposed then
      let s := v.page.fields.state
      some ⟨created (.initial s.prefs s.clock), v.left ++ [v.page.fields]⟩
    else none

def Visits.initial (installed : Date) : Visits := ⟨created (.initial .empty installed), []⟩

/-- What the count sees of an event behind the disposal. -/
def heardLate : LiveEvent → List Event
  | .dateChanged today => [.dateChanged today]
  | .write i => [.write i]
  | _ => []

def heard (v : Visits) : VisitEvent → List Event
  | .page (.callback e) =>
    if v.page.disposed then heardLate e
    else if v.page.fields.awaitsPrefs then
      match e with
      | .dateChanged today | .resumed today => [.dateChanged today]
      | .prefsAnswered later =>
        let s := v.page.fields.state
        [.dateChanged s.page.lastResetDate, .restarted s.clock later]
      | _ => []
    else (Live.toEvent e).toList
  | .page .dispose => [.paused]
  | .left _ e => heardLate e
  | .reopen => []

def VisitEvent.leaves : VisitEvent → Bool
  | .page .dispose => true
  | _ => false

def VisitEvent.loads : VisitEvent → Bool
  | .page (.callback (.prefsAnswered _)) => true
  | _ => false

/-- A page is left only once it has its preferences, and gets them when no page that was left has a
save to finish. -/
def Orderly (v : Visits) (e : VisitEvent) (_ : Visits) : Prop :=
  (e.leaves = true → v.page.fields.awaitsPrefs = false) ∧
    (e.loads = true → ∀ l ∈ v.left, l.state.saves = [])

/-- The page of a visit that has just begun. -/
structure Awaiting (p : Lifetime.Page Live) (s : State) : Prop where
  mounted : p.disposed = false
  state : p.fields.state = { s with page := p.fields.state.page, saves := [] }
  totalSteps : p.fields.state.page.totalSteps = 0
  todaySteps : p.fields.state.page.todaySteps = 0
  awaitsPermission : p.fields.awaitsPermission = false
  listening : p.fields.listening = false

/-- Only the page that was left last may have saves to finish, and they are those of the run. -/
structure Leaving (left : List Live) (s : State) : Prop where
  last : ∀ i l, left[i]? = some l → l.state.saves ≠ [] →
    i + 1 = left.length ∧ l.state.page = s.page ∧ l.state.saves = s.saves
  saves : (∀ l ∈ left, l.state.saves = []) → s.saves = []

/-- The page is that of the run, once it has its preferences. -/
structure Visiting (v : Visits) (s : State) : Prop where
  left : ∀ l ∈ v.left, l.awaitsPrefs = false
  loaded : v.page.fields.awaitsPrefs = false →
    v.page.fields.state = s ∧ ∀ l ∈ v.left, l.state.saves = []
  awaiting : v.page.fields.awaitsPrefs = true → Awaiting v.page s ∧ Leaving v.left s

variable {p : Lifetime.Page Live} {left : List Live} {v w : Visits} {s t : State} {l : Live}
  {e : LiveEvent}

theorem awaiting_initial (s : State) : Awaiting (created (.initial s.prefs s.clock)) s :=
  ⟨rfl, rfl, rfl, rfl, rfl, rfl⟩

theorem visiting_initial (installed : Date) :
    Visiting (.initial installed) (.opened installed installed) where
  left := by simp [Visits.initial]
  loaded := by simp [Visits.initial, created, Live.initial]
  awaiting _ := ⟨awaiting_initial (.opened installed installed), by simp [Visits.initial],
    fun _ => rfl⟩

theorem Visiting.of_loaded (hleft : ∀ l ∈ left, l.awaitsPrefs = false)
    (h : p.fields.awaitsPrefs = false) (hp : p.fields.state = s)
    (hsaves : ∀ l ∈ left, l.state.saves = []) : Visiting ⟨p, left⟩ s :=
  ⟨hleft, fun _ => ⟨hp, hsaves⟩, fun h' => by simp [h] at h'⟩

theorem Visiting.of_awaiting (hleft : ∀ l ∈ left, l.awaitsPrefs = false)
    (h : p.fields.awaitsPrefs = true) (ha : Awaiting p s) (hl : Leaving left s) :
    Visiting ⟨p, left⟩ s :=
  ⟨hleft, fun h' => by simp [h] at h', fun _ => ⟨ha, hl⟩⟩

theorem Visiting.awaitsPrefs_of_disposed (h : Visiting v s) (hv : v.page.disposed = true) :
    v.page.fields.awaitsPrefs = false := by
  by_contra hne
  have hmounted := (h.awaiting (by simpa using hne)).1.mounted
  simp [hv] at hmounted

section Loaded

theorem checkDateChange_awaitsPrefs (later : Date) (h : l.awaitsPrefs = false) :
    (Live.checkDateChange later false l).fields.awaitsPrefs = false := by
  rw [Live.checkDateChange, Callback.branch]
  split
  · exact h
  · rw [Callback.andThen_of_returned (by rw [Live.saveTodaySteps_eq h]), Live.saveTodaySteps_eq h]
    simp only [Live.setClock, Callback.modify_andThen, Live.resetForNewDay,
      Callback.setState_andThen_mounted]
    rw [Live.saveData_eq (by exact h)]
    exact h

theorem onStepCount_awaitsPrefs (steps : ℤ) (h : l.awaitsPrefs = false) :
    (Live.onStepCount steps false l).fields.awaitsPrefs = false := by
  rw [Live.onStepCount, Callback.setState_andThen_mounted, Live.saveData_eq (by exact h)]
  exact h

theorem onPermission_frame (isGranted : Option Bool) (available disposed : Bool) (l : Live) :
    (Live.onPermission isGranted available disposed l).fields.state = l.state ∧
      (Live.onPermission isGranted available disposed l).fields.awaitsPrefs = l.awaitsPrefs := by
  rcases isGranted with _ | _ | _
  · exact ⟨rfl, rfl⟩
  · cases disposed <;> exact ⟨rfl, rfl⟩
  · cases disposed <;> cases available <;> exact ⟨rfl, rfl⟩

theorem onDone_frame (disposed : Bool) (l : Live) :
    (Live.onDone disposed l).fields.state = l.state ∧
      (Live.onDone disposed l).fields.awaitsPrefs = l.awaitsPrefs := by
  cases disposed <;> exact ⟨rfl, rfl⟩

/-- On the screen, with the preferences there, a callback is an event of the run or none. -/
theorem loaded_callback (h : l.awaitsPrefs = false) {c : Callback Live}
    (hc : Live.widget.callback l e = some c) :
    (c false l).fields.awaitsPrefs = false ∧
      exec State.step l.state (Live.toEvent e).toList = some (c false l).fields.state := by
  cases e with
  | dateChanged today =>
    obtain rfl := Option.some.inj hc
    exact ⟨h, rfl⟩
  | prefsAnswered later => simp [Live.widget, h] at hc
  | permissionAnswered isGranted available =>
    obtain ⟨-, hc⟩ := Option.ite_none_right_eq_some.mp hc
    obtain rfl := Option.some.inj hc
    obtain ⟨hstate, hprefs⟩ := onPermission_frame isGranted available false l
    exact ⟨hprefs.trans h, congrArg some hstate.symm⟩
  | reading steps =>
    obtain ⟨-, hc⟩ := Option.ite_none_right_eq_some.mp hc
    obtain rfl := Option.some.inj hc
    exact ⟨onStepCount_awaitsPrefs steps h,
      exec_singleton.trans (congrArg some (Live.onStepCount_mounted h steps).symm)⟩
  | streamError =>
    obtain ⟨-, hc⟩ := Option.ite_none_right_eq_some.mp hc
    obtain rfl := Option.some.inj hc
    exact ⟨h, rfl⟩
  | streamDone =>
    obtain ⟨-, hc⟩ := Option.ite_none_right_eq_some.mp hc
    obtain rfl := Option.some.inj hc
    obtain ⟨hstate, hprefs⟩ := onDone_frame false l
    exact ⟨hprefs.trans h, congrArg some hstate.symm⟩
  | paused =>
    obtain rfl := Option.some.inj hc
    rw [Live.saveTodaySteps_eq h]
    exact ⟨h, rfl⟩
  | resumed later =>
    obtain rfl := Option.some.inj hc
    exact ⟨checkDateChange_awaitsPrefs later h,
      exec_singleton.trans (congrArg some (Live.checkDateChange_mounted h later).symm)⟩
  | resetToday | resetAll | setGoal text =>
    obtain rfl := Option.some.inj hc
    rw [Live.update_mounted h]
    exact ⟨h, rfl⟩
  | write i =>
    obtain ⟨t, ht, rfl⟩ := Option.map_eq_some_iff.mp hc
    exact ⟨h, exec_singleton.trans ht⟩

/-- Behind the disposal only the clock goes on, and the saves that have begun. -/
theorem left_callback (h : l.awaitsPrefs = false) {c : Callback Live}
    (hscreen : Live.widget.onScreen e = false) (hc : Live.widget.callback l e = some c) :
    (c true l).fields.awaitsPrefs = false ∧
      exec State.step l.state (heardLate e) = some (c true l).fields.state := by
  cases e with
  | dateChanged today =>
    obtain rfl := Option.some.inj hc
    exact ⟨h, rfl⟩
  | prefsAnswered later => simp [Live.widget, h] at hc
  | permissionAnswered isGranted available =>
    obtain ⟨-, hc⟩ := Option.ite_none_right_eq_some.mp hc
    obtain rfl := Option.some.inj hc
    obtain ⟨hstate, hprefs⟩ := onPermission_frame isGranted available true l
    exact ⟨hprefs.trans h, congrArg some hstate.symm⟩
  | reading steps | streamError =>
    obtain ⟨-, hc⟩ := Option.ite_none_right_eq_some.mp hc
    obtain rfl := Option.some.inj hc
    exact ⟨h, rfl⟩
  | streamDone =>
    obtain ⟨-, hc⟩ := Option.ite_none_right_eq_some.mp hc
    obtain rfl := Option.some.inj hc
    obtain ⟨hstate, hprefs⟩ := onDone_frame true l
    exact ⟨hprefs.trans h, congrArg some hstate.symm⟩
  | write i =>
    obtain ⟨t, ht, rfl⟩ := Option.map_eq_some_iff.mp hc
    exact ⟨h, exec_singleton.trans ht⟩
  | paused | resumed | resetToday | resetAll | setGoal => cases hscreen

end Loaded

section Awaiting

theorem saveData_awaiting (h : l.awaitsPrefs = true) (disposed : Bool) :
    Live.saveData disposed l = ⟨l, false, false⟩ := by
  rw [Live.saveData, Callback.modify_apply, if_pos h]

theorem Awaiting.saves (h : Awaiting p s) : p.fields.state.saves = [] := by
  rw [h.state]

theorem Awaiting.setPage {f : Page → Page} (h : Awaiting ⟨l, false⟩ s)
    (htotal : (f l.state.page).totalSteps = 0) (htoday : (f l.state.page).todaySteps = 0) :
    Awaiting ⟨l.setPage f, false⟩ s := by
  refine ⟨rfl, ?_, htotal, htoday, h.awaitsPermission, h.listening⟩
  have hstate := h.state
  simp only [Live.setPage] at hstate ⊢
  rw [hstate]

theorem Awaiting.setClock (h : Awaiting ⟨l, false⟩ s) (today : Date) :
    Awaiting ⟨{ l with state := { l.state with clock := today } }, false⟩
      { s with clock := today } := by
  refine ⟨rfl, ?_, h.totalSteps, h.todaySteps, h.awaitsPermission, h.listening⟩
  have hstate := h.state
  simp only at hstate ⊢
  rw [hstate]

theorem Awaiting.update {f : Page → Page} (h : Awaiting ⟨l, false⟩ s) (hl : l.awaitsPrefs = true)
    (htotal : (f l.state.page).totalSteps = 0) (htoday : (f l.state.page).todaySteps = 0) :
    (Live.update f false l).fields.awaitsPrefs = true ∧
      Awaiting ⟨(Live.update f false l).fields, false⟩ s := by
  have hsame : (Live.update f false l).fields = l.setPage f := by
    rw [Live.update, Callback.setState_andThen_mounted, saveData_awaiting (by exact hl)]
  rw [hsame]
  exact ⟨hl, h.setPage htotal htoday⟩

theorem Awaiting.saveTodaySteps (h : Awaiting ⟨l, false⟩ s) :
    Live.saveTodaySteps false l = ⟨l, false, false⟩ := by
  have hzero : ¬ 0 < l.state.page.todaySteps := h.todaySteps.not_gt
  rw [Live.saveTodaySteps, Callback.branch, if_neg (by simpa using hzero), Callback.skip_apply]

theorem Awaiting.checkDateChange (h : Awaiting ⟨l, false⟩ s) (hl : l.awaitsPrefs = true)
    (later : Date) :
    (Live.checkDateChange later false l).fields.awaitsPrefs = true ∧
      Awaiting ⟨(Live.checkDateChange later false l).fields, false⟩ { s with clock := later } := by
  have hclock := h.setClock later
  rw [Live.checkDateChange, Callback.branch]
  split
  · exact ⟨hl, hclock⟩
  · rw [Callback.andThen_of_returned (by rw [h.saveTodaySteps]), h.saveTodaySteps]
    simp only [Live.setClock, Callback.modify_andThen, Live.resetForNewDay,
      Callback.setState_andThen_mounted]
    rw [saveData_awaiting (by exact hl)]
    have hpage := hclock.setPage (f := fun page => page.resetForNewDay later) h.totalSteps rfl
    exact ⟨hl, ⟨rfl, hpage.state, hpage.totalSteps, hpage.todaySteps, hpage.awaitsPermission,
      hpage.listening⟩⟩

theorem Awaiting.share {u : State} (h : Awaiting p s) (hprefs : t.prefs = u.prefs)
    (hclock : t.clock = u.clock) : Awaiting { p with fields := p.fields.share t } u := by
  refine ⟨h.mounted, ?_, h.totalSteps, h.todaySteps, h.awaitsPermission, h.listening⟩
  simp only [Live.share, h.saves, hprefs, hclock]

theorem loadSavedData_create {page : Page} (h : page.totalSteps = 0) (prefs : Prefs) :
    page.loadSavedData prefs = (Page.create page.lastResetDate).loadSavedData prefs := by
  simp [Page.loadSavedData, Page.create, h]

/-- The preferences restart the page on the day of its fields. -/
theorem Awaiting.initializePage (h : Awaiting ⟨l, false⟩ s) (hs : s.saves = []) (later : Date) :
    exec State.step s
      [.dateChanged l.state.page.lastResetDate, .restarted l.state.clock later] =
        some (Live.initializePage later false l).fields.state := by
  have hstate := h.state
  simp only at hstate
  have hload := loadSavedData_create h.totalSteps s.prefs
  rw [Live.initializePage, Callback.modify_andThen, Live.checkDateChange_mounted rfl]
  simp only [Live.setPage, exec, State.step, hs, Option.bind_some, if_true, State.launch]
  rw [hstate]
  simp only at hload ⊢
  rw [hload]

theorem initializePage_awaitsPrefs (later : Date) (l : Live) :
    (Live.initializePage later false l).fields.awaitsPrefs = false := by
  rw [Live.initializePage, Callback.modify_andThen]
  exact checkDateChange_awaitsPrefs later rfl

theorem Leaving.setClock (h : Leaving left s) (today : Date) :
    Leaving left { s with clock := today } := ⟨h.last, h.saves⟩

theorem Visiting.callback_awaiting (hleft : ∀ l ∈ left, l.awaitsPrefs = false)
    (h : Awaiting ⟨l, false⟩ s) (hleaving : Leaving left s) (hl : l.awaitsPrefs = true)
    (horderly : Orderly ⟨⟨l, false⟩, left⟩ (.page (.callback e)) w) {c : Callback Live}
    (hc : Live.widget.callback l e = some c) :
    ∃ t, exec State.step s (heard ⟨⟨l, false⟩, left⟩ (.page (.callback e))) = some t ∧
      Visiting ⟨⟨(c false l).fields, false⟩, left⟩ t := by
  have hpermission : l.awaitsPermission = false := h.awaitsPermission
  have hlistening : l.listening = false := h.listening
  have hdate (today : Date) : exec State.step s [.dateChanged today] =
      some { s with clock := today } := rfl
  cases e with
  | dateChanged today =>
    obtain rfl := Option.some.inj hc
    refine ⟨_, by simpa [heard, hl] using hdate today, ?_⟩
    exact .of_awaiting hleft hl (h.setClock today) (hleaving.setClock today)
  | prefsAnswered later =>
    obtain ⟨-, hc⟩ := Option.ite_none_right_eq_some.mp hc
    obtain rfl := Option.some.inj hc
    have hsaves := horderly.2 rfl
    have hexec := h.initializePage (hleaving.saves hsaves) later
    refine ⟨_, by simpa [heard, hl] using hexec, ?_⟩
    exact .of_loaded hleft (initializePage_awaitsPrefs later l) rfl hsaves
  | permissionAnswered isGranted available => simp [Live.widget, hpermission] at hc
  | reading steps | streamError | streamDone => simp [Live.widget, hlistening] at hc
  | paused =>
    obtain rfl := Option.some.inj hc
    refine ⟨s, by simp [heard, hl, exec], ?_⟩
    rw [h.saveTodaySteps]
    exact .of_awaiting hleft hl h hleaving
  | resumed later =>
    obtain rfl := Option.some.inj hc
    obtain ⟨hprefs, hnext⟩ := h.checkDateChange hl later
    refine ⟨_, by simpa [heard, hl] using hdate later, ?_⟩
    exact .of_awaiting hleft hprefs hnext (hleaving.setClock later)
  | resetToday =>
    obtain rfl := Option.some.inj hc
    obtain ⟨hprefs, hnext⟩ := h.update (f := Page.resetTodaySteps) hl h.totalSteps rfl
    exact ⟨s, by simp [heard, hl, exec], .of_awaiting hleft hprefs hnext hleaving⟩
  | resetAll =>
    obtain rfl := Option.some.inj hc
    obtain ⟨hprefs, hnext⟩ := h.update (f := Page.resetAllHistory) hl h.totalSteps rfl
    exact ⟨s, by simp [heard, hl, exec], .of_awaiting hleft hprefs hnext hleaving⟩
  | setGoal text =>
    obtain rfl := Option.some.inj hc
    obtain ⟨hprefs, hnext⟩ :=
      h.update (f := fun page => page.setGoal text) hl h.totalSteps h.todaySteps
    exact ⟨s, by simp [heard, hl, exec], .of_awaiting hleft hprefs hnext hleaving⟩
  | write i => simp [Live.widget, writeNext_nil h.saves] at hc

end Awaiting

section Left

theorem heardLate_cases (e : LiveEvent) (clock : Date) :
    (∃ today, ∀ s : State, s.clock = clock →
      exec State.step s (heardLate e) = some { s with clock := today }) ∨
      ∃ i, heardLate e = [.write i] := by
  cases e with
  | dateChanged today => exact .inl ⟨today, fun _ _ => rfl⟩
  | write i => exact .inr ⟨i, rfl⟩
  | _ =>
    refine .inl ⟨clock, fun s hs => ?_⟩
    subst hs
    rfl

theorem forall_mem_set {P : Live → Prop} {l' : Live} (i : ℕ) (h : ∀ l ∈ left, P l) (hl' : P l') :
    ∀ l ∈ left.set i l', P l := by
  intro l hl
  rcases List.mem_or_eq_of_mem_set hl with hl | rfl
  · exact h l hl
  · exact hl'

theorem Leaving.keep {i : ℕ} {l' : Live} (h : Leaving left s) (hi : left[i]? = some l)
    (hpage : l'.state.page = l.state.page) (hsaves : l'.state.saves = l.state.saves) :
    Leaving (left.set i l') s where
  last k m hm hne := by
    rw [List.length_set]
    rcases eq_or_ne i k with rfl | hik
    · obtain rfl : m = l' := by simpa [(List.getElem?_eq_some_iff.mp hi).1] using hm.symm
      rw [hsaves] at hne
      rw [hpage, hsaves]
      exact h.last i l hi hne
    · exact h.last k m (by rwa [List.getElem?_set_ne hik] at hm) hne
  saves hall := by
    apply h.saves
    intro m hm
    obtain ⟨k, hk⟩ := List.getElem?_of_mem hm
    rcases eq_or_ne i k with rfl | hik
    · obtain rfl := Option.some.inj (hi.symm.trans hk)
      rw [← hsaves]
      exact hall l' (List.mem_set (List.getElem?_eq_some_iff.mp hi).1 l')
    · exact hall m (List.mem_of_getElem? ((List.getElem?_set_ne hik).trans hk))

theorem Leaving.write {i : ℕ} {l' : Live} (h : Leaving left s) (hi : left[i]? = some l)
    (hne : l.state.saves ≠ []) (hpage : l'.state.page = t.page)
    (hsaves : l'.state.saves = t.saves) : Leaving (left.set i l') t where
  last k m hm hm' := by
    obtain ⟨hlast, -, -⟩ := h.last i l hi hne
    rw [List.length_set]
    rcases eq_or_ne i k with rfl | hik
    · obtain rfl : m = l' := by simpa [(List.getElem?_eq_some_iff.mp hi).1] using hm.symm
      exact ⟨hlast, hpage, hsaves⟩
    · obtain ⟨hk, -, -⟩ := h.last k m (by rwa [List.getElem?_set_ne hik] at hm) hm'
      omega
  saves hall := by
    rw [← hsaves]
    exact hall l' (List.mem_set (List.getElem?_eq_some_iff.mp hi).1 l')

/-- The page that is left last leaves its saves behind. -/
theorem leaving_append (h : ∀ l ∈ left, l.state.saves = []) (l : Live) :
    Leaving (left ++ [l]) l.state where
  last i m hm hne := by
    rw [List.getElem?_append] at hm
    split at hm
    · exact absurd (h m (List.mem_of_getElem? hm)) hne
    · rw [List.getElem?_singleton] at hm
      obtain ⟨hi, hm⟩ := Option.ite_none_right_eq_some.mp hm
      obtain rfl := Option.some.inj hm
      exact ⟨by rw [List.length_append, List.length_singleton]; omega, rfl, rfl⟩
  saves hall := hall l (List.mem_append_right _ (List.mem_singleton_self l))

theorem Visiting.clock (h : Visiting v s) : v.page.fields.state.clock = s.clock := by
  cases hp : v.page.fields.awaitsPrefs with
  | false => rw [(h.loaded hp).1]
  | true => rw [(h.awaiting hp).1.state]

theorem Visiting.prefs (h : Visiting v s) : v.page.fields.state.prefs = s.prefs := by
  cases hp : v.page.fields.awaitsPrefs with
  | false => rw [(h.loaded hp).1]
  | true => rw [(h.awaiting hp).1.state]

/-- What comes to a page that was left is a date, or a write of the saves that the run has yet to
finish. -/
theorem Visiting.late (h : Visiting v s) {i : ℕ} (hi : v.left[i]? = some l) {l' : Live}
    (hl' : l'.awaitsPrefs = false)
    (hexec : exec State.step (l.share v.page.fields.state).state (heardLate e) = some l'.state) :
    ∃ t, exec State.step s (heardLate e) = some t ∧
      Visiting ⟨{ v.page with fields := v.page.fields.share l'.state }, v.left.set i l'⟩ t := by
  have hmem := List.mem_of_getElem? hi
  have hleft := forall_mem_set i h.left hl'
  rcases heardLate_cases e s.clock with ⟨today, hdate⟩ | ⟨j, hheard⟩
  · have hstate := Option.some.inj (hexec.symm.trans (hdate _ h.clock))
    have hprefs : l'.state.prefs = s.prefs := by rw [hstate]; exact h.prefs
    have hclock : l'.state.clock = today := by rw [hstate]
    have hpage : l'.state.page = l.state.page := by rw [hstate]; rfl
    have hsaves : l'.state.saves = l.state.saves := by rw [hstate]; rfl
    refine ⟨_, hdate s rfl, hleft, fun hp => ?_, fun hp => ?_⟩
    · obtain ⟨hs, hdone⟩ := h.loaded hp
      refine ⟨?_, forall_mem_set i hdone (hsaves.trans (hdone l hmem))⟩
      simp only [Live.share, hs, hprefs, hclock]
    · obtain ⟨hawaiting, hleaving⟩ := h.awaiting hp
      exact ⟨hawaiting.share hprefs hclock, (hleaving.keep hi hpage hsaves).setClock today⟩
  · rw [hheard] at hexec ⊢
    have hne : l.state.saves ≠ [] := by
      intro hnil
      obtain ⟨u, hu, -⟩ := exec_cons.mp hexec
      have hnone : (l.share v.page.fields.state).state.writeNext j = none := writeNext_nil hnil
      simp [State.step, hnone] at hu
    have hp : v.page.fields.awaitsPrefs = true := by
      by_contra hp
      exact hne ((h.loaded (by simpa using hp)).2 l hmem)
    obtain ⟨hawaiting, hleaving⟩ := h.awaiting hp
    obtain ⟨-, hpage, hsaves⟩ := hleaving.last i l hi hne
    have hsame : (l.share v.page.fields.state).state = s := by
      simp only [Live.share, hpage, hsaves, h.prefs, h.clock]
    rw [hsame] at hexec
    exact ⟨_, hexec, .of_awaiting hleft hp (hawaiting.share rfl rfl)
      (hleaving.write hi hne rfl rfl)⟩

end Left

theorem Visiting.step {e : VisitEvent} (h : Visiting v s) (horderly : Orderly v e w)
    (hw : visit v e = some w) :
    ∃ t, exec State.step s (heard v e) = some t ∧ Visiting w t := by
  cases e with
  | reopen =>
    obtain ⟨hdisposed, hw⟩ := Option.ite_none_right_eq_some.mp hw
    obtain rfl := Option.some.inj hw
    have hl := h.awaitsPrefs_of_disposed hdisposed
    obtain ⟨rfl, hsaves⟩ := h.loaded hl
    refine ⟨_, rfl, .of_awaiting ?_ rfl (awaiting_initial _) (leaving_append hsaves _)⟩
    exact List.forall_mem_append.mpr ⟨h.left, List.forall_mem_singleton.mpr hl⟩
  | left i e =>
    obtain ⟨l, hi, hw⟩ := Option.bind_eq_some_iff.mp hw
    obtain ⟨p, hp, rfl⟩ := Option.map_eq_some_iff.mp hw
    obtain ⟨hscreen, c, hc, rfl⟩ := Widget.step_disposed rfl hp
    have hl : (l.share v.page.fields.state).awaitsPrefs = false :=
      h.left l (List.mem_of_getElem? hi)
    obtain ⟨hprefs, hexec⟩ := left_callback hl hscreen hc
    exact h.late hi hprefs hexec
  | page e =>
    obtain ⟨⟨l, disposed⟩, left⟩ := v
    obtain ⟨p, hp, rfl⟩ := Option.map_eq_some_iff.mp hw
    cases e with
    | dispose =>
      have hl : l.awaitsPrefs = false := horderly.1 rfl
      obtain ⟨rfl, hsaves⟩ := h.loaded hl
      obtain ⟨-, hp⟩ := Option.ite_none_left_eq_some.mp hp
      obtain rfl := Option.some.inj hp
      have hsave : Live.widget.dispose false l = _ := Live.saveTodaySteps_eq hl
      rw [hsave]
      exact ⟨_, rfl, .of_loaded h.left hl rfl hsaves⟩
    | callback e =>
      cases disposed with
      | false =>
        obtain ⟨c, hc, rfl⟩ := Option.map_eq_some_iff.mp hp
        cases hl : l.awaitsPrefs with
        | false =>
          obtain ⟨rfl, hsaves⟩ := h.loaded hl
          obtain ⟨hprefs, hexec⟩ := loaded_callback hl hc
          refine ⟨_, ?_, .of_loaded h.left hprefs rfl hsaves⟩
          simpa [heard, hl] using hexec
        | true =>
          obtain ⟨hawaiting, hleaving⟩ := h.awaiting hl
          exact Visiting.callback_awaiting h.left hawaiting hleaving hl horderly hc
      | true =>
        obtain ⟨hscreen, c, hc, rfl⟩ := Widget.step_disposed rfl hp
        have hl := h.awaitsPrefs_of_disposed rfl
        obtain ⟨rfl, hsaves⟩ := h.loaded hl
        obtain ⟨hprefs, hexec⟩ := left_callback hl hscreen hc
        exact ⟨_, hexec, .of_loaded h.left hprefs rfl hsaves⟩

/-- What the count has heard over the visits, since the app was installed. -/
def heardSince (installed : Date) (es : List VisitEvent) : List Event :=
  outputs visit heard (.initial installed) es

variable {installed : Date} {es : List VisitEvent}

instance (v w : Visits) (e : VisitEvent) : Decidable (Orderly v e w) :=
  inferInstanceAs (Decidable (_ ∧ _))

theorem visiting_of_exec (horderly : Along visit Orderly (.initial installed) es)
    (h : exec visit (.initial installed) es = some v) :
    ∃ s, exec State.step (.opened installed installed) (heardSince installed es) = some s ∧
      Visiting v s :=
  horderly.refinement (visiting_initial installed)
    (fun _ _ _ _ hv horderly hw => hv.step horderly hw) h

/-- Fifty steps, and a reading behind the disposal. -/
def firstVisit : List VisitEvent :=
  [.page (.callback (.prefsAnswered march1)),
    .page (.callback (.permissionAnswered (some true) true)), .page (.callback (.reading 100)),
    .page (.callback (.reading 150)), .page .dispose, .page (.callback (.reading 400))]

/-- The second visit begins over the saves of the first one, and gets its preferences behind
them. -/
def twoVisits : List VisitEvent :=
  firstVisit ++ [.reopen, .left 0 (.reading 450)] ++ List.replicate 12 (.left 0 (.write 0)) ++
    [.page (.callback (.prefsAnswered march1))]

/-- Preferences that come before the saves are done lose the fifty steps. -/
example : (exec visit (.initial march1)
    (firstVisit ++ [.reopen, .page (.callback (.prefsAnswered march1))])).map
      (fun v => v.page.fields.state.page.todaySteps) = some 0 := by decide

end FlutterPractice.StepCounter
