import FlutterPractice.StepCounter.ClosedDay

/-! # The progress of today and of the history

Both views divide the steps by the goal and clamp the quotient. Only today's
view looks at the sign of the goal first. The history holds positive counts,
whatever the saves of it and the ends of the app, but any goal that was set.
-/

namespace FlutterPractice.StepCounter

open Dart Machine

inductive Quotient where
  | undefined
  | infinite (negative : Bool)
  | value (q : ℚ)
  deriving DecidableEq

def quotient (x y : ℤ) : Quotient :=
  if y = 0 then (if x = 0 then .undefined else .infinite (x < 0)) else .value (x / y)

/-- `clamp(0.0, 1.0)`, which leaves the undefined alone. -/
def Quotient.clamp : Quotient → Option ℚ
  | undefined => none
  | infinite negative => some (if negative then 0 else 1)
  | value q => some (max 0 (min q 1))

/-- `_progress` -/
def progress (todaySteps dailyGoal : ℤ) : Option ℚ :=
  if dailyGoal ≤ 0 then some 0 else (quotient todaySteps dailyGoal).clamp

namespace Entry

/-- The progress that the history view shows for the entry. -/
def progress (entry : Entry) : Option ℚ := (quotient entry.steps entry.goal).clamp

def hasTrophy (entry : Entry) : Bool := entry.goal ≤ entry.steps

/-- The progress is that of today's view, and earns the trophy when it is complete. -/
def Agrees (entry : Entry) : Prop :=
  quotient entry.steps entry.goal ≠ .undefined ∧
    ∃ p ∈ entry.progress, (0 ≤ p ∧ p ≤ 1) ∧
      StepCounter.progress entry.steps entry.goal = some p ∧ (entry.hasTrophy = true ↔ p = 1)

instance (entry : Entry) : Decidable entry.Agrees := inferInstanceAs (Decidable (_ ∧ _))

/-- For a positive count the views agree exactly when the goal is positive too. -/
theorem agrees_iff {entry : Entry} (hsteps : 0 < entry.steps) :
    entry.Agrees ↔ 0 < entry.goal := by
  obtain ⟨date, steps, goal⟩ := entry
  change 0 < steps at hsteps
  simp only [Agrees, progress, hasTrophy, StepCounter.progress, decide_eq_true_eq]
  rcases lt_trichotomy goal 0 with hgoal | rfl | hgoal
  · -- a negative quotient is no progress, but the count is above the goal
    have hq : ((steps : ℚ) / goal) ≤ 0 :=
      div_nonpos_of_nonneg_of_nonpos (by exact_mod_cast hsteps.le) (by exact_mod_cast hgoal.le)
    have hclamp : (quotient steps goal).clamp = some 0 := by
      simp [quotient, hgoal.ne, Quotient.clamp, min_eq_left (hq.trans zero_le_one), hq]
    refine iff_of_false ?_ hgoal.not_gt
    rintro ⟨-, p, hp, -, -, htrophy⟩
    obtain rfl := Option.some.inj (hclamp.symm.trans hp)
    exact zero_ne_one (htrophy.mp (hgoal.le.trans hsteps.le))
  · -- an infinite quotient is complete, but today's view has none
    have hclamp : (quotient steps 0).clamp = some 1 := by
      simp [quotient, hsteps.ne', Quotient.clamp, hsteps.le]
    refine iff_of_false ?_ (lt_irrefl _)
    rintro ⟨-, p, hp, -, htoday, -⟩
    obtain rfl := Option.some.inj (hclamp.symm.trans hp)
    simp at htoday
  · have hdiv : quotient steps goal = .value (steps / goal) := by simp [quotient, hgoal.ne']
    refine iff_of_true ?_ hgoal
    rw [hdiv, if_neg hgoal.not_ge]
    refine ⟨by simp, _, rfl, ⟨le_max_left _ _, ?_⟩, rfl, ?_⟩
    · exact max_le zero_le_one (min_le_right _ _)
    · have hgoalq : (0 : ℚ) < goal := by exact_mod_cast hgoal
      have hpos : (0 : ℚ) ≤ steps / goal := div_nonneg (by exact_mod_cast hsteps.le) hgoalq.le
      rw [max_eq_right (le_min hpos zero_le_one), min_eq_right_iff, one_le_div hgoalq]
      exact_mod_cast Iff.rfl

end Entry

/-- What happens to the page, and the end of its process with saves unfinished. -/
inductive PhoneEvent where
  | page (e : Event)
  | killed (checked later : Date)

def State.phoneStep (s : State) : PhoneEvent → Option State
  | .page e => s.step e
  | .killed checked later => some (.launch s.prefs s.clock checked later)

def closed (page : Page) (clock : Date) : Option Page :=
  if page.lastResetDate ≠ clock ∧ 0 < page.todaySteps then some page else none

def savedBy (s : State) : PhoneEvent → Option Page
  | .page .paused => if 0 < s.page.todaySteps then some s.page else none
  | .page (.resumed _) => closed s.page s.clock
  | .page (.restarted checked _) | .killed checked _ =>
    closed ((Page.create s.clock).loadSavedData s.prefs) checked
  | .page _ => none

/-- The page and the preferences have histories with the property. -/
structure Histories (P : List Entry → Prop) (s : State) : Prop where
  page : P s.page.stepHistory
  prefs : ∀ history ∈ s.prefs.stepHistory, P history

variable {P : List Entry → Prop} {page : Page} {s t : State} {e : PhoneEvent}

theorem mem_closed {clock : Date} {page' : Page} :
    page' ∈ closed page clock ↔
      (page.lastResetDate ≠ clock ∧ 0 < page.todaySteps) ∧ page = page' := by
  rw [closed, Option.mem_def, Option.ite_none_right_eq_some, Option.some.injEq]

theorem checkDateChange_stepHistory (s : State) (later : Date) :
    (s.checkDateChange later).page.stepHistory =
      match closed s.page s.clock with
      | some page => page.recordToday.stepHistory
      | none => s.page.stepHistory := by
  rw [State.checkDateChange_page, closed]
  by_cases hd : s.page.lastResetDate = s.clock
  · simp [hd]
  · by_cases hpos : 0 < s.page.todaySteps
    · simp [hd, hpos, Page.resetForNewDay]
    · simp [hd, hpos, Page.resetForNewDay]

/-- A change of date keeps the property where the record that it makes does. -/
theorem Histories.checkDateChange (h : Histories P s)
    (hclosed : ∀ page ∈ closed s.page s.clock, P page.recordToday.stepHistory) (later : Date) :
    Histories P (s.checkDateChange later) := by
  constructor
  · rw [checkDateChange_stepHistory]
    cases hc : closed s.page s.clock with
    | none => exact h.page
    | some page => exact hclosed page hc
  · rw [State.checkDateChange_prefs_stepHistory]
    exact h.prefs

theorem Histories.update (h : Histories P s) (hpage : P page.stepHistory) :
    Histories P (s.update page) :=
  ⟨hpage, h.prefs⟩

theorem Histories.loaded (h : Histories P s) (hsample : P sampleHistory) (created checked : Date) :
    Histories P ⟨(Page.create created).loadSavedData s.prefs, s.prefs, [], checked⟩ := by
  refine ⟨?_, h.prefs⟩
  change P (s.prefs.stepHistory.getD sampleHistory)
  cases hprefs : s.prefs.stepHistory with
  | none => exact hsample
  | some history => exact h.prefs history hprefs

theorem Histories.writeNext {i : ℕ} (h : Histories P s) (ht : s.writeNext i = some t) :
    Histories P t := by
  obtain ⟨key, keys, -, rfl⟩ := State.writeNext_eq_some.mp ht
  refine ⟨h.page, ?_⟩
  cases key with
  | stepHistory => exact fun history hh => Option.some.inj hh ▸ h.page
  | _ => exact h.prefs

/-- A property of histories that the sample has and every record keeps. -/
theorem Histories.step (h : Histories P s) (hnil : P []) (hsample : P sampleHistory)
    (hsaved : ∀ page ∈ savedBy s e, P page.stepHistory → P page.recordToday.stepHistory)
    (ht : s.phoneStep e = some t) : Histories P t := by
  have hlaunch (checked later : Date)
      (hclosed : ∀ page ∈ closed ((Page.create s.clock).loadSavedData s.prefs) checked,
        P page.stepHistory → P page.recordToday.stepHistory) :
      Histories P (.launch s.prefs s.clock checked later) := by
    have hloaded := h.loaded hsample s.clock checked
    refine hloaded.checkDateChange (fun page hp => ?_) later
    obtain ⟨-, rfl⟩ := mem_closed.mp hp
    exact hclosed _ hp hloaded.page
  cases e with
  | killed checked later =>
    obtain rfl := Option.some.inj ht
    exact hlaunch checked later hsaved
  | page e =>
    cases e with
    | dateChanged today =>
      obtain rfl := Option.some.inj ht
      exact ⟨h.page, h.prefs⟩
    | reading steps =>
      obtain rfl := Option.some.inj ht
      exact h.update (by rw [Page.onStepCount_stepHistory]; exact h.page)
    | paused =>
      obtain rfl := Option.some.inj ht
      unfold State.saveTodaySteps
      split
      · rename_i hpos
        exact h.update (hsaved s.page (if_pos hpos) h.page)
      · exact h
    | resumed later =>
      obtain rfl := Option.some.inj ht
      refine h.checkDateChange (fun page hp => ?_) later
      obtain ⟨-, rfl⟩ := mem_closed.mp hp
      exact hsaved _ hp h.page
    | resetToday | setGoal text =>
      obtain rfl := Option.some.inj ht
      exact h.update h.page
    | resetAll =>
      obtain rfl := Option.some.inj ht
      exact h.update hnil
    | write i => exact h.writeNext ht
    | restarted checked later =>
      obtain ⟨-, rfl⟩ := State.restarted_eq_some.mp ht
      exact hlaunch checked later hsaved

theorem savedBy_spec (h : Histories Tidy s) (ht : s.phoneStep e = some t)
    (hp : page ∈ savedBy s e) : 0 < page.todaySteps ∧ Tidy page.stepHistory ∧
      t.page.stepHistory = page.recordToday.stepHistory := by
  have hlaunch (checked later : Date)
      (hp : page ∈ closed ((Page.create s.clock).loadSavedData s.prefs) checked) :
      0 < page.todaySteps ∧ Tidy page.stepHistory ∧
        (State.launch s.prefs s.clock checked later).page.stepHistory =
          page.recordToday.stepHistory := by
    obtain ⟨⟨-, hpos⟩, hpage⟩ := mem_closed.mp hp
    refine ⟨hpage ▸ hpos, hpage ▸ (h.loaded tidy_sampleHistory s.clock checked).page, ?_⟩
    rw [State.launch, checkDateChange_stepHistory, hp]
  cases e with
  | killed checked later =>
    obtain rfl := Option.some.inj ht
    exact hlaunch checked later hp
  | page e =>
    cases e with
    | paused =>
      obtain rfl := Option.some.inj ht
      obtain ⟨hpos, hpage⟩ := Option.ite_none_right_eq_some.mp hp
      obtain rfl := Option.some.inj hpage
      rw [State.saveTodaySteps_page, if_pos hpos]
      exact ⟨hpos, h.page, rfl⟩
    | resumed later =>
      obtain rfl := Option.some.inj ht
      obtain ⟨⟨-, hpos⟩, rfl⟩ := mem_closed.mp hp
      refine ⟨hpos, h.page, ?_⟩
      have hclosed : closed s.page s.clock = some s.page := hp
      rw [checkDateChange_stepHistory, hclosed]
    | restarted checked later =>
      obtain ⟨-, rfl⟩ := State.restarted_eq_some.mp ht
      exact hlaunch checked later hp
    | _ => cases hp

/-- At most thirty days, one entry each, with positive counts and goals. -/
structure Attainable (history : List Entry) : Prop where
  tidy : Tidy history
  positive : ∀ entry ∈ history, 0 < entry.steps ∧ 0 < entry.goal

theorem attainable_nil : Attainable [] := ⟨⟨List.nodup_nil, Nat.zero_le _⟩, by simp⟩

theorem attainable_sampleHistory : Attainable sampleHistory := ⟨tidy_sampleHistory, by decide⟩

theorem eq_or_mem_of_mem_upsertEntry {date : String} {steps goal : ℤ} {history : List Entry}
    {entry : Entry} (h : entry ∈ upsertEntry date steps goal history) :
    (entry.steps = steps ∧ entry.goal = goal) ∨ entry ∈ history := by
  unfold upsertEntry at h
  split at h
  · rename_i i hi
    obtain ⟨j, hj⟩ := List.getElem?_of_mem h
    rw [List.getElem?_modify] at hj
    obtain ⟨item, hitem, rfl⟩ := Option.map_eq_some_iff.mp hj
    split
    · exact .inl ⟨rfl, rfl⟩
    · exact .inr (List.mem_of_getElem? hitem)
  · rcases List.mem_cons.mp h with rfl | h
    · exact .inl ⟨rfl, rfl⟩
    · exact .inr h

theorem Attainable.recordToday (h : Attainable page.stepHistory) (hsteps : 0 < page.todaySteps)
    (hgoal : 0 < page.dailyGoal) : Attainable page.recordToday.stepHistory := by
  refine ⟨h.tidy.recordToday.1, fun entry hentry => ?_⟩
  rw [stepHistory_recordToday] at hentry
  rcases eq_or_mem_of_mem_upsertEntry (List.mem_of_mem_take hentry) with ⟨hs, hg⟩ | hmem
  · rw [hs, hg]
    exact ⟨hsteps, hgoal⟩
  · exact h.positive entry hmem

theorem histories_launch_empty (created checked later : Date) :
    Histories Attainable (.launch .empty created checked later) := by
  have hopened : Histories Attainable (.opened created checked) :=
    ⟨attainable_sampleHistory, fun _ hh => by cases hh⟩
  refine hopened.checkDateChange (fun page hp => ?_) later
  obtain ⟨⟨-, hpos⟩, -⟩ := mem_closed.mp hp
  exact absurd hpos (lt_irrefl 0)

theorem Attainable.agrees {history : List Entry} (h : Attainable history) :
    ∀ entry ∈ history, entry.Agrees := by
  intro entry hentry
  obtain ⟨hsteps, hgoal⟩ := h.positive entry hentry
  exact (Entry.agrees_iff hsteps).mpr hgoal

/--
The views agree on every entry in every state of a run exactly when no steps are saved to the
history under a goal of zero or less.
-/
theorem along_agrees_iff (created checked later : Date) (es : List PhoneEvent) :
    ((∀ entry ∈ (State.launch .empty created checked later).page.stepHistory, entry.Agrees) ∧
      Along State.phoneStep (fun _ _ t => ∀ entry ∈ t.page.stepHistory, entry.Agrees)
        (.launch .empty created checked later) es) ↔
      Along State.phoneStep (fun s e _ => ∀ page ∈ savedBy s e, 0 < page.dailyGoal)
        (.launch .empty created checked later) es := by
  have hlaunch := histories_launch_empty created checked later
  rw [and_iff_right hlaunch.page.agrees]
  apply along_congr (I := Histories Attainable) hlaunch
  intro s e t hs ht
  have htidy : Histories Tidy s := ⟨hs.page.tidy, fun history hh => (hs.prefs history hh).tidy⟩
  have hnext (hgoals : ∀ page ∈ savedBy s e, 0 < page.dailyGoal) : Histories Attainable t := by
    refine hs.step attainable_nil attainable_sampleHistory (fun page hp hpage => ?_) ht
    exact hpage.recordToday (savedBy_spec htidy ht hp).1 (hgoals page hp)
  refine ⟨⟨fun hagrees page hp => ?_, fun hgoals => (hnext hgoals).page.agrees⟩, hnext⟩
  obtain ⟨hpos, hpage, hhistory⟩ := savedBy_spec htidy ht hp
  have hentry := hagrees _ (hhistory ▸ hpage.recordToday.2)
  exact (Entry.agrees_iff hpos).mp hentry

/-- With the goal 0 the history shows a complete day, and today's view no progress. -/
theorem zeroGoal_not_agrees :
    ¬ Along State.phoneStep (fun _ _ t => ∀ entry ∈ t.page.stepHistory, entry.Agrees)
      (.launch .empty march1 march1 march1)
      [.page (.setGoal "0"), .page (.reading 100), .page (.reading 150), .page .paused] := by
  decide +kernel

end FlutterPractice.StepCounter
