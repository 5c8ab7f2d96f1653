import FlutterPractice.StepCounter.Midnight

/-! # A restart beside the run that goes on

Two pages get the same events: one goes on, the other has just been rebuilt
from the preferences. `_totalSteps` is the field that no save writes, and a
reset takes the baseline from it. So the pages count alike until a reset comes
between the restart and the next reading.
-/

namespace FlutterPractice.StepCounter

open Dart Machine

/-- All saves of a run have finished, and there was one. -/
def Finished (s : State) : Prop :=
  ∃ prefs created checked later pre u post,
    exec State.step (State.launch prefs created checked later) pre = some u ∧ u.saves ≠ [] ∧
      exec State.step u post = some s ∧ s.saves = []

/-- What the rebuilt page has seen since the restart. -/
inductive Since | restarted | reset | read
  deriving DecidableEq

structure Twin where
  live : State
  rebuilt : State
  since : Since
  deriving DecidableEq

inductive TwinEvent where
  | both (e : Event)
  | writeLive (i : ℕ)
  | writeRebuilt (i : ℕ)
  deriving DecidableEq

/-- The event takes the baseline from `_totalSteps`. -/
def Event.resets (clock : Date) (page : Page) : Event → Bool
  | .resetToday | .resetAll => true
  | .resumed _ => !isSameDay page.lastResetDate clock
  | _ => false

def Since.next (since : Since) (s : State) : Event → Since
  | .reading _ => .read
  | e => if since = .restarted ∧ e.resets s.clock s.page then .reset else since

/-- Kill the page and initialise it again on the same date. -/
def State.relaunch (s : State) : State := .launch s.prefs s.clock s.clock s.clock

def Twin.split (s : State) : Twin := ⟨s, s.relaunch, .restarted⟩

def Twin.step (w : Twin) : TwinEvent → Option Twin
  | .both e =>
    if e.shared then
      match w.live.step e, w.rebuilt.step e with
      | some live, some rebuilt => some ⟨live, rebuilt, w.since.next w.live e⟩
      | _, _ => none
    else none
  | .writeLive i => (w.live.writeNext i).map fun live => { w with live := live }
  | .writeRebuilt i => (w.rebuilt.writeNext i).map fun rebuilt => { w with rebuilt := rebuilt }

/-- The pages show the same count, baseline, goal and history. -/
structure Alike (page page' : Page) : Prop where
  todaySteps : page.todaySteps = page'.todaySteps
  baselineSteps : page.baselineSteps = page'.baselineSteps
  dailyGoal : page.dailyGoal = page'.dailyGoal
  stepHistory : page.stepHistory = page'.stepHistory

def AlikeAfterReading (_ : Twin) (e : TwinEvent) (w' : Twin) : Prop :=
  match e with
  | .both (.reading _) => Alike w'.live.page w'.rebuilt.page
  | _ => True

/-- The first reading after a reset that followed the restart finds no `_totalSteps` that the
rebuilt page would need: it is unset, or the reading does not go beyond it. -/
def TotalUnneeded (w : Twin) (e : TwinEvent) (_ : Twin) : Prop :=
  match e with
  | .both (.reading steps) => w.since = .reset →
      w.live.page.totalSteps = 0 ∨ steps ≤ w.live.page.totalSteps
  | _ => True

namespace Page

theorem onStepCount_of_le {page : Page} {steps : ℤ}
    (h : page.baselineSteps = 0 ∨ steps ≤ page.baselineSteps) :
    page.onStepCount steps =
      { page with totalSteps := steps, todaySteps := 0, baselineSteps := steps } := by
  by_cases hr : rebases page steps
  · exact onStepCount_of_rebases hr
  · -- The reading is the baseline itself.
    rw [onStepCount_of_not_rebases hr]
    simp only [rebases, Bool.or_eq_true, decide_eq_true_eq, not_or, not_lt] at hr
    obtain rfl : steps = page.baselineSteps := le_antisymm (h.resolve_left hr.1) hr.2
    rw [sub_self]

theorem onStepCount_of_lt {page : Page} {steps : ℤ} (h0 : page.baselineSteps ≠ 0)
    (h : page.baselineSteps < steps) : (page.onStepCount steps).todaySteps ≠ 0 := by
  have hr : ¬ rebases page steps := by
    simp only [rebases, Bool.or_eq_true, decide_eq_true_eq, not_or, not_lt]
    exact ⟨h0, h.le⟩
  rw [onStepCount_of_not_rebases hr]
  exact (Int.sub_pos_of_lt h).ne'

end Page

variable {s t : State} {e : Event}

/-- The page as it comes back from the preferences. -/
def Page.withoutTotal (page : Page) : Page := { page with totalSteps := 0 }

/-- That page behind a reset, which takes the baseline from the total. -/
def Page.withoutBaseline (page : Page) : Page := { page with totalSteps := 0, baselineSteps := 0 }

/-- Nothing has been counted since a reset. -/
def Page.AtReset (page : Page) : Prop :=
  page.todaySteps = 0 ∧ page.baselineSteps = page.totalSteps

variable {clock : Date} {page : Page}

theorem onPage_withoutTotal (hread : ∀ steps, e ≠ .reading steps) (he : ¬ e.resets clock page) :
    e.onPage clock page.withoutTotal = (e.onPage clock page).withoutTotal := by
  cases e with
  | reading steps => exact (hread steps rfl).elim
  | paused =>
    exact (apply_ite Page.withoutTotal (0 < page.todaySteps) page.recordToday page).symm
  | resumed later =>
    have hd : page.lastResetDate = clock := by
      by_contra hd
      exact he (by simp [Event.resets, isSameDay_iff, Bool.eq_false_iff, hd])
    have hd' : page.withoutTotal.lastResetDate = clock := hd
    simp only [Event.onPage, if_pos hd, if_pos hd']
  | resetToday | resetAll => exact (he rfl).elim
  | _ => rfl

theorem onPage_of_resets (he : e.resets clock page) :
    e.onPage clock page.withoutTotal = (e.onPage clock page).withoutBaseline ∧
      (e.onPage clock page).AtReset := by
  cases e with
  | resumed later =>
    have hd : page.lastResetDate ≠ clock := by
      intro hd
      rw [Event.resets, isSameDay_iff.mpr hd] at he
      cases he
    have hd' : page.withoutTotal.lastResetDate ≠ clock := hd
    simp only [Event.onPage, if_neg hd, if_neg hd']
    by_cases ht : 0 < page.todaySteps
    · have ht' : 0 < page.withoutTotal.todaySteps := ht
      rw [if_pos ht, if_pos ht']
      exact ⟨rfl, rfl, rfl⟩
    · have ht' : ¬ 0 < page.withoutTotal.todaySteps := ht
      rw [if_neg ht, if_neg ht']
      exact ⟨rfl, rfl, rfl⟩
  | resetToday | resetAll => exact ⟨rfl, rfl, rfl⟩
  | _ => cases he

theorem Page.AtReset.onPage (h : page.AtReset) (hread : ∀ steps, e ≠ .reading steps) :
    e.onPage clock page.withoutBaseline = (e.onPage clock page).withoutBaseline ∧
      (e.onPage clock page).AtReset := by
  have ht : ¬ 0 < page.todaySteps := h.1.not_gt
  have ht' : ¬ 0 < page.withoutBaseline.todaySteps := ht
  cases e with
  | reading steps => exact (hread steps rfl).elim
  | paused =>
    have hp : Event.paused.onPage clock page = page := if_neg ht
    have hp' : Event.paused.onPage clock page.withoutBaseline = page.withoutBaseline := if_neg ht'
    rw [hp, hp']
    exact ⟨rfl, h⟩
  | resumed later =>
    simp only [Event.onPage, if_neg ht, if_neg ht']
    by_cases hd : page.lastResetDate = clock
    · have hd' : page.withoutBaseline.lastResetDate = clock := hd
      rw [if_pos hd, if_pos hd']
      exact ⟨rfl, h⟩
    · have hd' : page.withoutBaseline.lastResetDate ≠ clock := hd
      rw [if_neg hd, if_neg hd']
      exact ⟨rfl, rfl, rfl⟩
  | resetToday | resetAll => exact ⟨rfl, rfl, rfl⟩
  | dateChanged today | write i | restarted checked later | setGoal text => exact ⟨rfl, h⟩

/-- Behind a reset, the two baselines make a difference exactly to a reading beyond the total. -/
theorem onStepCount_withoutBaseline (h : page.AtReset) (steps : ℤ) :
    (page.totalSteps = 0 ∨ steps ≤ page.totalSteps →
      page.withoutBaseline.onStepCount steps = page.onStepCount steps) ∧
    (Alike (page.onStepCount steps) (page.withoutBaseline.onStepCount steps) →
      page.totalSteps = 0 ∨ steps ≤ page.totalSteps) := by
  have hnew := @Page.onStepCount_of_le page.withoutBaseline steps (.inl rfl)
  constructor
  · intro hle
    rw [hnew, Page.onStepCount_of_le (h.2 ▸ hle)]
    rfl
  · intro halike
    by_contra hnot
    obtain ⟨h0, hlt⟩ := not_or.mp hnot
    have hne := Page.onStepCount_of_lt (h.2 ▸ h0) (h.2 ▸ not_le.mp hlt)
    rw [halike.todaySteps, hnew] at hne
    exact hne rfl

/-- How the rebuilt page differs from the live one. -/
def Differs : Since → Page → Page → Prop
  | .restarted, live, rebuilt => rebuilt = live.withoutTotal
  | .reset, live, rebuilt => rebuilt = live.withoutBaseline ∧ live.AtReset
  | .read, live, rebuilt => rebuilt = live

theorem Alike.refl (page : Page) : Alike page page := ⟨rfl, rfl, rfl, rfl⟩

variable {live rebuilt : Page} {since : Since}

theorem Differs.onPage (h : Differs since s.page rebuilt) (hread : ∀ steps, e ≠ .reading steps) :
    Differs (since.next s e) (e.onPage s.clock s.page) (e.onPage s.clock rebuilt) := by
  have hnext : since.next s e =
      if since = .restarted ∧ e.resets s.clock s.page then .reset else since := by
    cases e with
    | reading steps => exact (hread steps rfl).elim
    | _ => rfl
  rw [hnext]
  cases since with
  | restarted =>
    obtain rfl : rebuilt = _ := h
    by_cases he : e.resets s.clock s.page
    · rw [if_pos ⟨rfl, he⟩]
      exact onPage_of_resets he
    · rw [if_neg fun hr => he hr.2]
      exact onPage_withoutTotal hread he
  | reset =>
    obtain ⟨rfl, hreset⟩ := h
    exact hreset.onPage hread
  | read =>
    obtain rfl : rebuilt = _ := h
    exact rfl

theorem Differs.onStepCount (h : Differs since live rebuilt) (steps : ℤ) :
    ((since = .reset → live.totalSteps = 0 ∨ steps ≤ live.totalSteps) →
      rebuilt.onStepCount steps = live.onStepCount steps) ∧
    (Alike (live.onStepCount steps) (rebuilt.onStepCount steps) → since = .reset →
      live.totalSteps = 0 ∨ steps ≤ live.totalSteps) := by
  cases since with
  | restarted =>
    obtain rfl : rebuilt = _ := h
    exact ⟨fun _ => rfl, fun _ hr => by cases hr⟩
  | reset =>
    obtain ⟨rfl, hreset⟩ := h
    obtain ⟨hle, halike⟩ := onStepCount_withoutBaseline hreset steps
    exact ⟨fun hr => hle (hr rfl), fun ha _ => halike ha⟩
  | read =>
    obtain rfl : rebuilt = _ := h
    exact ⟨fun _ => rfl, fun _ hr => by cases hr⟩

structure Related (w : Twin) : Prop where
  clock : w.rebuilt.clock = w.live.clock
  page : Differs w.since w.live.page w.rebuilt.page

variable {w w' : Twin} {event : TwinEvent}

theorem twin_cases (h : w.step event = some w') :
    (∃ e, event = .both e ∧ e.shared ∧ w.live.step e = some w'.live ∧
      w.rebuilt.step e = some w'.rebuilt ∧ w'.since = w.since.next w.live e) ∨
    ((∀ e, event ≠ .both e) ∧ w'.live.page = w.live.page ∧ w'.live.clock = w.live.clock ∧
      w'.rebuilt.page = w.rebuilt.page ∧ w'.rebuilt.clock = w.rebuilt.clock ∧
      w'.since = w.since) := by
  cases event with
  | both e =>
    simp only [Twin.step] at h
    split at h
    · rename_i he
      split at h
      · rename_i l r hl hr
        obtain rfl := Option.some.inj h
        exact .inl ⟨e, rfl, he, hl, hr, rfl⟩
      · cases h
    · cases h
  | writeLive i =>
    obtain ⟨live, hl, rfl⟩ := Option.map_eq_some_iff.mp h
    obtain ⟨hpage, hclock⟩ := writeNext_onPage hl
    exact .inr ⟨fun e he => (by cases he), hpage, hclock, rfl, rfl, rfl⟩
  | writeRebuilt i =>
    obtain ⟨rebuilt, hr, rfl⟩ := Option.map_eq_some_iff.mp h
    obtain ⟨hpage, hclock⟩ := writeNext_onPage hr
    exact .inr ⟨fun e he => (by cases he), rfl, rfl, hpage, hclock, rfl⟩

theorem Related.step (h : Related w) (hw : w.step event = some w')
    (hkept : TotalUnneeded w event w') : AlikeAfterReading w event w' ∧ Related w' := by
  rcases twin_cases hw with ⟨e, rfl, he, hl, hr, hs⟩ | ⟨hno, hlp, hlc, hrp, hrc, hs⟩
  · obtain ⟨hlp, hlc⟩ := step_onPage he hl
    obtain ⟨hrp, hrc⟩ := step_onPage he hr
    rw [h.clock] at hrp hrc
    have hclock : w'.rebuilt.clock = w'.live.clock := hrc.trans hlc.symm
    by_cases hread : ∃ steps, e = .reading steps
    · obtain ⟨steps, rfl⟩ := hread
      have hpage : w'.rebuilt.page = w'.live.page := by
        rw [hlp, hrp]
        exact (h.page.onStepCount steps).1 hkept
      refine ⟨?_, hclock, ?_⟩
      · simp only [AlikeAfterReading, hpage]
        exact .refl _
      · rw [hs]
        exact hpage
    · have hread := not_exists.mp hread
      refine ⟨?_, hclock, ?_⟩
      · cases e with
        | reading steps => exact (hread steps rfl).elim
        | _ => trivial
      · rw [hs, hlp, hrp]
        exact h.page.onPage hread
  · refine ⟨?_, ?_, ?_⟩
    · cases event with
      | both e => exact (hno e rfl).elim
      | _ => trivial
    · rw [hrc, hlc, h.clock]
    · rw [hs, hlp, hrp]
      exact h.page

theorem Related.totalUnneeded (h : Related w) (hw : w.step event = some w')
    (halike : AlikeAfterReading w event w') : TotalUnneeded w event w' := by
  rcases twin_cases hw with ⟨e, rfl, he, hl, hr, -⟩ | ⟨hno, -⟩
  · cases e with
    | reading steps =>
      have halike : Alike w'.live.page w'.rebuilt.page := halike
      rw [(step_onPage he hl).1, (step_onPage he hr).1] at halike
      exact (h.page.onStepCount steps).2 halike
    | _ => trivial
  · cases event with
    | both e => exact (hno e rfl).elim
    | _ => trivial

theorem exists_step (he : e.shared) : ∃ t, s.step e = some t := by
  cases e with
  | write i | restarted checked later => cases he
  | _ => exact ⟨_, rfl⟩

theorem along_both {R : Twin → TwinEvent → Twin → Prop} {es : List TwinEvent} (he : e.shared)
    (h : Along Twin.step R w (.both e :: es)) :
    ∃ w', w.step (.both e) = some w' ∧ w'.live.page = e.onPage w.live.clock w.live.page ∧
      w'.rebuilt.page = e.onPage w.rebuilt.clock w.rebuilt.page ∧
      w'.live.clock = e.onClock w.live.clock ∧ w'.rebuilt.clock = e.onClock w.rebuilt.clock ∧
      R w (.both e) w' ∧ Along Twin.step R w' es := by
  obtain ⟨live, hl⟩ := @exists_step w.live e he
  obtain ⟨rebuilt, hr⟩ := @exists_step w.rebuilt e he
  have hw : w.step (.both e) = some ⟨live, rebuilt, w.since.next w.live e⟩ := by
    simp only [Twin.step, if_pos he, hl, hr]
  obtain ⟨hlp, hlc⟩ := step_onPage he hl
  obtain ⟨hrp, hrc⟩ := step_onPage he hr
  exact ⟨_, hw, hlp, hrp, hlc, hrc, h _ hw⟩

theorem Finished.relaunch_page (h : Finished s) :
    s.relaunch.page = if s.page.lastResetDate = s.clock then s.page.withoutTotal
      else (if 0 < s.page.todaySteps then s.page.withoutTotal.recordToday
        else s.page.withoutTotal).resetForNewDay s.clock := by
  obtain ⟨prefs, created, checked, later, pre, u, post, hu, hsave, hs, hfin⟩ := h
  have hload := Page.loadSavedData_of_holds s.clock ((saved_of_exec hu hsave hs).holds hfin)
  rw [State.relaunch, State.launch, State.checkDateChange_page, hload]
  rfl

theorem Finished.related (h : Finished s) (hd : s.page.lastResetDate = s.clock) :
    Related (.split s) := by
  refine ⟨State.checkDateChange_clock _ _, ?_⟩
  have hpage := h.relaunch_page
  rw [if_pos hd] at hpage
  exact hpage

/-- Where the date of the page has passed, the restart closes the day and the run that goes on does
not. -/
theorem Finished.not_alike (h : Finished s) (hd : s.page.lastResetDate ≠ s.clock) :
    ∃ es, ¬ Along Twin.step AlikeAfterReading (.split s) es := by
  have hpage := h.relaunch_page
  rw [if_neg hd] at hpage
  have hbase : s.relaunch.page.baselineSteps = 0 := by rw [hpage]; split <;> rfl
  have hdate : s.relaunch.page.lastResetDate = s.clock := by rw [hpage]; rfl
  have hclock : s.relaunch.clock = s.clock := State.checkDateChange_clock _ _
  by_cases hb : s.page.baselineSteps = 0
  · -- Both count from the first reading, until the page that went on closes its day.
    refine ⟨[.both (.reading 1), .both (.reading 2), .both (.resumed s.clock),
      .both (.reading 2)], fun hall => ?_⟩
    obtain ⟨w₁, -, hl₁, hr₁, hlc₁, hrc₁, -, hall⟩ := along_both rfl hall
    obtain ⟨w₂, -, hl₂, hr₂, hlc₂, hrc₂, -, hall⟩ := along_both rfl hall
    obtain ⟨w₃, -, hl₃, hr₃, -, -, -, hall⟩ := along_both rfl hall
    obtain ⟨w₄, -, hl₄, hr₄, -, -, halike, -⟩ := along_both rfl hall
    have hlive : w₂.live.page =
        { s.page with totalSteps := 2, todaySteps := 1, baselineSteps := 1 } := by
      simp [hl₂, hl₁, Event.onPage, Twin.split, Page.onStepCount, hb]
    have hrebuilt : w₂.rebuilt.page =
        { s.relaunch.page with totalSteps := 2, todaySteps := 1, baselineSteps := 1 } := by
      simp [hr₂, hr₁, Event.onPage, Twin.split, Page.onStepCount, hbase]
    have hlclock : w₂.live.clock = s.clock := hlc₂.trans hlc₁
    have hrclock : w₂.rebuilt.clock = s.clock := (hrc₂.trans hrc₁).trans hclock
    have hlive : w₄.live.page.todaySteps = 0 := by
      rw [hl₄, hl₃, hlive, hlclock]
      simp [Event.onPage, hd, Page.resetForNewDay, Page.recordToday, Page.onStepCount]
    have hrebuilt : w₄.rebuilt.page.todaySteps = 1 := by
      rw [hr₄, hr₃, hrebuilt, hrclock]
      simp [Event.onPage, hdate, Page.onStepCount]
    have hsame : w₄.live.page.todaySteps = w₄.rebuilt.page.todaySteps := halike.todaySteps
    rw [hlive, hrebuilt] at hsame
    cases hsame
  · refine ⟨[.both (.reading (s.page.baselineSteps + 1))], fun hall => ?_⟩
    have halike : Alike (s.page.onStepCount (s.page.baselineSteps + 1))
      (s.relaunch.page.onStepCount (s.page.baselineSteps + 1)) := (hall _ rfl).1
    have hne := Page.onStepCount_of_lt hb (Int.lt_succ s.page.baselineSteps)
    rw [halike.todaySteps, Page.onStepCount_of_le (.inl hbase)] at hne
    exact hne rfl

/--
On the date of the page, a restart shows in the readings of a run exactly where the first reading
behind a reset goes beyond the total that was not stored. Where that date has passed, it shows in
some run.
-/
theorem restart_alike_iff (h : Finished s) :
    (s.page.lastResetDate = s.clock → ∀ es,
      Along Twin.step AlikeAfterReading (.split s) es ↔
        Along Twin.step TotalUnneeded (.split s) es) ∧
    (s.page.lastResetDate ≠ s.clock →
      ∃ es, ¬ Along Twin.step AlikeAfterReading (.split s) es) := by
  refine ⟨fun hd es => along_congr (I := Related) (h.related hd) ?_, h.not_alike⟩
  intro w e w' hw hstep
  have hnext (hu : TotalUnneeded w e w') := hw.step hstep hu
  exact ⟨⟨hw.totalUnneeded hstep, fun hu => (hnext hu).1⟩, fun hu => (hnext hu).2⟩

def fifty : State where
  page := ⟨50, 150, 10000, 100, sampleHistory, march1⟩
  prefs := ⟨some 100, some 50, some 10000, some march1, some sampleHistory⟩
  saves := []
  clock := march1

theorem finished_fifty : Finished fifty :=
  ⟨.empty, march1, march1, march1, [.reading 100], _,
    [.reading 150] ++ List.replicate 8 (.write 0), rfl, List.cons_ne_nil _ _, rfl, rfl⟩

theorem restart_alike_iff_fifty :
    Along Twin.step AlikeAfterReading (.split fifty)
        [.both (.reading 160), .both .resetToday, .both (.reading 170)] ↔
      Along Twin.step TotalUnneeded (.split fifty)
        [.both (.reading 160), .both .resetToday, .both (.reading 170)] :=
  (restart_alike_iff finished_fifty).1 rfl _

/-- A reset right behind the restart: the ten steps that follow are lost. -/
theorem restart_reset_not_alike :
    Finished fifty ∧ fifty.page.lastResetDate = fifty.clock ∧
      ¬ Along Twin.step AlikeAfterReading (.split fifty)
        [.both .resetToday, .both (.reading 160)] := by
  refine ⟨finished_fifty, rfl, fun hall => ?_⟩
  have halike := ((hall _ rfl).2 _ rfl).1
  exact absurd halike.todaySteps (by decide)

end FlutterPractice.StepCounter
