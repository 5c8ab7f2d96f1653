import FlutterPractice.Money.Ledger

/-! # The initial load of the ledger

A new page has empty lists until its `_loadData` replaces both by what is stored
then. Entries may be added before that, and their saves may write over what was
stored. An entry survives in front of the load only in a ledger that was empty,
and only if a save has written it by then.
-/

namespace FlutterPractice.Money

open Dart Machine

/-- A page, and whether its `_loadData` has gone past its suspension. -/
structure Opening (DateTime : Type) where
  page : State DateTime
  loaded : Bool

inductive OpeningEvent (DateTime : Type) where
  | ledger (e : Event DateTime)
  | loadData

variable {DateTime : Type} (F : IsoFormat DateTime)

namespace Opening

def initState (prefs : Prefs) : Opening DateTime := ⟨⟨[], [], prefs, 0⟩, false⟩

/-- What `_loadData` assigns; a failing conversion leaves its list, and the second one too. -/
def load (s : State DateTime) : State DateTime :=
  match (s.prefs.earning.getD []).mapM (decode F) with
  | none => s
  | some earning =>
    match (s.prefs.expense.getD []).mapM (decode F) with
    | none => { s with earning }
    | some expense => { s with earning, expense }

def step (s : Opening DateTime) : OpeningEvent DateTime → Option (Opening DateTime)
  | .ledger e => (Money.step F s.page e).map fun page => { s with page }
  | .loadData => if s.loaded then none else some ⟨load F s.page, true⟩

end Opening

def beforeLoad : List (OpeningEvent DateTime) → List (Event DateTime)
  | .ledger e :: es => e :: beforeLoad es
  | _ => []

def ledgerEvents (es : List (OpeningEvent DateTime)) : List (Event DateTime) :=
  es.filterMap fun
    | .ledger e => some e
    | .loadData => none

def isSave : Event DateTime → Bool
  | .saveData => true
  | .onPressed .. => false

def sinceSave (es : List (Event DateTime)) : List (Event DateTime) :=
  es.foldl (fun events e => if isSave e then [] else events ++ [e]) []

/-- No entry is added, or the ledger was empty and every entry added is written by a save. -/
def SavedInTime (earning expense : List (Entry DateTime)) (es : List (Event DateTime)) : Prop :=
  (∀ isEarning, added isEarning es = []) ∨
    (earning = [] ∧ expense = []) ∧ ∀ isEarning, added isEarning (sinceSave es) = []

/-- What the events do to the ledger while nothing is loaded. -/
structure Ran (s : State DateTime) (es : List (Event DateTime)) (t : State DateTime) : Prop where
  earning : t.earning = s.earning ++ added true es
  expense : t.expense = s.expense ++ added false es
  unsaved : es.any isSave = false → t.prefs = s.prefs ∧ sinceSave es = es
  saved : es.any isSave = true → ∃ earning expense, Decodes F t.prefs earning expense ∧
    t.earning = earning ++ added true (sinceSave es) ∧
      t.expense = expense ++ added false (sinceSave es)
  finished : t.saves = 0 → ∀ isEarning, added isEarning (sinceSave es) = []
  idle : s.saves = 0 → (∀ isEarning, added isEarning es = []) →
    t.saves = 0 ∧ es.any isSave = false

variable {F} {prefs : Prefs} {s t : State DateTime} {es : List (Event DateTime)}
  {e : Event DateTime}

theorem sinceSave_append (es : List (Event DateTime)) (e : Event DateTime) :
    sinceSave (es ++ [e]) = if isSave e then [] else sinceSave es ++ [e] := by
  rw [sinceSave, List.foldl_append]
  rfl

theorem Decodes.load {earning expense : List (Entry DateTime)}
    (h : Decodes F s.prefs earning expense) :
    Opening.load F s = { s with earning, expense } := by
  simp only [Opening.load, h.earning, h.expense]

theorem Decodes.encodable {earning expense : List (Entry DateTime)}
    (h : Decodes F prefs earning expense) :
    (∀ item ∈ earning, item.Encodable) ∧ ∀ item ∈ expense, item.Encodable :=
  ⟨encodable_of_mapM_decode h.earning, encodable_of_mapM_decode h.expense⟩

theorem ran_nil (s : State DateTime) : Ran F s [] s :=
  ⟨(List.append_nil _).symm, (List.append_nil _).symm, fun _ => ⟨rfl, rfl⟩, by simp,
    fun _ _ => rfl, fun h _ => ⟨h, rfl⟩⟩

theorem Ran.onPressed (h : Ran F s es t) (isEarning : Bool) (title amount : String)
    (entryDate : DateTime) : Ran F s (es ++ [Event.onPressed isEarning title amount entryDate])
      (onPressed t isEarning title amount entryDate) := by
  obtain ⟨hearning, hexpense⟩ := onPressed_lists t isEarning title amount entryDate
  obtain ⟨hprefs, hcases⟩ := onPressed_cases t isEarning title amount entryDate
  have hany : (es ++ [Event.onPressed isEarning title amount entryDate]).any isSave =
      es.any isSave := by simp [isSave]
  have hsince : sinceSave (es ++ [Event.onPressed isEarning title amount entryDate]) =
      sinceSave es ++ [Event.onPressed isEarning title amount entryDate] := sinceSave_append _ _
  refine ⟨?_, ?_, ?_, ?_, ?_, ?_⟩
  · rw [hearning, h.earning, added_append, List.append_assoc]
  · rw [hexpense, h.expense, added_append, List.append_assoc]
  · rw [hany, hprefs, hsince]
    exact fun hnone => ⟨(h.unsaved hnone).1, by rw [(h.unsaved hnone).2]⟩
  · rw [hany, hprefs, hsince]
    intro hsome
    obtain ⟨earning, expense, hdecodes, he, hx⟩ := h.saved hsome
    refine ⟨earning, expense, hdecodes, ?_, ?_⟩
    · rw [hearning, he, added_append, List.append_assoc]
    · rw [hexpense, hx, added_append, List.append_assoc]
  · intro hzero isEarning'
    rcases hcases with ⟨hsame, hnone⟩ | ⟨hsaves, -⟩
    · rw [hsince, added_append, hnone, List.append_nil]
      exact h.finished (hsame ▸ hzero) isEarning'
    · omega
  · intro hs hnone
    simp only [added_append, List.append_eq_nil_iff] at hnone
    rcases hcases with ⟨hsame, -⟩ | ⟨-, hsome⟩
    · rw [hany, hsame]
      exact h.idle hs fun other => (hnone other).1
    · exact absurd (hnone isEarning).2 hsome

theorem Ran.saveData (h : Ran F s es t) (hpos : 0 < t.saves)
    (hencodable : (∀ item ∈ t.earning, item.Encodable) ∧ ∀ item ∈ t.expense, item.Encodable) :
    Ran F s (es ++ [.saveData])
      { t with prefs := Money.saveData F t, saves := t.saves - 1 } := by
  have hnone (isEarning : Bool) : added isEarning ([.saveData] : List (Event DateTime)) = [] := rfl
  have hsince : sinceSave (es ++ [.saveData]) = [] := sinceSave_append _ _
  have hadded (isEarning : Bool) : added isEarning (es ++ [.saveData]) = added isEarning es := by
    rw [added_append, hnone, List.append_nil]
  refine ⟨?_, ?_, ?_, ?_, ?_, ?_⟩
  · rw [hadded]
    exact h.earning
  · rw [hadded]
    exact h.expense
  · simp [isSave]
  · rw [hsince]
    refine fun _ => ⟨t.earning, t.expense, decodes_saveData hencodable.1 hencodable.2, ?_, ?_⟩
    · exact (List.append_nil _).symm
    · exact (List.append_nil _).symm
  · rw [hsince]
    exact fun _ _ => rfl
  · intro hs hes
    have hidle := h.idle hs fun other => (hadded other).symm.trans (hes other)
    omega

/-- From lists that can be encoded, with finite amounts. -/
theorem ran_of_exec (hs : (∀ item ∈ s.earning, item.Encodable) ∧ ∀ item ∈ s.expense, item.Encodable)
    (hfinite : ∀ e ∈ es, e.FiniteAmount) (ht : exec (step F) s es = some t) : Ran F s es t := by
  induction es using List.reverseRecOn generalizing t with
  | nil =>
    obtain rfl := Option.some.inj ht
    exact ran_nil s
  | append_singleton es e ih =>
    obtain ⟨hes, -⟩ := List.forall_mem_append.mp hfinite
    obtain ⟨u, hu, ht⟩ := exec_append_eq_some.mp ht
    obtain ⟨v, hv, ht⟩ := exec_cons.mp ht
    obtain rfl := Option.some.inj ht
    have hran := ih hes hu
    cases e with
    | onPressed isEarning title amount entryDate =>
      obtain rfl := Option.some.inj hv
      exact hran.onPressed isEarning title amount entryDate
    | saveData =>
      obtain ⟨hpos, hv⟩ := Option.ite_none_right_eq_some.mp hv
      obtain rfl := Option.some.inj hv
      obtain ⟨hadded, hadded'⟩ := encodable_added_iff.mpr hes
      refine hran.saveData hpos ⟨?_, ?_⟩
      · rw [hran.earning]
        exact List.forall_mem_append.mpr ⟨hs.1, hadded⟩
      · rw [hran.expense]
        exact List.forall_mem_append.mpr ⟨hs.2, hadded'⟩

theorem Ran.decodes (h : Ran F s es t) (hs : Decodes F s.prefs s.earning s.expense)
    (hsaves : t.saves = 0) : Decodes F t.prefs t.earning t.expense := by
  have hsince := h.finished hsaves
  cases hany : es.any isSave with
  | false =>
    obtain ⟨hprefs, hes⟩ := h.unsaved hany
    rw [hes] at hsince
    rw [h.earning, h.expense, hsince, hsince, List.append_nil, List.append_nil, hprefs]
    exact hs
  | true =>
    obtain ⟨earning, expense, hdecodes, he, hx⟩ := h.saved hany
    rw [he, hx, hsince, hsince, List.append_nil, List.append_nil]
    exact hdecodes

theorem self_eq_append_append_iff {α : Type} {front middle back : List α} :
    middle = front ++ (middle ++ back) ↔ front = [] ∧ back = [] := by
  constructor
  · intro h
    have hlength := congrArg List.length h
    simp only [List.length_append] at hlength
    exact ⟨List.length_eq_zero_iff.mp (by omega), List.length_eq_zero_iff.mp (by omega)⟩
  · rintro ⟨rfl, rfl⟩
    simp

/-- What the load finds is what was stored and added iff the entries were saved in time. -/
theorem Ran.decodes_initState {earning expense : List (Entry DateTime)}
    (h : Ran F ⟨[], [], prefs, 0⟩ es t) (hstored : Decodes F prefs earning expense) :
    ∃ earning' expense', Decodes F t.prefs earning' expense' ∧
      ((earning' = earning ++ added true es ∧ expense' = expense ++ added false es) ↔
        SavedInTime earning expense es) := by
  cases hany : es.any isSave with
  | false =>
    obtain ⟨hprefs, hes⟩ := h.unsaved hany
    refine ⟨earning, expense, hprefs ▸ hstored, ?_⟩
    rw [List.self_eq_append_right, List.self_eq_append_right, SavedInTime, hes]
    constructor
    · rintro ⟨he, hx⟩
      exact .inl fun isEarning => by cases isEarning <;> assumption
    · rintro (hnone | ⟨-, hnone⟩)
      · exact ⟨hnone true, hnone false⟩
      · exact ⟨hnone true, hnone false⟩
  | true =>
    obtain ⟨earning', expense', hdecodes, he, hx⟩ := h.saved hany
    refine ⟨earning', expense', hdecodes, ?_⟩
    have he' : added true es = earning' ++ added true (sinceSave es) := h.earning.symm.trans he
    have hx' : added false es = expense' ++ added false (sinceSave es) := h.expense.symm.trans hx
    rw [he', hx', self_eq_append_append_iff, self_eq_append_append_iff, SavedInTime]
    constructor
    · rintro ⟨⟨rfl, he⟩, rfl, hx⟩
      exact .inr ⟨⟨rfl, rfl⟩, fun isEarning => by cases isEarning <;> assumption⟩
    · rintro (hnone | ⟨⟨rfl, rfl⟩, hnone⟩)
      · -- a save that has run was started by an entry
        simp [(h.idle rfl hnone).2] at hany
      · exact ⟨⟨rfl, hnone true⟩, rfl, hnone false⟩

theorem exec_loaded {es : List (OpeningEvent DateTime)} {o : Opening DateTime}
    (h : exec (Opening.step F) ⟨s, true⟩ es = some o) :
    exec (step F) s (ledgerEvents es) = some o.page := by
  induction es generalizing s with
  | nil =>
    obtain rfl := Option.some.inj h
    rfl
  | cons e es ih =>
    obtain ⟨u, hu, h⟩ := exec_cons.mp h
    cases e with
    | ledger e =>
      obtain ⟨page, hpage, rfl⟩ := Option.map_eq_some_iff.mp hu
      exact exec_cons.mpr ⟨page, hpage, ih h⟩
    | loadData => cases hu

theorem exec_opening {es : List (OpeningEvent DateTime)} {o : Opening DateTime}
    (h : exec (Opening.step F) ⟨s, false⟩ es = some o) (hloaded : o.loaded = true) :
    ∃ u post, ledgerEvents es = beforeLoad es ++ post ∧
      exec (step F) s (beforeLoad es) = some u ∧
        exec (step F) (Opening.load F u) post = some o.page := by
  induction es generalizing s with
  | nil =>
    obtain rfl := Option.some.inj h
    cases hloaded
  | cons e es ih =>
    obtain ⟨u, hu, h⟩ := exec_cons.mp h
    cases e with
    | ledger e =>
      obtain ⟨page, hpage, rfl⟩ := Option.map_eq_some_iff.mp hu
      obtain ⟨v, post, hes, hv, hpost⟩ := ih h
      exact ⟨v, post, congrArg (e :: ·) hes, exec_cons.mpr ⟨page, hpage, hv⟩, hpost⟩
    | loadData =>
      obtain rfl := Option.some.inj hu
      exact ⟨s, ledgerEvents es, rfl, rfl, exec_loaded h⟩

/--
Once the load and all saves have run, the lists on the page and in the store are what was stored
and everything added, iff the entries added in front of the load were saved in time.
-/
theorem lists_eq_iff_savedInTime (F : IsoFormat DateTime) {earning expense : List (Entry DateTime)}
    {es : List (OpeningEvent DateTime)} {o : Opening DateTime}
    (hstored : Decodes F prefs earning expense)
    (hfinite : ∀ e ∈ ledgerEvents es, e.FiniteAmount)
    (ho : exec (Opening.step F) (.initState prefs) es = some o)
    (hloaded : o.loaded = true) (hsaves : o.page.saves = 0) :
    (o.page.earning = earning ++ added true (ledgerEvents es) ∧
        o.page.expense = expense ++ added false (ledgerEvents es) ∧
        Decodes F o.page.prefs (earning ++ added true (ledgerEvents es))
          (expense ++ added false (ledgerEvents es))) ↔
      SavedInTime earning expense (beforeLoad es) := by
  obtain ⟨u, post, hes, hu, hpost⟩ := exec_opening ho hloaded
  rw [hes] at hfinite ⊢
  obtain ⟨hpre, hfinitePost⟩ := List.forall_mem_append.mp hfinite
  have hnil : (∀ item ∈ ([] : List (Entry DateTime)), item.Encodable) := List.forall_mem_nil _
  obtain ⟨earning', expense', hdecodes, hiff⟩ :=
    (ran_of_exec ⟨hnil, hnil⟩ hpre hu).decodes_initState hstored
  rw [hdecodes.load] at hpost
  have hran := ran_of_exec hdecodes.encodable hfinitePost hpost
  have hfinal := hran.decodes hdecodes hsaves
  rw [← hiff, added_append, added_append, ← List.append_assoc, ← List.append_assoc]
  constructor
  · rintro ⟨he, hx, -⟩
    exact ⟨List.append_cancel_right (hran.earning.symm.trans he),
      List.append_cancel_right (hran.expense.symm.trans hx)⟩
  · rintro ⟨rfl, rfl⟩
    refine ⟨hran.earning, hran.expense, ?_⟩
    have hearning := hran.earning
    have hexpense := hran.expense
    simp only at hearning hexpense
    rw [← hearning, ← hexpense]
    exact hfinal

section Examples

def loadThenAdd : List (OpeningEvent Date) := .loadData :: salaryAndRent.map .ledger

def rentThenLoad : List (OpeningEvent Date) :=
  [.ledger (.onPressed false "Rent" "800" payday), .loadData, .ledger .saveData]

theorem decodes_none : Decodes midnights ⟨none, none⟩ [] [] := ⟨rfl, rfl⟩

theorem lists_eq_iff_savedInTime_loadThenAdd : ∃ o,
    exec (Opening.step midnights) (.initState ⟨none, none⟩) loadThenAdd = some o ∧
      o.page.earning = [] ++ added true (ledgerEvents loadThenAdd) ∧
      o.page.expense = [] ++ added false (ledgerEvents loadThenAdd) ∧
      Decodes midnights o.page.prefs ([] ++ added true (ledgerEvents loadThenAdd))
        ([] ++ added false (ledgerEvents loadThenAdd)) := by
  have hsalary : (accepted "Salary" "1200.5").isSome = true := by decide +kernel
  obtain ⟨salary, hsalary⟩ := Option.isSome_iff_exists.mp hsalary
  obtain ⟨rent, hrent⟩ := Option.isSome_iff_exists.mp accepted_rent
  have hrun : ∃ o, exec (Opening.step midnights) (.initState ⟨none, none⟩) loadThenAdd = some o ∧
      o.loaded = true ∧ o.page.saves = 0 := by
    simp [loadThenAdd, salaryAndRent, exec, Opening.step, Opening.initState, Opening.load, step,
      onPressed, hsalary, hrent, addEntry]
  obtain ⟨o, ho, hloaded, hsaves⟩ := hrun
  have hfinite : ∀ e ∈ ledgerEvents loadThenAdd, e.FiniteAmount := by decide +kernel
  exact ⟨o, ho, (lists_eq_iff_savedInTime midnights decodes_none hfinite ho hloaded hsaves).mpr
    (.inl fun _ => rfl)⟩

/-- The load takes the rent off the page before its save can store it. -/
theorem lists_ne_rentThenLoad : ∃ o,
    exec (Opening.step midnights) (.initState ⟨none, none⟩) rentThenLoad = some o ∧
      o.loaded = true ∧ o.page.saves = 0 ∧
      (∀ e ∈ ledgerEvents rentThenLoad, e.FiniteAmount) ∧
      o.page.expense ≠ [] ++ added false (ledgerEvents rentThenLoad) ∧
      loadData midnights o.page.prefs = ([], []) := by
  have hfinite : ∀ e ∈ ledgerEvents rentThenLoad, e.FiniteAmount := by decide +kernel
  obtain ⟨rent, hrent⟩ := Option.isSome_iff_exists.mp accepted_rent
  have hrun : exec (Opening.step midnights) (.initState ⟨none, none⟩) rentThenLoad =
      some ⟨⟨[], [], ⟨some [], some []⟩, 0⟩, true⟩ := by
    simp [rentThenLoad, exec, Opening.step, Opening.initState, Opening.load, step, onPressed,
      hrent, addEntry, saveData]
  refine ⟨_, hrun, rfl, rfl, hfinite, ?_, rfl⟩
  simp [rentThenLoad, added, ledgerEvents, hrent]

end Examples

end FlutterPractice.Money
