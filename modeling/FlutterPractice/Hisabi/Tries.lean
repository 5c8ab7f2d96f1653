import FlutterPractice.Hisabi.ProductScreen
import FlutterPractice.Hisabi.Submit

/-! # The tries of one product screen

A submit that fails leaves the screen open and its buttons enabled, and so does
one that succeeds behind the dialog for a new category. The user may press the
button again then, each time with another call of the database helper. Leaving
the successes behind the dialog aside, the tries of a screen write once at most,
whatever other calls do meanwhile.
-/

namespace FlutterPractice.Hisabi

open Dart Machine

namespace ProductScreen

def Threw (s : ProductScreen) (i : ℕ) : Prop :=
  ∃ c failure, s.store.calls[i]? = some ⟨c, .threw failure⟩

def Returned (s : ProductScreen) (i : ℕ) : Prop :=
  ∃ c result, s.store.calls[i]? = some ⟨c, .returned result⟩

/-- A form that awaits a search or a submit is loading, and never awaits both. -/
structure Locked (s : ProductScreen) : Prop where
  search : s.form.searching ≠ none → s.form.isLoading = true
  submit : s.popped = none → s.running ≠ none →
    s.form.isLoading = true ∧ s.form.searching = none

/-- All tries but the last one have thrown or are hidden. The last one has too, or is running, or
has succeeded and popped the screen if it was still there. -/
inductive Tries (s : ProductScreen) (hidden : List ℕ) : List ℕ → Prop

  | idle {own : List ℕ} (hown : ∀ i ∈ own, s.Threw i ∨ i ∈ hidden) (hrunning : s.running = none)
      (hpopped : s.popped ≠ some (some true)) : Tries s hidden own

  | running {own : List ℕ} {i : ℕ} {c : Call} {phase : Phase}
      (hown : ∀ j ∈ own, s.Threw j ∨ j ∈ hidden) (hrunning : s.running = some (i, c))
      (hpopped : s.popped ≠ some (some true)) (hcall : s.store.calls[i]? = some ⟨c, phase⟩)
      (hi : i ∉ hidden) : Tries s hidden (own ++ [i])

  | succeeded {own : List ℕ} {i : ℕ} {c : Call} {result : ℤ}
      (hown : ∀ j ∈ own, s.Threw j ∨ j ∈ hidden) (hrunning : s.running = none)
      (hpopped : s.popped ≠ none) (hcall : s.store.calls[i]? = some ⟨c, .returned result⟩)
      (hi : i ∉ hidden) : Tries s hidden (own ++ [i])

/-- The tries of a screen, among them the hidden successes. -/
structure Attempted (s : ProductScreen) (own hidden : List ℕ) : Prop where
  locked : s.Locked
  tries : s.Tries hidden own
  returned : ∀ i ∈ hidden, s.Returned i
  nodup : hidden.Nodup

end ProductScreen

variable {doubleToString : Double → String} {s t : ProductScreen} {T : Table} {S : Store}
  {own hidden tried hid left : List ℕ} {ws : List (ℕ × Call × ℤ)}

theorem Move.call_done {S S' : Store} {e : StoreEvent} {i : ℕ} {c : Call} {phase : Phase}
    (h : Move S e S') (hi : S.calls[i]? = some ⟨c, phase⟩) (hs : phase ≠ .started)
    (hc : phase ≠ .checked) : S'.calls[i]? = some ⟨c, phase⟩ := by
  obtain ⟨hlt, -⟩ := List.getElem?_eq_some_iff.mp hi
  have hother : ∀ {j : ℕ} {c' : Call} {phase' : Phase} (next : CallState),
      S.calls[j]? = some ⟨c', phase'⟩ → phase' = .started ∨ phase' = .checked →
      (S.calls.set j next)[i]? = some ⟨c, phase⟩ := by
    intro j c' phase' next hj hphase
    have hij : j ≠ i := by
      rintro rfl
      obtain ⟨rfl, rfl⟩ := CallState.mk.inj (Option.some.inj (hi.symm.trans hj))
      exact hphase.elim hs hc
    rw [List.getElem?_set_ne hij, hi]
  cases h with
  | call c' => rw [List.getElem?_append_left hlt, hi]
  | check hj _ => exact hother _ hj (.inl rfl)
  | write hj _ | reject hj _ => exact hother _ hj (Call.ready_cases _).symm

theorem Move.call_same {S S' : Store} {e : StoreEvent} {i : ℕ} {c : Call} {phase : Phase}
    (h : Move S e S') (hi : S.calls[i]? = some ⟨c, phase⟩) :
    ∃ next, S'.calls[i]? = some ⟨c, next⟩ := by
  rcases h.call_at hi with ⟨hsame, -⟩ | ⟨next, hnext, -⟩ | ⟨_, result, hret, -⟩
  · exact ⟨phase, hsame.trans hi⟩
  · exact ⟨next, hnext⟩
  · exact ⟨.returned result, hret⟩

theorem ScreenMove.call_done {i : ℕ} {c : Call} {phase : Phase} (h : ScreenMove s tried hid left ws t)
    (hi : s.store.calls[i]? = some ⟨c, phase⟩) (hs : phase ≠ .started) (hc : phase ≠ .checked) :
    t.store.calls[i]? = some ⟨c, phase⟩ := by
  cases h with
  | submit c' => exact (List.getElem?_append_left (List.getElem?_eq_some_iff.mp hi).1).trans hi
  | store hm => exact hm.call_done hi hs hc
  | form | back | late | threw | hidden | succeeded => exact hi

theorem ScreenMove.threw_of {i : ℕ} (h : ScreenMove s tried hid left ws t) (hi : s.Threw i) :
    t.Threw i := by
  obtain ⟨c, failure, hi⟩ := hi
  exact ⟨c, failure, h.call_done hi (by simp) (by simp)⟩

theorem ScreenMove.returned_of {i : ℕ} (h : ScreenMove s tried hid left ws t) (hi : s.Returned i) :
    t.Returned i := by
  obtain ⟨c, result, hi⟩ := hi
  exact ⟨c, result, h.call_done hi (by simp) (by simp)⟩

theorem ProductScreen.Locked.move (h : s.Locked) (hm : ScreenMove s tried hid left ws t) :
    t.Locked := by
  cases hm with
  | form dialog hform =>
    refine ⟨hform.search h.search, fun hopen hrunning => ?_⟩
    obtain ⟨hl, hs⟩ := h.submit hopen hrunning
    exact hform.submit hl hs
  | submit c hopen hidle =>
    refine ⟨fun _ => rfl, fun _ _ => ⟨rfl, ?_⟩⟩
    by_contra hsearch
    have hl := h.search hsearch
    rw [hidle] at hl
    cases hl
  | back => exact ⟨h.search, fun hopen => by cases hopen⟩
  | store => exact ⟨h.search, h.submit⟩
  | late => exact ⟨h.search, fun _ hrunning => (hrunning rfl).elim⟩
  | threw hopen hrunning | hidden hopen hrunning =>
    have hsearch := (h.submit hopen (by simp [hrunning])).2
    exact ⟨fun hs => (hs hsearch).elim, fun _ hr => (hr rfl).elim⟩
  | succeeded hopen hrunning =>
    have hsearch := (h.submit hopen (by simp [hrunning])).2
    exact ⟨fun hs => (hs hsearch).elim, fun hopen => by cases hopen⟩

theorem ProductScreen.locked_opened (productToEdit : Option Product) :
    (ProductScreen.opened doubleToString productToEdit S).Locked := by
  refine ⟨fun hs => (hs ?_).elim, fun _ hr => (hr rfl).elim⟩
  cases productToEdit <;> rfl

theorem ProductScreen.Attempted.length_notMem (h : s.Attempted own hidden) :
    s.store.calls.length ∉ hidden := by
  intro hmem
  obtain ⟨c, result, hi⟩ := h.returned _ hmem
  exact absurd (List.getElem?_eq_some_iff.mp hi).1 (lt_irrefl _)

theorem ProductScreen.Tries.of_running_none (h : s.Tries hidden own) (hopen : s.popped = none)
    (hrunning : s.running = none) : ∀ i ∈ own, s.Threw i ∨ i ∈ hidden := by
  cases h with
  | idle hown => exact hown
  | running _ hr => rw [hrunning] at hr; cases hr
  | succeeded _ _ hpopped => exact (hpopped hopen).elim

theorem ProductScreen.Tries.of_running {i : ℕ} {c : Call} (h : s.Tries hidden own)
    (hrunning : s.running = some (i, c)) : ∃ earlier phase, own = earlier ++ [i] ∧
      (∀ j ∈ earlier, s.Threw j ∨ j ∈ hidden) ∧ s.popped ≠ some (some true) ∧
      s.store.calls[i]? = some ⟨c, phase⟩ ∧ i ∉ hidden := by
  cases h with
  | idle _ hr | succeeded _ hr => rw [hrunning] at hr; cases hr
  | running hown hr hpopped hcall hi =>
    obtain ⟨rfl, rfl⟩ := Prod.mk.inj (Option.some.inj (hr.symm.trans hrunning))
    exact ⟨_, _, rfl, hown, hpopped, hcall, hi⟩

theorem ProductScreen.Attempted.move (h : s.Attempted own hidden)
    (hm : ScreenMove s tried hid left ws t) : t.Attempted (own ++ tried) (hidden ++ hid) := by
  have hkeep : ∀ {js : List ℕ}, (∀ j ∈ js, s.Threw j ∨ j ∈ hidden) →
      ∀ j ∈ js, t.Threw j ∨ j ∈ hidden := fun hjs j hj => (hjs j hj).imp_left hm.threw_of
  have hreturned : ∀ i ∈ hidden, t.Returned i := fun i hi => hm.returned_of (h.returned i hi)
  have hlocked := h.locked.move hm
  cases hm with
  | form =>
    rw [List.append_nil, List.append_nil]
    refine ⟨hlocked, ?_, hreturned, h.nodup⟩
    cases h.tries with
    | idle hown hrunning hpopped => exact .idle (hkeep hown) hrunning hpopped
    | running hown hrunning hpopped hcall hi =>
      exact .running (hkeep hown) hrunning hpopped hcall hi
    | succeeded hown hrunning hpopped hcall hi =>
      exact .succeeded (hkeep hown) hrunning hpopped hcall hi
  | back hopen =>
    rw [List.append_nil, List.append_nil]
    refine ⟨hlocked, ?_, hreturned, h.nodup⟩
    cases h.tries with
    | idle hown hrunning => exact .idle (hkeep hown) hrunning (by simp)
    | running hown hrunning _ hcall hi => exact .running (hkeep hown) hrunning (by simp) hcall hi
    | succeeded _ _ hpopped => exact (hpopped hopen).elim
  | submit c hopen hidle =>
    rw [List.append_nil]
    refine ⟨hlocked, ?_, hreturned, h.nodup⟩
    have hrunning : s.running = none := by
      by_contra hr
      have hl := (h.locked.submit hopen hr).1
      rw [hidle] at hl
      cases hl
    have hown := h.tries.of_running_none hopen hrunning
    exact .running (hkeep hown) rfl (by simp [hopen]) List.getElem?_concat_length
      h.length_notMem
  | store hmove =>
    rw [List.append_nil, List.append_nil]
    refine ⟨hlocked, ?_, hreturned, h.nodup⟩
    cases h.tries with
    | idle hown hrunning hpopped => exact .idle (hkeep hown) hrunning hpopped
    | running hown hrunning hpopped hcall hi =>
      obtain ⟨next, hnext⟩ := hmove.call_same hcall
      exact .running (hkeep hown) hrunning hpopped hnext hi
    | succeeded hown hrunning hpopped hcall hi =>
      exact .succeeded (hkeep hown) hrunning hpopped
        (hmove.call_done hcall (by simp) (by simp)) hi
  | @late i c k hgone hrunning hi hstarted hchecked =>
    rw [List.append_nil, List.append_nil]
    refine ⟨hlocked, ?_, hreturned, h.nodup⟩
    obtain ⟨earlier, phase, rfl, hown, hpopped, hcall, hnot⟩ := h.tries.of_running hrunning
    obtain rfl := Option.some.inj (hi.symm.trans hcall)
    cases phase with
    | returned result => exact .succeeded (hkeep hown) rfl hgone hcall hnot
    | threw failure =>
      refine .idle (fun j hj => ?_) rfl hpopped
      rcases List.mem_append.mp hj with hj | hj
      · exact hkeep hown j hj
      · obtain rfl := List.mem_singleton.mp hj
        exact .inl ⟨c, failure, hcall⟩
    | started => exact (hstarted rfl).elim
    | checked => exact (hchecked rfl).elim
  | @threw i c c' failure hopen hrunning hi =>
    rw [List.append_nil, List.append_nil]
    refine ⟨hlocked, ?_, hreturned, h.nodup⟩
    obtain ⟨earlier, phase, rfl, hown, hpopped, -, -⟩ := h.tries.of_running hrunning
    refine .idle (fun j hj => ?_) rfl hpopped
    rcases List.mem_append.mp hj with hj | hj
    · exact hkeep hown j hj
    · obtain rfl := List.mem_singleton.mp hj
      exact .inl ⟨c', failure, hi⟩
  | @hidden i c c' result hopen hrunning hi =>
    rw [List.append_nil]
    obtain ⟨earlier, phase, rfl, hown, hpopped, -, hnot⟩ := h.tries.of_running hrunning
    refine ⟨hlocked, .idle (fun j hj => ?_) rfl hpopped, fun j hj => ?_, ?_⟩
    · rcases List.mem_append.mp hj with hj | hj
      · exact (hkeep hown j hj).imp_right (List.mem_append_left _)
      · exact .inr (List.mem_append_right _ hj)
    · rcases List.mem_append.mp hj with hj | hj
      · exact hreturned j hj
      · obtain rfl := List.mem_singleton.mp hj
        exact ⟨c', result, hi⟩
    · exact h.nodup.append (List.nodup_singleton i) (by simpa using hnot)
  | @succeeded i c c' result hopen hrunning hi =>
    rw [List.append_nil, List.append_nil]
    refine ⟨hlocked, ?_, hreturned, h.nodup⟩
    obtain ⟨earlier, phase, rfl, hown, hpopped, -, hnot⟩ := h.tries.of_running hrunning
    exact .succeeded (hkeep hown) rfl (by simp) hi hnot

theorem Linearised.screenMove {ws' : List (ℕ × Call × ℤ)} (h : Linearised T s.store ws)
    (hm : ScreenMove s tried hid left ws' t) : Linearised T t.store (ws ++ ws') := by
  cases hm with
  | submit c => exact h.move (.call c)
  | store hmove => exact h.move hmove
  | form | back | late | threw | hidden | succeeded => exact (List.append_nil ws).symm ▸ h

def ownWrites (own : List ℕ) (ws : List (ℕ × Call × ℤ)) : List (ℕ × Call × ℤ) :=
  ws.filter fun w => w.1 ∈ own

theorem ProductScreen.Threw.not_returned {i : ℕ} (h : s.Threw i) (c : Call) (result : ℤ) :
    s.store.calls[i]? ≠ some ⟨c, .returned result⟩ := by
  obtain ⟨_, _, h⟩ := h
  rw [h]
  simp

theorem ownWrites_eq_nil (h : Linearised T s.store ws)
    (hown : ∀ i ∈ own, ∀ c result, s.store.calls[i]? ≠ some ⟨c, .returned result⟩) :
    ownWrites own ws = [] := by
  refine List.filter_eq_nil_iff.mpr ?_
  rintro ⟨i, c, result⟩ hw
  simpa using fun hi => hown i hi c result ((h.returned i c result).mpr hw)

theorem ownWrites_eq_singleton (h : Linearised T s.store ws) {i : ℕ} {c : Call} {result : ℤ}
    (hown : ∀ j ∈ own, s.Threw j) (hi : s.store.calls[i]? = some ⟨c, .returned result⟩) :
    ownWrites (own ++ [i]) ws = [(i, c, result)] := by
  refine List.perm_singleton.mp ((List.perm_ext_iff_of_nodup ?_ (List.nodup_singleton _)).mpr ?_)
  · exact (List.Nodup.of_map _ h.once).filter _
  · rintro ⟨j, c', result'⟩
    rw [ownWrites, List.mem_filter, List.mem_singleton, ← h.returned]
    constructor
    · rintro ⟨hj, hmem⟩
      rcases List.mem_append.mp (of_decide_eq_true hmem) with hmem | hmem
      · exact ((hown j hmem).not_returned _ _ hj).elim
      · obtain rfl := List.mem_singleton.mp hmem
        rw [hi] at hj
        cases hj
        rfl
    · rintro he
      cases he
      exact ⟨hi, by simp⟩

theorem ownWrites_perm (h : Linearised T s.store ws) (hnodup : own.Nodup)
    (hown : ∀ i ∈ own, s.Returned i) : ((ownWrites own ws).map (·.1)).Perm own := by
  refine (List.perm_ext_iff_of_nodup (h.once.sublist (List.filter_sublist.map _)) hnodup).mpr ?_
  intro i
  constructor
  · intro hi
    obtain ⟨w, hw, rfl⟩ := List.mem_map.mp hi
    exact of_decide_eq_true (List.mem_filter.mp hw).2
  · intro hi
    obtain ⟨c, result, hcall⟩ := hown i hi
    refine List.mem_map.mpr ⟨(i, c, result), List.mem_filter.mpr ⟨?_, decide_eq_true hi⟩, rfl⟩
    exact (h.returned i c result).mp hcall

/-- What becomes of the screen tells what its tries have written. -/
structure ToldBy (s : ProductScreen) (writes : List (ℕ × Call × ℤ)) : Prop where
  once : writes.length ≤ 1
  succeeded : s.popped = some (some true) → writes.length = 1
  open_idle : s.popped = none → s.running = none → writes = []
  running : ∀ i c, s.running = some (i, c) → ∀ w ∈ writes, ∃ result, w = (i, c, result)

def seen (own hidden : List ℕ) : List ℕ := own.filter fun i => i ∉ hidden

theorem threw_of_mem_seen (hown : ∀ i ∈ own, s.Threw i ∨ i ∈ hidden) {i : ℕ}
    (hi : i ∈ seen own hidden) : s.Threw i := by
  obtain ⟨hi, hnot⟩ := List.mem_filter.mp hi
  exact (hown i hi).resolve_right (of_decide_eq_true hnot)

theorem seen_append_singleton {i : ℕ} (hi : i ∉ hidden) :
    seen (own ++ [i]) hidden = seen own hidden ++ [i] := by
  simp [seen, hi]

theorem ProductScreen.Tries.toldBy (h : s.Tries hidden own) (hlin : Linearised T s.store ws) :
    ToldBy s (ownWrites (seen own hidden) ws) := by
  cases h with
  | idle hown hrunning hpopped =>
    have hnil : ownWrites (seen own hidden) ws = [] :=
      ownWrites_eq_nil hlin fun i hi => (threw_of_mem_seen hown hi).not_returned
    rw [hnil]
    exact ⟨Nat.zero_le _, fun hp => (hpopped hp).elim, fun _ _ => rfl,
      fun _ _ _ w hw => by cases hw⟩
  | @succeeded own i c result hown hrunning hpopped hcall hi =>
    rw [seen_append_singleton hi,
      ownWrites_eq_singleton hlin (fun _ => threw_of_mem_seen hown) hcall]
    refine ⟨le_rfl, fun _ => rfl, fun hp => (hpopped hp).elim, fun i c hr => ?_⟩
    rw [hrunning] at hr
    cases hr
  | @running own i c phase hown hrunning hpopped hcall hi =>
    rw [seen_append_singleton hi]
    have hidle : s.running ≠ none := by simp [hrunning]
    by_cases hret : ∃ result, phase = .returned result
    · obtain ⟨result, rfl⟩ := hret
      rw [ownWrites_eq_singleton hlin (fun _ => threw_of_mem_seen hown) hcall]
      refine ⟨le_rfl, fun _ => rfl, fun _ hr => (hidle hr).elim, fun j d hr w hw => ?_⟩
      obtain ⟨rfl, rfl⟩ := Prod.mk.inj (Option.some.inj (hrunning.symm.trans hr))
      exact ⟨result, List.mem_singleton.mp hw⟩
    · have hnil : ownWrites (seen own hidden ++ [i]) ws = [] := by
        refine ownWrites_eq_nil hlin fun j hj c' result hj' => ?_
        rcases List.mem_append.mp hj with hj | hj
        · exact (threw_of_mem_seen hown hj).not_returned _ _ hj'
        · obtain rfl := List.mem_singleton.mp hj
          rw [hcall] at hj'
          exact hret ⟨result, (CallState.mk.inj (Option.some.inj hj')).2⟩
      rw [hnil]
      exact ⟨Nat.zero_le _, fun hp => (hpopped hp).elim, fun _ _ => rfl,
        fun _ _ _ w hw => by cases hw⟩

/--
However often a screen submits, and whatever other calls do meanwhile, each success that came back
behind the dialog has one write behind it, and all its other submits together write once at most:
once when the screen has been popped by a success, and not at all while it is open and awaits
nothing.
-/
theorem tries_write_once {productToEdit : Option Product} {es₀ : List StoreEvent}
    {es : List ScreenEvent} (hT : T.Valid) (hS : exec Store.step ⟨T, []⟩ es₀ = some S)
    (h : exec (ProductScreen.step doubleToString) (.opened doubleToString productToEdit S) es =
      some s) :
    let start := ProductScreen.opened doubleToString productToEdit S
    let own := outputs (ProductScreen.step doubleToString) ProductScreen.issued start es
    let hidden := outputs (ProductScreen.step doubleToString) ProductScreen.hidden start es
    let ws := outputs Store.step wrote ⟨T, []⟩ es₀ ++
      outputs (ProductScreen.step doubleToString) ProductScreen.wrote start es
    s.store.table.Valid ∧ Applied T ws s.store.table ∧
      ((ownWrites hidden ws).map (·.1)).Perm hidden ∧
      ToldBy s (ownWrites (seen own hidden) ws) := by
  intro start own hidden ws
  have hlin₀ := exec_outputs (H := fun ws s => Linearised T s ws)
    (linearised_initial hT) (fun ws s e t hs ht => hs.move (step_storeMove ht)) hS
  have hlin : Linearised T s.store ws :=
    exec_outputs (H := fun ws s => Linearised T s.store (outputs Store.step wrote ⟨T, []⟩ es₀ ++ ws))
      ((List.append_nil _).symm ▸ hlin₀)
      (fun ws s e t hs ht => List.append_assoc .. ▸ hs.screenMove (step_screenMove ht)) h
  have hopened : start.Attempted [] [] :=
    ⟨ProductScreen.locked_opened productToEdit, .idle nofun rfl (by simp [start, ProductScreen.opened]),
      nofun, List.nodup_nil⟩
  have hattempted : s.Attempted own hidden :=
    along_true.exec_outputs_pair (H := fun _ own hidden s => s.Attempted own hidden) hopened
      (fun _ _ _ _ _ _ hs _ ht => hs.move (step_screenMove ht)) h
  exact ⟨hlin.valid, hlin.applied, ownWrites_perm hlin hattempted.nodup hattempted.returned,
    hattempted.tries.toldBy hlin⟩

/-- Another call is about to insert the barcode 42. -/
def beforeRetry : List StoreEvent := [.call (.insertProduct (cola "42")), .check 0]

def fillForm : List ScreenEvent :=
  [.form (.edit .barcode "42"), .form (.edit .productName "Cola"), .form (.edit .buyPrice "8.0"),
    .form (.edit .sellPrice "8.0"), .form (.edit .category "Food"), .form (.edit .quantity "3"),
    .form (.edit .description "A bottle")]

/-- The first try fails at its check, the second one succeeds behind the dialog, and the third one
pops the screen. -/
def retry : List ScreenEvent :=
  fillForm ++ [.submit ⟨50, 50, 50⟩, .store (.write 0 51), .store (.check 1), .finish,
    .form (.edit .barcode "43"), .submit ⟨60, 60, 60⟩, .openDialog, .store (.check 2),
    .store (.write 2 61), .finish, .form (.edit .barcode "44"), .submit ⟨70, 70, 70⟩,
    .store (.check 3), .store (.write 3 71), .finish]

theorem tries_write_once_retry : ∃ S s, exec Store.step ⟨.empty, []⟩ beforeRetry = some S ∧
    exec (ProductScreen.step showPrice) (.opened showPrice none S) retry = some s ∧
    s.popped = some (some true) ∧
    ToldBy s (ownWrites
      (seen (outputs (ProductScreen.step showPrice) ProductScreen.issued
          (.opened showPrice none S) retry)
        (outputs (ProductScreen.step showPrice) ProductScreen.hidden
          (.opened showPrice none S) retry))
      (outputs Store.step wrote ⟨.empty, []⟩ beforeRetry ++
        outputs (ProductScreen.step showPrice) ProductScreen.wrote
          (.opened showPrice none S) retry)) := by
  have hpops : (exec (ProductScreen.step showPrice) (.opened showPrice none
      ⟨.empty, [⟨.insertProduct (cola "42"), .checked⟩]⟩) retry).bind (·.popped) =
        some (some true) := by
    decide +kernel
  obtain ⟨s, hs, hp⟩ := Option.bind_eq_some_iff.mp hpops
  exact ⟨_, s, rfl, hs, hp, (tries_write_once Table.valid_empty rfl hs).2.2.2⟩

end FlutterPractice.Hisabi
