import FlutterPractice.Hisabi.ProductsList
import FlutterPractice.Hisabi.Queries
import FlutterPractice.Hisabi.Tries

/-! # The products list under its product screen

The list of all products is loaded again when a product screen over it has been
popped by a success, and behind each delete. It does not hear of a save that
succeeds behind the dialog for a new category, or whose screen has been left,
and a load that throws leaves it as it is. What the list shows is the table
without the writes behind these.
-/

namespace FlutterPractice.Hisabi

open Dart Machine

/-- The list, the product screen that is or was over it, the loads whose query is still to run, what
the queries of the other loads have found, the product that the dialog asks about, and the calls of
the deletes that the list awaits. A waiting load comes with the call whose success has asked for
it. -/
structure Browsing where
  list : ProductsListState
  screen : ProductScreen
  waiting : List (Option ℕ)
  found : List (List Product)
  asked : Option ℤ
  deletes : List ℕ
  deriving DecidableEq

/-- A load runs its query or throws there, and then delivers what it has found. -/
inductive BrowsingEvent where
  | list (e : ProductsListEvent)
  | screen (e : ScreenEvent)
  | queried (k : ℕ)
  | failed (k : ℕ)
  | loaded (k : ℕ) (available : Bool)
  | deleted (k : ℕ)
  deriving DecidableEq

namespace Browsing

/-- The list has just been opened; the calls of the database have been made before. -/
def opened (doubleToString : Double → String) (S : Store) : Browsing :=
  ⟨.initState, { ProductScreen.opened doubleToString none S with popped := some none }, [none], [],
    none, []⟩

/-- `_deleteProduct` behind a confirmed dialog, up to the call of the helper. -/
def deleteProduct (s : Browsing) (id : ℤ) : Browsing :=
  { s with
    screen := { s.screen with
      store := { s.screen.store with
        calls := s.screen.store.calls ++ [⟨.deleteProduct id, .started⟩] } }
    deletes := s.deletes ++ [s.screen.store.calls.length] }

variable (toLowerCase : String → String) (doubleToString : Double → String)

/-- What the user does on the list. -/
def listStep (s : Browsing) (e : ProductsListEvent) : Option Browsing :=
  match e with
  | .editPressed i => s.list.filteredProducts[i]?.bind fun product =>
    (s.list.step toLowerCase e).map fun list =>
      { s with list, screen := .opened doubleToString (some product) s.screen.store }
  | .deletePressed i => s.list.filteredProducts[i]?.bind fun product =>
    product.id.bind fun id =>
      (s.list.step toLowerCase e).map fun list => { s with list, asked := some id }
  | .dialogAnswered confirmed => s.asked.bind fun id =>
    (s.list.step toLowerCase e).map fun list =>
      let s := { s with list, asked := none }
      if confirmed = some true then s.deleteProduct id else s
  | .refreshPressed =>
    (s.list.step toLowerCase e).map fun list => { s with list, waiting := s.waiting ++ [none] }
  | .editReturned _ | .deleted _ | .loaded _ => none
  | .textChanged _ | .textCleared | .categorySelected _ =>
    (s.list.step toLowerCase e).map fun list => { s with list }

/-- A step of the product screen; the list hears what a screen is popped with. -/
def screenStep (s : Browsing) (e : ScreenEvent) : Option Browsing :=
  (s.screen.step doubleToString e).bind fun screen =>
    match s.screen.popped, screen.popped with
    | none, some result => (s.list.step toLowerCase (.editReturned result)).map fun list =>
      { s with
        list, screen
        waiting := if result = some true then s.waiting ++ [s.screen.running.map (·.1)]
          else s.waiting }
    | _, _ => some { s with screen }

/-- Where the query for the categories throws, `getAllCategories` catches it and finds none. -/
def step (s : Browsing) : BrowsingEvent → Option Browsing
  | .list e => s.listStep toLowerCase doubleToString e
  | .screen e => s.screenStep toLowerCase doubleToString e
  | .queried k => s.waiting[k]?.map fun _ =>
    { s with
      waiting := s.waiting.eraseIdx k
      found := s.found ++ [s.screen.store.table.getAllProducts] }
  | .failed k => s.waiting[k]?.bind fun _ =>
    (s.list.step toLowerCase (.loaded none)).map fun list =>
      { s with list, waiting := s.waiting.eraseIdx k }
  | .loaded k available => s.found[k]?.bind fun products =>
    let categories := if available then s.screen.store.table.getAllCategories else []
    (s.list.step toLowerCase (.loaded (some (products, categories)))).map fun list =>
      { s with list, found := s.found.eraseIdx k }
  | .deleted k => s.deletes[k]?.bind fun i => (s.screen.store.calls[i]?).bind fun call =>
    match call.phase with
    | .returned _ => (s.list.step toLowerCase (.deleted true)).map fun list =>
      { s with list, waiting := s.waiting ++ [some i], deletes := s.deletes.eraseIdx k }
    | .threw _ => (s.list.step toLowerCase (.deleted false)).map fun list =>
      { s with list, deletes := s.deletes.eraseIdx k }
    | _ => none

def wrote (s : Browsing) : BrowsingEvent → List (ℕ × Call × ℤ)
  | .screen e => s.screen.wrote e
  | _ => []

/-- The call of a save or a delete that no load will show any more: the list will not hear of it, or
its own load throws. -/
def missed (s : Browsing) : BrowsingEvent → List ℕ
  | .screen e => s.screen.hidden e ++ s.screen.orphaned e
  | .failed k => (s.waiting[k]?.bind id).toList
  | _ => []

/-- What the queries have found is delivered in their order. -/
def InOrder (_ : Browsing) (e : BrowsingEvent) (_ : Browsing) : Prop :=
  ∀ k available, e = .loaded k available → k = 0

/-- The list will be loaded again if this call succeeds. -/
def Awaits (s : Browsing) (i : ℕ) : Prop :=
  i ∈ s.deletes ∨ s.screen.popped = none ∧ ∃ c, s.screen.running = some (i, c)

/-- The list waits for no load and no call. -/
structure Settled (s : Browsing) : Prop where
  loads : s.list.loads = 0
  awaits : ∀ i, ¬ s.Awaits i

/-- What the list shows once the loads have come whose queries have run. -/
def latest (s : Browsing) : List Product := s.found.getLast?.getD s.list.products

end Browsing

theorem Move.not_done {S S' : Store} {e : StoreEvent} (h : Move S e S') {i : ℕ} {c : Call}
    {phase : Phase} (hi : S'.calls[i]? = some ⟨c, phase⟩)
    (hphase : phase = .started ∨ phase = .checked) : i ∈ called S e ∨
      ∃ c' before, S.calls[i]? = some ⟨c', before⟩ ∧ (before = .started ∨ before = .checked) := by
  rcases Nat.lt_or_ge i S.calls.length with hlt | hge
  · refine .inr ⟨S.calls[i].call, S.calls[i].phase, List.getElem?_eq_getElem hlt, ?_⟩
    by_contra hnot
    obtain ⟨hs, hc⟩ := not_or.mp hnot
    have hsame := h.call_done (List.getElem?_eq_getElem hlt) hs hc
    rw [hi] at hsame
    obtain ⟨-, rfl⟩ := CallState.mk.inj (Option.some.inj hsame)
    exact hnot hphase
  · have hlt := (List.getElem?_eq_some_iff.mp hi).1
    cases h with
    | call c' =>
      rw [List.length_append, List.length_singleton] at hlt
      exact .inl (List.mem_singleton.mpr (by omega))
    | check | write | reject =>
      simp only [Store.setPhase, List.length_set] at hlt
      omega

theorem Move.ready_of_wrote {S S' : Store} {e : StoreEvent} (h : Move S e S')
    {w : ℕ × Call × ℤ} (hw : w ∈ wrote S e) : ∃ c, S.calls[w.1]? = some ⟨c, c.ready⟩ := by
  cases h with
  | call | check => cases hw
  | reject hi hr => simp [wrote, hi, hr] at hw
  | write hi hr =>
    simp only [wrote, hi, hr, List.mem_singleton] at hw
    rw [hw]
    exact ⟨_, hi⟩

section ListSteps

/-- The events of the list that end in `_loadData`. -/
def ProductsListEvent.reloads : ProductsListEvent → Bool
  | .refreshPressed | .editReturned (some true) | .deleted true => true
  | _ => false

variable {toLowerCase : String → String} {l l' : ProductsListState}

theorem products_listStep {e : ProductsListEvent} (he : ∀ result, e ≠ .loaded result)
    (h : l.step toLowerCase e = some l') :
    l'.products = l.products ∧ l'.loads = l.loads + e.reloads.toNat := by
  cases e with
  | textChanged text | textCleared | categorySelected category | refreshPressed | editPressed i
  | deletePressed i =>
    obtain ⟨-, h⟩ := Option.ite_none_right_eq_some.mp h
    obtain rfl := Option.some.inj h
    exact ⟨rfl, rfl⟩
  | editReturned result =>
    obtain ⟨-, h⟩ := Option.ite_none_right_eq_some.mp h
    obtain rfl := Option.some.inj h
    rcases result with _ | _ | _ <;> exact ⟨rfl, rfl⟩
  | dialogAnswered confirmed =>
    obtain ⟨-, h⟩ := Option.ite_none_right_eq_some.mp h
    obtain rfl := Option.some.inj h
    split <;> exact ⟨rfl, rfl⟩
  | deleted ok =>
    obtain ⟨-, h⟩ := Option.ite_none_right_eq_some.mp h
    obtain rfl := Option.some.inj h
    cases ok <;> exact ⟨rfl, rfl⟩
  | loaded result => exact (he result rfl).elim

theorem loaded_listStep {result : LoadResult} (h : l.step toLowerCase (.loaded result) = some l') :
    l'.products = (result.map (·.1)).getD l.products ∧ l'.loads + 1 = l.loads := by
  obtain ⟨hpos, h⟩ := Option.ite_none_right_eq_some.mp h
  obtain rfl := Option.some.inj h
  cases result <;> exact ⟨rfl, Nat.sub_add_cancel hpos⟩

theorem route_listStep {e : ProductsListEvent} (he : ∀ result, e ≠ .editReturned result)
    (hroute : l.route = .editScreen) (h : l.step toLowerCase e = some l') :
    l'.route = .editScreen := by
  cases e with
  | textChanged text | textCleared | categorySelected category | refreshPressed | editPressed i
  | deletePressed i | dialogAnswered confirmed =>
    obtain ⟨hon, -⟩ := Option.ite_none_right_eq_some.mp h
    simp [ProductsListState.shown, hroute] at hon
  | editReturned result => exact (he result rfl).elim
  | deleted ok =>
    obtain ⟨-, h⟩ := Option.ite_none_right_eq_some.mp h
    obtain rfl := Option.some.inj h
    split <;> exact hroute
  | loaded result =>
    obtain ⟨-, h⟩ := Option.ite_none_right_eq_some.mp h
    obtain rfl := Option.some.inj h
    cases result <;> exact hroute

end ListSteps

namespace Browsing

/-- The list awaits the call or the load behind it, or will not hear of it. -/
def Known (S : Store) (missed : List ℕ) (s : Browsing) (i : ℕ) : Prop :=
  s.Awaits i ∨ some i ∈ s.waiting ∨ i < S.calls.length ∨ i ∈ missed

/-- The list shows the table without some last writes, of calls that are known. -/
def Behind (S : Store) (ws : List (ℕ × Call × ℤ)) (missed : List ℕ) (s : Browsing) : Prop :=
  ∃ heard unheard U, ws = heard ++ unheard ∧ Applied S.table heard U ∧
    Applied U unheard s.screen.store.table ∧ s.latest = U.getAllProducts ∧
    ∀ w ∈ unheard, Known S missed s w.1

/-- Nothing has been loaded, or the list is behind by the writes of known calls. -/
structure Follows (came : Prop) (T : Table) (ws₀ : List (ℕ × Call × ℤ)) (S : Store)
    (ws : List (ℕ × Call × ℤ)) (missed : List ℕ) (s : Browsing) : Prop where
  lin : Linearised T s.screen.store (ws₀ ++ ws)
  applied : Applied S.table ws s.screen.store.table
  locked : s.screen.Locked
  route : s.screen.popped = none → s.list.route = .editScreen
  loads : s.list.loads = s.waiting.length + s.found.length
  causes : ∀ i, some i ∈ s.waiting →
    ∃ c result, s.screen.store.calls[i]? = some ⟨c, .returned result⟩
  pending : ∀ i c phase, s.screen.store.calls[i]? = some ⟨c, phase⟩ →
    phase = .started ∨ phase = .checked → Known S missed s i
  unloaded : ¬ came → s.list.products = []
  view : (¬ came ∧ s.found = []) ∨ Behind S ws missed s

/-- What a step on top of the store leaves as it is. -/
structure Keeps (S : Store) (missed missed' : List ℕ) (s t : Browsing) : Prop where
  found : t.found = s.found
  products : t.list.products = s.list.products
  known : ∀ i c phase, s.screen.store.calls[i]? = some ⟨c, phase⟩ →
    (∀ failure, phase ≠ .threw failure) → Known S missed s i → Known S missed' t i

variable {came : Prop} {T : Table} {ws₀ ws : List (ℕ × Call × ℤ)} {S : Store}
  {missed missed' : List ℕ} {s t : Browsing}

theorem Keeps.latest (h : Keeps S missed missed' s t) : t.latest = s.latest := by
  rw [Browsing.latest, Browsing.latest, h.found, h.products]

theorem Follows.returned (h : Follows came T ws₀ S ws missed s) {w : ℕ × Call × ℤ} (hw : w ∈ ws) :
    s.screen.store.calls[w.1]? = some ⟨w.2.1, .returned w.2.2⟩ :=
  (h.lin.returned _ _ _).mpr (List.mem_append_right _ hw)

theorem Follows.view_keep (h : Follows came T ws₀ S ws missed s) (hk : Keeps S missed missed' s t)
    (htable : t.screen.store.table = s.screen.store.table) :
    (¬ came ∧ t.found = []) ∨ Behind S ws missed' t := by
  rcases h.view with ⟨hnone, hfound⟩ | hbehind
  · exact .inl ⟨hnone, hk.found.trans hfound⟩
  · obtain ⟨heard, unheard, U, rfl, hheard, hunheard, hlatest, hknown⟩ := hbehind
    refine .inr ⟨heard, unheard, U, rfl, hheard, htable ▸ hunheard, hk.latest.trans hlatest, ?_⟩
    intro w hw
    exact hk.known _ _ _ (h.returned (List.mem_append_right _ hw)) (by simp) (hknown w hw)

theorem Follows.quiet (h : Follows came T ws₀ S ws missed s) (hk : Keeps S missed missed' s t)
    (hstore : t.screen.store = s.screen.store) (hlocked : t.screen.Locked)
    (hroute : t.screen.popped = none → t.list.route = .editScreen)
    (hloads : t.list.loads = t.waiting.length + t.found.length)
    (hcauses : ∀ i, some i ∈ t.waiting →
      ∃ c result, s.screen.store.calls[i]? = some ⟨c, .returned result⟩) :
    Follows came T ws₀ S ws missed' t := by
  refine ⟨hstore ▸ h.lin, hstore ▸ h.applied, hlocked, hroute, hloads, hstore ▸ hcauses, ?_,
    fun hnone => hk.products.trans (h.unloaded hnone), h.view_keep hk (by rw [hstore])⟩
  intro i c phase hi hphase
  rw [hstore] at hi
  refine hk.known i c phase hi ?_ (h.pending i c phase hi hphase)
  rintro failure rfl
  simp at hphase

theorem Follows.call (h : Follows came T ws₀ S ws missed s) {c : Call}
    (hk : Keeps S missed missed s t)
    (hstore : t.screen.store =
      { s.screen.store with calls := s.screen.store.calls ++ [⟨c, .started⟩] })
    (hlocked : t.screen.Locked) (hroute : t.screen.popped = none → t.list.route = .editScreen)
    (hloads : t.list.loads = t.waiting.length + t.found.length) (hwaiting : t.waiting = s.waiting)
    (hnew : Known S missed t s.screen.store.calls.length) : Follows came T ws₀ S ws missed t := by
  have hlin := h.lin.move (.call c)
  have hnone : Hisabi.wrote s.screen.store (.call c) = [] := rfl
  rw [hnone, List.append_nil] at hlin
  have htable : t.screen.store.table = s.screen.store.table := by rw [hstore]
  refine ⟨hstore ▸ hlin, htable ▸ h.applied, hlocked, hroute, hloads, ?_, ?_,
    fun hnone => hk.products.trans (h.unloaded hnone), h.view_keep hk htable⟩
  · intro i hi
    rw [hwaiting] at hi
    obtain ⟨c', result, hi⟩ := h.causes i hi
    refine ⟨c', result, ?_⟩
    rw [hstore]
    exact (List.getElem?_append_left (List.getElem?_eq_some_iff.mp hi).1).trans hi
  · intro i c' phase hi hphase
    rw [hstore] at hi
    rcases Nat.lt_or_ge i s.screen.store.calls.length with hlt | hge
    · have hi : s.screen.store.calls[i]? = some ⟨c', phase⟩ := by
        rwa [List.getElem?_append_left hlt] at hi
      refine hk.known i c' phase hi ?_ (h.pending i c' phase hi hphase)
      rintro failure rfl
      simp at hphase
    · obtain rfl : i = s.screen.store.calls.length := by
        have hlt := (List.getElem?_eq_some_iff.mp hi).1
        rw [List.length_append, List.length_singleton] at hlt
        omega
      exact hnew

theorem Follows.store (h : Follows came T ws₀ S ws missed s) {e : StoreEvent} {S' : Store}
    (hm : Move s.screen.store e S') :
    Follows came T ws₀ S (ws ++ Hisabi.wrote s.screen.store e) (missed ++ called s.screen.store e)
      { s with screen := { s.screen with store := S' } } := by
  have hknown : ∀ {i : ℕ}, Known S missed s i → Known S (missed ++ called s.screen.store e)
      { s with screen := { s.screen with store := S' } } i :=
    fun hi => hi.imp_right (Or.imp_right (Or.imp_right (List.mem_append_left _)))
  refine ⟨List.append_assoc .. ▸ h.lin.move hm, ?_, h.locked.move (.store hm), h.route, h.loads,
    ?_, ?_, h.unloaded, ?_⟩
  · rcases h.lin.oneWrite hm with ⟨hnone, htable⟩ | ⟨i, c, result, hone, hown⟩
    · rw [hnone, List.append_nil]
      exact htable ▸ h.applied
    · rw [hone]
      exact h.applied.snoc hown
  · intro i hi
    obtain ⟨c, result, hi⟩ := h.causes i hi
    exact ⟨c, result, hm.call_done hi (by simp) (by simp)⟩
  · intro i c phase hi hphase
    rcases hm.not_done hi hphase with hmem | ⟨c', before, hbefore, hopen⟩
    · exact .inr (.inr (.inr (List.mem_append_right _ hmem)))
    · exact hknown (h.pending i c' before hbefore hopen)
  · refine h.view.imp id ?_
    rintro ⟨heard, unheard, U, rfl, hheard, hunheard, hlatest, hknows⟩
    rcases h.lin.oneWrite hm with ⟨hnone, htable⟩ | ⟨i, c, result, hone, hown⟩
    · rw [hnone, List.append_nil]
      exact ⟨heard, unheard, U, rfl, hheard, htable ▸ hunheard, hlatest,
        fun w hw => hknown (hknows w hw)⟩
    · rw [hone]
      refine ⟨heard, unheard ++ [(i, c, result)], U, List.append_assoc .., hheard,
        hunheard.snoc hown, hlatest, fun w hw => ?_⟩
      rcases List.mem_append.mp hw with hw | hw
      · exact hknown (hknows w hw)
      · obtain ⟨c', hready⟩ := hm.ready_of_wrote (w := w) (hone ▸ hw)
        exact hknown (h.pending _ _ _ hready c'.ready_cases.symm)

theorem Follows.list (h : Follows came T ws₀ S ws missed s) {toLowerCase : String → String}
    {e : ProductsListEvent} {list : ProductsListState} {asked : Option ℤ}
    (hloaded : ∀ result, e ≠ .loaded result) (hreturned : ∀ result, e ≠ .editReturned result)
    (hreloads : e.reloads = false) (ht : s.list.step toLowerCase e = some list) :
    Follows came T ws₀ S ws missed { s with list, asked } := by
  obtain ⟨hproducts, hloads⟩ := products_listStep hloaded ht
  rw [hreloads, Bool.toNat_false, Nat.add_zero] at hloads
  exact h.quiet ⟨rfl, hproducts, fun _ _ _ _ _ hi => hi⟩ rfl h.locked
    (fun hopen => route_listStep hreturned (h.route hopen) ht) (hloads.trans h.loads) h.causes

theorem loads_append {list : ProductsListState} {waiting : List (Option ℕ)} {cause : Option ℕ}
    {found : List (List Product)} {n : ℕ} (hn : n = waiting.length + found.length)
    (hlist : list.loads = n + 1) :
    list.loads = (waiting ++ [cause]).length + found.length := by
  rw [hlist, hn, List.length_append, List.length_singleton]
  exact Nat.add_right_comm ..

theorem Follows.refresh (h : Follows came T ws₀ S ws missed s) {toLowerCase : String → String}
    {list : ProductsListState} (ht : s.list.step toLowerCase .refreshPressed = some list) :
    Follows came T ws₀ S ws missed { s with list, waiting := s.waiting ++ [none] } := by
  obtain ⟨hproducts, hloads⟩ := products_listStep (by simp) ht
  refine h.quiet ⟨rfl, hproducts, fun i _ _ _ _ hi => ?_⟩ rfl h.locked
    (fun hopen => route_listStep (by simp) (h.route hopen) ht) ?_ fun i hi => ?_
  · exact hi.imp_right (Or.imp_left (List.mem_append_left _))
  · exact loads_append h.loads hloads
  · simp only [List.mem_append, List.mem_singleton, reduceCtorEq, or_false] at hi
    exact h.causes i hi

theorem Follows.editPressed (h : Follows came T ws₀ S ws missed s)
    {toLowerCase : String → String} {doubleToString : Double → String} {i : ℕ} {product : Product}
    {list : ProductsListState} (ht : s.list.step toLowerCase (.editPressed i) = some list) :
    Follows came T ws₀ S ws missed
      { s with list, screen := .opened doubleToString (some product) s.screen.store } := by
  obtain ⟨hon, ht⟩ := Option.ite_none_right_eq_some.mp ht
  obtain rfl := Option.some.inj ht
  -- The screen that was open before has been popped, so that the list awaits nothing of it.
  have hgone : s.screen.popped ≠ none := by
    intro hopen
    simp [ProductsListState.shown, h.route hopen] at hon
  refine h.quiet ⟨rfl, rfl, fun j _ _ _ _ hj => ?_⟩ rfl (ProductScreen.locked_opened _)
    (fun _ => rfl) h.loads h.causes
  rcases hj with (hj | ⟨hopen, -⟩) | hj
  · exact .inl (.inl hj)
  · exact (hgone hopen).elim
  · exact .inr hj

theorem Follows.deleteProduct (h : Follows came T ws₀ S ws missed s) (id : ℤ) :
    Follows came T ws₀ S ws missed (s.deleteProduct id) := by
  refine h.call (c := .deleteProduct id) ⟨rfl, rfl, fun i _ _ _ _ hi => ?_⟩ rfl
    ⟨h.locked.search, h.locked.submit⟩ h.route h.loads rfl ?_
  · exact hi.imp_left (Or.imp_left (List.mem_append_left _))
  · exact .inl (.inl (List.mem_append_right _ (List.mem_singleton_self _)))

theorem Follows.listStep (h : Follows came T ws₀ S ws missed s) {toLowerCase : String → String}
    {doubleToString : Double → String} {e : ProductsListEvent}
    (ht : s.listStep toLowerCase doubleToString e = some t) :
    Follows came T ws₀ S ws missed t := by
  cases e with
  | editPressed i =>
    obtain ⟨product, -, ht⟩ := Option.bind_eq_some_iff.mp ht
    obtain ⟨list, hlist, rfl⟩ := Option.map_eq_some_iff.mp ht
    exact h.editPressed hlist
  | deletePressed i =>
    obtain ⟨product, -, ht⟩ := Option.bind_eq_some_iff.mp ht
    obtain ⟨id, -, ht⟩ := Option.bind_eq_some_iff.mp ht
    obtain ⟨list, hlist, rfl⟩ := Option.map_eq_some_iff.mp ht
    exact h.list (by simp) (by simp) rfl hlist
  | dialogAnswered confirmed =>
    obtain ⟨id, -, ht⟩ := Option.bind_eq_some_iff.mp ht
    obtain ⟨list, hlist, rfl⟩ := Option.map_eq_some_iff.mp ht
    have hnext : Follows came T ws₀ S ws missed { s with list, asked := none } :=
      h.list (by simp) (by simp) rfl hlist
    split
    · exact hnext.deleteProduct id
    · exact hnext
  | refreshPressed =>
    obtain ⟨list, hlist, rfl⟩ := Option.map_eq_some_iff.mp ht
    exact h.refresh hlist
  | editReturned result | deleted ok | loaded result => cases ht
  | textChanged text | textCleared | categorySelected category =>
    obtain ⟨list, hlist, rfl⟩ := Option.map_eq_some_iff.mp ht
    exact h.list (by simp) (by simp) rfl hlist

theorem screenStep_cases {toLowerCase : String → String} {doubleToString : Double → String}
    {e : ScreenEvent} (ht : s.screenStep toLowerCase doubleToString e = some t) :
    ∃ screen, ScreenMove s.screen (s.screen.issued e) (s.screen.hidden e) (s.screen.orphaned e)
        (s.screen.wrote e) screen ∧
      ((s.screen.popped = none ∧ ∃ result list, screen.popped = some result ∧
          s.list.step toLowerCase (.editReturned result) = some list ∧
          t = { s with
            list, screen
            waiting := if result = some true then s.waiting ++ [s.screen.running.map (·.1)]
              else s.waiting }) ∨
        (s.screen.popped = none → screen.popped = none) ∧ t = { s with screen }) := by
  obtain ⟨screen, hscreen, ht⟩ := Option.bind_eq_some_iff.mp ht
  refine ⟨screen, step_screenMove hscreen, ?_⟩
  split at ht
  · rename_i result hopen hpopped
    obtain ⟨list, hlist, rfl⟩ := Option.map_eq_some_iff.mp ht
    exact .inl ⟨hopen, result, list, hpopped, hlist, rfl⟩
  · rename_i hnot
    refine .inr ⟨fun hopen => ?_, (Option.some.inj ht).symm⟩
    cases hpopped : screen.popped with
    | none => rfl
    | some result => exact (hnot result hopen hpopped).elim

/-- While no screen is open, the list awaits its deletes only. -/
theorem mem_deletes_of_awaits {i : ℕ} (h : s.Awaits i)
    (hclosed : s.screen.popped = none → s.screen.running = none) : i ∈ s.deletes := by
  rcases h with h | ⟨hopen, c, hrunning⟩
  · exact h
  · rw [hclosed hopen] at hrunning
    cases hrunning

theorem Follows.screenMove (h : Follows came T ws₀ S ws missed s) {screen : ProductScreen}
    {tried hid left : List ℕ} {ws' : List (ℕ × Call × ℤ)}
    (hm : ScreenMove s.screen tried hid left ws' screen)
    (hpopped : s.screen.popped = none → screen.popped = none) :
    Follows came T ws₀ S (ws ++ ws') (missed ++ (hid ++ left)) { s with screen } := by
  have hlocked := h.locked.move hm
  cases hm with
  | form =>
    simp only [List.append_nil]
    exact h.quiet ⟨rfl, rfl, fun _ _ _ _ _ hi => hi⟩ rfl hlocked h.route h.loads h.causes
  | submit c hopen hidle =>
    simp only [List.append_nil]
    have hrunning : s.screen.running = none := by
      by_contra hr
      have hloading := (h.locked.submit hopen hr).1
      rw [hidle] at hloading
      cases hloading
    refine h.call ⟨rfl, rfl, fun i _ _ _ _ hi => ?_⟩ rfl hlocked h.route h.loads rfl
      (.inl (.inr ⟨hopen, c, rfl⟩))
    rcases hi with hi | hi
    · have hmem : i ∈ s.deletes := mem_deletes_of_awaits hi fun _ => hrunning
      exact .inl (.inl hmem)
    · exact .inr hi
  | back hopen => cases hpopped hopen
  | store hmove => exact h.store hmove
  | late hgone =>
    simp only [List.append_nil]
    refine h.quiet ⟨rfl, rfl, fun i _ _ _ _ hi => ?_⟩ rfl hlocked h.route h.loads h.causes
    rcases hi with hi | hi
    · have hmem : i ∈ s.deletes := mem_deletes_of_awaits hi fun hopen => (hgone hopen).elim
      exact .inl (.inl hmem)
    · exact .inr hi
  | @threw i c c' failure hopen hrunning hi =>
    simp only [List.append_nil]
    refine h.quiet ⟨rfl, rfl, fun j d phase hj hphase hknown => ?_⟩ rfl hlocked h.route h.loads
      h.causes
    refine hknown.imp_left fun hawaits => .inl (hawaits.resolve_right ?_)
    rintro ⟨-, c'', hr⟩
    obtain ⟨rfl, rfl⟩ := Prod.mk.inj (Option.some.inj (hrunning.symm.trans hr))
    obtain ⟨-, rfl⟩ := CallState.mk.inj (Option.some.inj (hi.symm.trans hj))
    exact hphase failure rfl
  | @hidden i c c' result hopen hrunning hi =>
    simp only [List.append_nil]
    refine h.quiet ⟨rfl, rfl, fun j _ _ _ _ hknown => ?_⟩ rfl hlocked h.route h.loads h.causes
    rcases hknown with (hj | ⟨-, c'', hr⟩) | hload | hold | hmissed
    · exact .inl (.inl hj)
    · obtain ⟨rfl, rfl⟩ := Prod.mk.inj (Option.some.inj (hrunning.symm.trans hr))
      exact .inr (.inr (.inr (List.mem_append_right _ (List.mem_singleton_self _))))
    · exact .inr (.inl hload)
    · exact .inr (.inr (.inl hold))
    · exact .inr (.inr (.inr (List.mem_append_left _ hmissed)))
  | succeeded hopen => cases hpopped hopen

theorem Follows.back (h : Follows came T ws₀ S ws missed s) {toLowerCase : String → String}
    {list : ProductsListState}
    (hm : ScreenMove s.screen [] [] (s.screen.running.map (·.1)).toList []
      { s.screen with popped := some none })
    (hlist : s.list.step toLowerCase (.editReturned none) = some list) :
    Follows came T ws₀ S ws (missed ++ (s.screen.running.map (·.1)).toList)
      { s with list, screen := { s.screen with popped := some none } } := by
  obtain ⟨hproducts, hloads⟩ := products_listStep (by simp) hlist
  refine h.quiet ⟨rfl, hproducts, fun i _ _ _ _ hknown => ?_⟩ rfl (h.locked.move hm) nofun
    (hloads.trans h.loads) h.causes
  rcases hknown with (hi | ⟨-, c, hr⟩) | hload | hold | hmissed
  · exact .inl (.inl hi)
  · exact .inr (.inr (.inr (List.mem_append_right _ (by simp [hr]))))
  · exact .inr (.inl hload)
  · exact .inr (.inr (.inl hold))
  · exact .inr (.inr (.inr (List.mem_append_left _ hmissed)))

/-- A call whose success the list has heard of is known by the load that it asks for. -/
theorem Follows.heard (h : Follows came T ws₀ S ws missed s) {i : ℕ} {c : Call} {result : ℤ}
    (hi : s.screen.store.calls[i]? = some ⟨c, .returned result⟩)
    (hwaiting : t.waiting = s.waiting ++ [some i]) (hfound : t.found = s.found)
    (hproducts : t.list.products = s.list.products) (hloads : t.list.loads = s.list.loads + 1)
    (hstore : t.screen.store = s.screen.store) (hlocked : t.screen.Locked)
    (hroute : t.screen.popped = none → t.list.route = .editScreen)
    (hawaits : ∀ j, s.Awaits j → j = i ∨ t.Awaits j) : Follows came T ws₀ S ws missed t := by
  refine h.quiet ⟨hfound, hproducts, fun j _ _ _ _ hknown => ?_⟩ hstore hlocked hroute ?_ ?_
  · rw [Known, hwaiting]
    rcases hknown with hj | hload | hold
    · rcases hawaits j hj with rfl | hj
      · exact .inr (.inl (List.mem_append_right _ (List.mem_singleton_self _)))
      · exact .inl hj
    · exact .inr (.inl (List.mem_append_left _ hload))
    · exact .inr (.inr hold)
  · rw [hwaiting, hfound]
    exact loads_append h.loads hloads
  · intro j hj
    rw [hwaiting] at hj
    rcases List.mem_append.mp hj with hj | hj
    · exact h.causes j hj
    · obtain rfl := Option.some.inj (List.mem_singleton.mp hj)
      exact ⟨c, result, hi⟩

theorem Follows.popped (h : Follows came T ws₀ S ws missed s) {screen : ProductScreen}
    {tried hid left : List ℕ} {ws' : List (ℕ × Call × ℤ)} {toLowerCase : String → String}
    {result : Option Bool} {list : ProductsListState}
    (hm : ScreenMove s.screen tried hid left ws' screen) (hopen : s.screen.popped = none)
    (hpopped : screen.popped = some result)
    (hlist : s.list.step toLowerCase (.editReturned result) = some list) :
    Follows came T ws₀ S (ws ++ ws') (missed ++ (hid ++ left))
      { s with
        list, screen
        waiting := if result = some true then s.waiting ++ [s.screen.running.map (·.1)]
          else s.waiting } := by
  have hmove := hm
  cases hm with
  | form | store | threw | hidden => cases hopen.symm.trans hpopped
  | submit => cases hopen.symm.trans hpopped
  | late hgone => exact (hgone hopen).elim
  | back =>
    obtain rfl : none = result := Option.some.inj hpopped
    rw [List.append_nil, List.nil_append]
    exact h.back hmove hlist
  | @succeeded i c c' result' _ hrunning hi =>
    rw [List.append_nil, List.append_nil, List.append_nil]
    obtain rfl : some true = result := Option.some.inj hpopped
    obtain ⟨hproducts, hloads⟩ := products_listStep (by simp) hlist
    refine h.heard hi (by simp [hrunning]) rfl hproducts hloads rfl (h.locked.move hmove) nofun ?_
    rintro j (hj | ⟨-, c'', hr⟩)
    · exact .inr (.inl hj)
    · obtain ⟨rfl, rfl⟩ := Prod.mk.inj (Option.some.inj (hrunning.symm.trans hr))
      exact .inl rfl

theorem Follows.queried (h : Follows came T ws₀ S ws missed s) {k : ℕ} {cause : Option ℕ}
    (hk : s.waiting[k]? = some cause) :
    Follows came T ws₀ S ws missed
      { s with
        waiting := s.waiting.eraseIdx k
        found := s.found ++ [s.screen.store.table.getAllProducts] } := by
  have hlength := List.length_eraseIdx_add_one (List.getElem?_eq_some_iff.mp hk).1
  refine ⟨h.lin, h.applied, h.locked, h.route, ?_, ?_, ?_, h.unloaded, .inr ?_⟩
  · simp only [h.loads, List.length_append, List.length_singleton]
    omega
  · exact fun i hi => h.causes i (List.mem_of_mem_eraseIdx hi)
  · intro i c phase hi hphase
    rcases h.pending i c phase hi hphase with hawaits | hload | hknown
    · exact .inl hawaits
    · -- A load that waits is that of a call that has returned.
      obtain ⟨c', result, hi'⟩ := h.causes i hload
      obtain ⟨-, rfl⟩ := CallState.mk.inj (Option.some.inj (hi.symm.trans hi'))
      simp at hphase
    · exact .inr (.inr hknown)
  · refine ⟨ws, [], _, (List.append_nil ws).symm, h.applied, .nil, ?_, fun w hw => by cases hw⟩
    simp [latest]

theorem mem_eraseIdx_or {α : Type} {xs : List α} {k : ℕ} {a x : α} (hk : xs[k]? = some a)
    (hx : x ∈ xs) : x = a ∨ x ∈ xs.eraseIdx k := by
  obtain ⟨m, hm⟩ := List.mem_iff_getElem?.mp hx
  rcases eq_or_ne m k with rfl | hne
  · exact .inl (Option.some.inj (hm.symm.trans hk))
  · exact .inr (List.mem_eraseIdx_iff_getElem?.mpr ⟨m, hne, hm⟩)

theorem Follows.failed (h : Follows came T ws₀ S ws missed s) {toLowerCase : String → String}
    {k : ℕ} {cause : Option ℕ} {list : ProductsListState} (hk : s.waiting[k]? = some cause)
    (hlist : s.list.step toLowerCase (.loaded none) = some list) :
    Follows came T ws₀ S ws (missed ++ cause.toList)
      { s with list, waiting := s.waiting.eraseIdx k } := by
  obtain ⟨hproducts, hloads⟩ := loaded_listStep hlist
  have hlength := List.length_eraseIdx_add_one (List.getElem?_eq_some_iff.mp hk).1
  refine h.quiet ⟨rfl, hproducts, fun i _ _ _ _ hknown => ?_⟩ rfl h.locked
    (fun hopen => route_listStep (by simp) (h.route hopen) hlist) ?_ ?_
  · rcases hknown with hi | hload | hold | hmissed
    · exact .inl hi
    · rcases mem_eraseIdx_or hk hload with rfl | hload
      · exact .inr (.inr (.inr (List.mem_append_right _ (List.mem_singleton_self i))))
      · exact .inr (.inl hload)
    · exact .inr (.inr (.inl hold))
    · exact .inr (.inr (.inr (List.mem_append_left _ hmissed)))
  · have hbefore := h.loads
    change list.loads = (s.waiting.eraseIdx k).length + s.found.length
    omega
  · exact fun i hi => h.causes i (List.mem_of_mem_eraseIdx hi)

theorem Follows.loaded (h : Follows came T ws₀ S ws missed s) {came' : Prop}
    {toLowerCase : String → String} {products : List Product} {categories : List String}
    {list : ProductsListState} (hfound : s.found[0]? = some products) (hcame : came')
    (hlist : s.list.step toLowerCase (.loaded (some (products, categories))) = some list) :
    Follows came' T ws₀ S ws missed { s with list, found := s.found.eraseIdx 0 } := by
  obtain ⟨hproducts, hloads⟩ := loaded_listStep hlist
  obtain ⟨found, hcons⟩ : ∃ found, s.found = products :: found := by
    cases hs : s.found with
    | nil => simp [hs] at hfound
    | cons x found =>
      rw [hs] at hfound
      exact ⟨found, by rw [Option.some.inj hfound]⟩
  have hbehind := h.view.resolve_left fun hnone => by simp [hcons] at hnone
  obtain ⟨heard, unheard, U, hws, hheard, hunheard, hlatest, hknown⟩ := hbehind
  refine ⟨h.lin, h.applied, h.locked,
    fun hopen => route_listStep (by simp) (h.route hopen) hlist, ?_, h.causes, h.pending,
    fun hnone => absurd hcame hnone,
    .inr ⟨heard, unheard, U, hws, hheard, hunheard, .trans ?_ hlatest, hknown⟩⟩
  · have hbefore := h.loads
    rw [hcons, List.length_cons] at hbefore
    simp only [hcons, List.eraseIdx_zero, List.tail_cons]
    omega
  · rw [latest, latest, hcons, List.eraseIdx_zero, List.tail_cons, List.getLast?_cons,
      Option.getD_some, hproducts]
    rfl

theorem Follows.deleted (h : Follows came T ws₀ S ws missed s) {toLowerCase : String → String}
    {doubleToString : Double → String} {k : ℕ}
    (ht : s.step toLowerCase doubleToString (.deleted k) = some t) :
    Follows came T ws₀ S ws missed t := by
  obtain ⟨i, hk, ht⟩ := Option.bind_eq_some_iff.mp ht
  obtain ⟨⟨c, phase⟩, hi, ht⟩ := Option.bind_eq_some_iff.mp ht
  cases phase with
  | started | checked => cases ht
  | returned result =>
    obtain ⟨list, hlist, rfl⟩ := Option.map_eq_some_iff.mp ht
    obtain ⟨hproducts, hloads⟩ := products_listStep (by simp) hlist
    refine h.heard hi rfl rfl hproducts hloads rfl h.locked
      (fun hopen => route_listStep (by simp) (h.route hopen) hlist) fun j hj => ?_
    rcases hj with hj | hj
    · exact (mem_eraseIdx_or hk hj).imp_right .inl
    · exact .inr (.inr hj)
  | threw failure =>
    obtain ⟨list, hlist, rfl⟩ := Option.map_eq_some_iff.mp ht
    obtain ⟨hproducts, hloads⟩ := products_listStep (by simp) hlist
    refine h.quiet ⟨rfl, hproducts, fun j d phase hj hphase hknown => ?_⟩ rfl h.locked
      (fun hopen => route_listStep (by simp) (h.route hopen) hlist) (hloads.trans h.loads) h.causes
    refine hknown.imp_left fun hawaits => hawaits.imp_left fun hmem => ?_
    refine (mem_eraseIdx_or hk hmem).resolve_left ?_
    rintro rfl
    obtain ⟨-, rfl⟩ := CallState.mk.inj (Option.some.inj (hi.symm.trans hj))
    exact hphase failure rfl

def Came (es : List BrowsingEvent) : Prop := ∃ k available, .loaded k available ∈ es

theorem came_append {es : List BrowsingEvent} {e : BrowsingEvent}
    (he : ∀ k available, e ≠ .loaded k available) : Came (es ++ [e]) ↔ Came es := by
  constructor
  · rintro ⟨k, available, hmem⟩
    rcases List.mem_append.mp hmem with hmem | hmem
    · exact ⟨k, available, hmem⟩
    · exact absurd (List.mem_singleton.mp hmem).symm (he k available)
  · rintro ⟨k, available, hmem⟩
    exact ⟨k, available, List.mem_append_left _ hmem⟩

theorem Follows.append {es : List BrowsingEvent} {e : BrowsingEvent}
    (h : Follows (Came es) T ws₀ S ws missed s) (he : ∀ k available, e ≠ .loaded k available) :
    Follows (Came (es ++ [e])) T ws₀ S ws missed s := by
  rwa [propext (came_append he)]

theorem Follows.step {es : List BrowsingEvent} (h : Follows (Came es) T ws₀ S ws missed s)
    {toLowerCase : String → String} {doubleToString : Double → String} {e : BrowsingEvent}
    (horder : InOrder s e t) (ht : s.step toLowerCase doubleToString e = some t) :
    Follows (Came (es ++ [e])) T ws₀ S (ws ++ s.wrote e) (missed ++ s.missed e) t := by
  cases e with
  | list e =>
    simp only [wrote, Browsing.missed, List.append_nil]
    exact (h.listStep ht).append nofun
  | screen e =>
    obtain ⟨screen, hm, ⟨hopen, result, list, hpopped, hlist, rfl⟩ | ⟨hpopped, rfl⟩⟩ :=
      screenStep_cases ht
    · exact (h.popped hm hopen hpopped hlist).append nofun
    · exact (h.screenMove hm hpopped).append nofun
  | queried k =>
    obtain ⟨cause, hk, rfl⟩ := Option.map_eq_some_iff.mp ht
    simp only [wrote, Browsing.missed, List.append_nil]
    exact (h.queried hk).append nofun
  | failed k =>
    obtain ⟨cause, hk, ht⟩ := Option.bind_eq_some_iff.mp ht
    obtain ⟨list, hlist, rfl⟩ := Option.map_eq_some_iff.mp ht
    simp only [wrote, Browsing.missed, List.append_nil, hk, Option.bind_some, id]
    exact (h.failed hk hlist).append nofun
  | loaded k available =>
    obtain rfl := horder k available rfl
    obtain ⟨products, hk, ht⟩ := Option.bind_eq_some_iff.mp ht
    obtain ⟨list, hlist, rfl⟩ := Option.map_eq_some_iff.mp ht
    simp only [wrote, Browsing.missed, List.append_nil]
    exact h.loaded hk ⟨0, available, by simp⟩ hlist
  | deleted k =>
    simp only [wrote, Browsing.missed, List.append_nil]
    exact (h.deleted ht).append nofun

theorem follows_opened (doubleToString : Double → String) (h : Linearised T S ws₀) :
    Follows (Came []) T ws₀ S [] [] (opened doubleToString S) where
  lin := (List.append_nil ws₀).symm ▸ h
  applied := .nil
  locked := ⟨fun hsearch => (hsearch rfl).elim, fun hopen => by cases hopen⟩
  route := fun hopen => by cases hopen
  loads := rfl
  causes := by simp [opened]
  pending := fun _ _ _ hi _ => .inr (.inr (.inl (List.getElem?_eq_some_iff.mp hi).1))
  unloaded _ := rfl
  view := .inl ⟨by simp [Came], rfl⟩

theorem Settled.waiting (hs : s.Settled) (h : Follows came T ws₀ S ws missed s) :
    s.waiting = [] ∧ s.found = [] := by
  have hloads := h.loads
  rw [hs.loads] at hloads
  exact ⟨List.eq_nil_of_length_eq_zero (by omega), List.eq_nil_of_length_eq_zero (by omega)⟩

theorem Follows.settled (h : Follows came T ws₀ S ws missed s) (hs : s.Settled) (hcame : came) :
    ∃ heard unheard U, ws = heard ++ unheard ∧ Applied S.table heard U ∧
      Applied U unheard s.screen.store.table ∧ s.list.products = U.getAllProducts ∧
      ∀ w ∈ unheard, w.1 < S.calls.length ∨ w.1 ∈ missed := by
  obtain ⟨hwaiting, hfound⟩ := hs.waiting h
  have hbehind := h.view.resolve_left fun hnone => hnone.1 hcame
  obtain ⟨heard, unheard, U, hws, hheard, hunheard, hlatest, hknown⟩ := hbehind
  rw [latest, hfound] at hlatest
  refine ⟨heard, unheard, U, hws, hheard, hunheard, hlatest, fun w hw => ?_⟩
  rcases hknown w hw with hawaits | hload | hmissed
  · exact absurd hawaits (hs.awaits w.1)
  · rw [hwaiting] at hload
    cases hload
  · exact hmissed

end Browsing

variable {T : Table} {S : Store} {s : Browsing}

/--
Where the loads deliver in the order of their queries: before the first one has, the list is empty.
Afterwards, once the list awaits nothing, it shows the table as it was before some last writes.
They are all of calls that were made before it was opened, or of calls that it has missed: the
saves behind the dialog, those of screens that were left meanwhile, calls made elsewhere, and those
whose own load has thrown. Where there are none of these, it shows the table.
-/
theorem list_behind_missed {toLowerCase : String → String} {doubleToString : Double → String}
    {es₀ : List StoreEvent} {es : List BrowsingEvent} (hT : T.Valid)
    (hS : exec Store.step ⟨T, []⟩ es₀ = some S)
    (horder : Along (Browsing.step toLowerCase doubleToString) Browsing.InOrder
      (.opened doubleToString S) es)
    (h : exec (Browsing.step toLowerCase doubleToString) (.opened doubleToString S) es = some s)
    (hs : s.Settled) :
    let step := Browsing.step toLowerCase doubleToString
    let ws := outputs step Browsing.wrote (.opened doubleToString S) es
    let missed := outputs step Browsing.missed (.opened doubleToString S) es
    (¬ Browsing.Came es → s.list.products = []) ∧
    (Browsing.Came es →
      (∃ heard unheard U, ws = heard ++ unheard ∧ Applied S.table heard U ∧
        Applied U unheard s.screen.store.table ∧ s.list.products = U.getAllProducts ∧
        ∀ w ∈ unheard, w.1 < S.calls.length ∨ w.1 ∈ missed) ∧
      (S.calls = [] → missed = [] → s.list.products = s.screen.store.table.getAllProducts)) := by
  intro step ws missed
  have hlin₀ := exec_outputs (H := fun ws s => Linearised T s ws)
    (linearised_initial hT) (fun ws s e t hs ht => hs.move (step_storeMove ht)) hS
  have hfollows :
      Browsing.Follows (Browsing.Came es) T (outputs Store.step wrote ⟨T, []⟩ es₀) S ws missed s :=
    horder.exec_outputs_pair (H := fun es ws missed s =>
        Browsing.Follows (Browsing.Came es) T (outputs Store.step wrote ⟨T, []⟩ es₀) S ws missed s)
      (Browsing.follows_opened doubleToString hlin₀)
      (fun _ _ _ _ _ _ hs horder ht => hs.step horder ht) h
  refine ⟨hfollows.unloaded, fun hcame => ⟨hfollows.settled hs hcame, fun hcalls hmissed => ?_⟩⟩
  obtain ⟨heard, unheard, U, -, -, hunheard, hproducts, hknown⟩ := hfollows.settled hs hcame
  cases hunheard with
  | nil => exact hproducts
  | @snoc _ _ _ i c result =>
    rcases hknown (i, c, result) (by simp) with hold | hmem
    · rw [hcalls] at hold
      cases hold
    · rw [hmissed] at hmem
      cases hmem

/-- A first load throws, and another one comes. The user saves another name, whose load throws, and
then leaves the screen while it saves a third one. -/
def leftDuringSave : List BrowsingEvent :=
  [.failed 0, .list .refreshPressed, .queried 0, .loaded 0 true, .list (.editPressed 0),
    .screen (.form (.edit .productName "Tea")), .screen (.submit ⟨50, 50, 50⟩),
    .screen (.store (.check 0)), .screen (.store (.write 0 51)), .screen .finish, .failed 0,
    .list (.editPressed 0), .screen (.form (.edit .productName "Milk")),
    .screen (.submit ⟨60, 60, 60⟩), .screen .back, .screen (.store (.check 1)),
    .screen (.store (.write 1 61)), .screen .finish]

theorem list_behind_missed_left : ∃ s,
    exec (Browsing.step asciiLowerCase showPrice) (.opened showPrice ⟨oneCola, []⟩)
      leftDuringSave = some s ∧
    s.list.products ≠ s.screen.store.table.getAllProducts ∧
    ∃ heard unheard U, outputs (Browsing.step asciiLowerCase showPrice) Browsing.wrote
        (.opened showPrice ⟨oneCola, []⟩) leftDuringSave = heard ++ unheard ∧
      Applied oneCola heard U ∧ Applied U unheard s.screen.store.table ∧
      s.list.products = U.getAllProducts ∧
      ∀ w ∈ unheard, w.1 < 0 ∨ w.1 ∈ outputs (Browsing.step asciiLowerCase showPrice)
        Browsing.missed (.opened showPrice ⟨oneCola, []⟩) leftDuringSave := by
  have hruns : ((exec (Browsing.step asciiLowerCase showPrice) (.opened showPrice ⟨oneCola, []⟩)
      leftDuringSave).any fun s => s.list.loads = 0 ∧ s.deletes = [] ∧ s.screen.popped.isSome ∧
        s.list.products ≠ s.screen.store.table.getAllProducts) = true := by
    decide +kernel
  obtain ⟨s, hs, hfacts⟩ := (Option.any_eq_true _ _).mp hruns
  obtain ⟨hloads, hdeletes, hpopped, hstale⟩ := of_decide_eq_true hfacts
  have hsettled : s.Settled := by
    refine ⟨hloads, fun i hawaits => ?_⟩
    rcases hawaits with hi | ⟨hopen, -⟩
    · rw [hdeletes] at hi
      cases hi
    · rw [hopen] at hpopped
      cases hpopped
  have hstart : exec Store.step ⟨oneCola, []⟩ [] = some ⟨oneCola, []⟩ := rfl
  have horder : Along (Browsing.step asciiLowerCase showPrice) Browsing.InOrder
      (.opened showPrice ⟨oneCola, []⟩) leftDuringSave := by
    refine along_of_forall
      (P := fun e => ∀ k available, e = BrowsingEvent.loaded k available → k = 0) ?_
    simp [leftDuringSave]
  have hbehind := list_behind_missed oneCola_valid hstart horder hs hsettled
  exact ⟨s, hs, hstale, (hbehind.2 ⟨0, true, by simp [leftDuringSave]⟩).1⟩

end FlutterPractice.Hisabi
