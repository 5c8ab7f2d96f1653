import FlutterPractice.Dart.Text
import FlutterPractice.Machine.Run

/-! # The category menu

`_buildCategoryDropdown` offers the categories and an item with a value of its
own, which opens the dialog for a new one. Texts from the database and from the
dialog enter the categories. The dialog trims a text behind its check that it is
not empty, and nothing keeps the value of the last item out.
-/

namespace FlutterPractice.Hisabi

open Dart Machine

def addNew : String := "__add_new__"

def defaultCategories : List String := ["Electronics", "Clothing", "Food", "Books", "Toys", "Other"]

/-- What the database has for `_loadCategories`: the form stores trimmed texts that it has checked
not to be empty, and the query leaves out duplicates. -/
structure StoredCategories where
  texts : List String
  nodup : texts.Nodup
  stored : ∀ text ∈ texts, text ≠ "" ∧ Trimmed text

/-- The menu as it is built: the entries in front of the last item, and the selected value. -/
structure Menu where
  categories : List String
  value : Option String
  deriving DecidableEq

def Menu.items (menu : Menu) : List String := menu.categories ++ [addNew]

/-- The fields that the menu uses, the menu on the screen, and whether the dialog lies on it. -/
structure CategoryState where
  categories : List String
  categoryController : String
  menu : Option Menu
  dialog : Bool
  deriving DecidableEq

inductive CategoryEvent where
  | loaded (categories : StoredCategories)
  | built
  | selected (i : ℕ)
  | dialogAdded (text : String)
  | dialogCancelled
  | productLoaded (category : String)
  | cleared

namespace CategoryState

def initial : CategoryState := ⟨[], "", none, false⟩

def buildCategoryDropdown (s : CategoryState) : CategoryState :=
  let categories := if s.categories = [] then defaultCategories else s.categories
  { s with
    categories := categories
    menu := some {
      categories := categories
      value := if s.categoryController ∈ categories then some s.categoryController else none } }

def onChanged (s : CategoryState) (value : String) : CategoryState :=
  if value = addNew then { s with dialog := true } else { s with categoryController := value }

def addCategory (s : CategoryState) (text : String) : CategoryState :=
  if text = "" then s
  else
    let newCategory := trim text
    { s with
      categories :=
        if newCategory ∈ s.categories then s.categories else s.categories ++ [newCategory]
      categoryController := newCategory
      dialog := false }

def step (s : CategoryState) : CategoryEvent → Option CategoryState
  | .loaded categories => some { s with categories := categories.texts }
  | .built => some s.buildCategoryDropdown
  | .selected i =>
    if s.dialog then none
    else s.menu.bind fun menu => menu.items[i]?.map s.onChanged
  | .dialogAdded text => if s.dialog then some (s.addCategory text) else none
  | .dialogCancelled => if s.dialog then some { s with dialog := false } else none
  | .productLoaded category => some { s with categoryController := category }
  | .cleared => some { s with categoryController := "" }

end CategoryState

structure Menu.WellFormed (menu : Menu) : Prop where
  nodup : menu.items.Nodup
  ne_empty : ∀ item ∈ menu.items, item ≠ ""
  value : ∀ value ∈ menu.value, menu.items.count value = 1

/-- What is built is well formed, and the item of a category selects it. -/
def MenuWorks (s : CategoryState) (e : CategoryEvent) (t : CategoryState) : Prop :=
  (e = .built → ∀ menu ∈ t.menu, menu.WellFormed) ∧
    ∀ i, e = .selected i → ∀ menu ∈ s.menu, ∀ category, menu.categories[i]? = some category →
      t.categoryController = category

/-- The texts that have come in since the last load. -/
def offer (texts : List String) : CategoryEvent → List String
  | .loaded categories => categories.texts
  | .dialogAdded text => if text = "" then texts else texts ++ [trim text]
  | _ => texts

def offered (es : List CategoryEvent) : List String := es.foldl offer []

/-- No text that has come in is empty or the value of the last item. -/
def NothingOdd (es : List CategoryEvent) : Prop := ∀ text ∈ offered es, text ≠ "" ∧ text ≠ addNew

instance (es : List CategoryEvent) : Decidable (NothingOdd es) :=
  inferInstanceAs (Decidable (∀ _ ∈ _, _))

/-- The categories are what has come in, or the default ones. -/
structure Filled (es : List CategoryEvent) (s : CategoryState) : Prop where
  nodup : s.categories.Nodup
  offered_mem : ∀ text ∈ offered es, text ∈ s.categories
  mem_offered : ∀ text ∈ s.categories, text ∈ offered es ∨ text ∈ defaultCategories

variable {es : List CategoryEvent} {s t : CategoryState} {e : CategoryEvent}

theorem offered_append (es : List CategoryEvent) (e : CategoryEvent) :
    offered (es ++ [e]) = offer (offered es) e := by
  rw [offered, List.foldl_append]
  rfl

theorem defaultCategories_nodup : defaultCategories.Nodup := by decide

theorem defaultCategories_ne : ∀ text ∈ defaultCategories, text ≠ "" ∧ text ≠ addNew := by decide

theorem filled_initial : Filled [] .initial :=
  ⟨List.nodup_nil, by simp [offered], by simp [CategoryState.initial]⟩

theorem Filled.buildCategoryDropdown (h : Filled es s) :
    Filled es s.buildCategoryDropdown := by
  by_cases hnil : s.categories = []
  · have hcategories : s.buildCategoryDropdown.categories = defaultCategories := if_pos hnil
    refine ⟨hcategories ▸ defaultCategories_nodup, fun text htext => ?_, fun text htext => ?_⟩
    · have hmem := h.offered_mem text htext
      rw [hnil] at hmem
      cases hmem
    · exact .inr (hcategories ▸ htext)
  · have hcategories : s.buildCategoryDropdown.categories = s.categories := if_neg hnil
    exact ⟨hcategories ▸ h.nodup, hcategories ▸ h.offered_mem, hcategories ▸ h.mem_offered⟩

theorem Filled.addCategory (h : Filled es s) (text : String) :
    Filled (es ++ [.dialogAdded text]) (s.addCategory text) := by
  have hoffered := offered_append es (.dialogAdded text)
  rw [CategoryState.addCategory]
  split
  · rename_i hempty
    rw [offer, if_pos hempty] at hoffered
    exact ⟨h.nodup, hoffered ▸ h.offered_mem, hoffered ▸ h.mem_offered⟩
  · rename_i hempty
    rw [offer, if_neg hempty] at hoffered
    have hmem (other : String) : other ∈ (if trim text ∈ s.categories then s.categories
        else s.categories ++ [trim text]) ↔ other ∈ s.categories ∨ other = trim text := by
      split
      · rename_i hold
        exact ⟨.inl, fun h => h.elim id fun he => he ▸ hold⟩
      · simp
    refine ⟨?_, fun other hother => ?_, fun other hother => ?_⟩
    · change (if trim text ∈ s.categories then s.categories
        else s.categories ++ [trim text]).Nodup
      split
      · exact h.nodup
      · rename_i hnew
        simpa using h.nodup.concat hnew
    · rw [hoffered, List.mem_append, List.mem_singleton] at hother
      exact (hmem other).mpr (hother.imp_left (h.offered_mem other))
    · rw [hoffered, List.mem_append, List.mem_singleton]
      rcases (hmem other).mp hother with hold | hnew
      · exact (h.mem_offered other hold).imp_left .inl
      · exact .inl (.inr hnew)

theorem Filled.congr (h : Filled es s) (hcategories : t.categories = s.categories)
    (hoffer : offer (offered es) e = offered es) : Filled (es ++ [e]) t := by
  have hoffered := (offered_append es e).trans hoffer
  exact ⟨hcategories ▸ h.nodup, by rw [hoffered, hcategories]; exact h.offered_mem,
    by rw [hoffered, hcategories]; exact h.mem_offered⟩

theorem onChanged_categories (s : CategoryState) (value : String) :
    (s.onChanged value).categories = s.categories := by
  rw [CategoryState.onChanged]
  split <;> rfl

theorem selected_eq_some {i : ℕ} : s.step (.selected i) = some t ↔
    s.dialog = false ∧ ∃ menu, s.menu = some menu ∧ ∃ value, menu.items[i]? = some value ∧
      s.onChanged value = t := by
  rw [CategoryState.step, Option.ite_none_left_eq_some, Option.bind_eq_some_iff]
  simp only [Bool.not_eq_true, Option.map_eq_some_iff]

theorem Filled.step (h : Filled es s) (ht : s.step e = some t) : Filled (es ++ [e]) t := by
  cases e with
  | loaded categories =>
    obtain rfl := Option.some.inj ht
    have hoffered : offered (es ++ [.loaded categories]) = categories.texts :=
      offered_append es (.loaded categories)
    refine ⟨categories.nodup, fun text htext => ?_, fun text htext => ?_⟩
    · rwa [hoffered] at htext
    · rw [hoffered]
      exact .inl htext
  | built =>
    obtain rfl := Option.some.inj ht
    exact h.buildCategoryDropdown.congr rfl rfl
  | selected i =>
    obtain ⟨-, menu, -, value, -, rfl⟩ := selected_eq_some.mp ht
    exact h.congr (onChanged_categories s value) rfl
  | dialogAdded text =>
    obtain ⟨-, ht⟩ := Option.ite_none_right_eq_some.mp ht
    obtain rfl := Option.some.inj ht
    exact h.addCategory text
  | dialogCancelled =>
    obtain ⟨-, ht⟩ := Option.ite_none_right_eq_some.mp ht
    obtain rfl := Option.some.inj ht
    exact h.congr rfl rfl
  | productLoaded category | cleared =>
    obtain rfl := Option.some.inj ht
    exact h.congr rfl rfl

theorem filled_of_exec (hs : exec CategoryState.step .initial es = some s) : Filled es s :=
  exec_history filled_initial (fun _ _ _ _ h ht => h.step ht) hs

theorem Filled.wellFormed_iff (h : Filled es s) :
    (∀ menu ∈ s.buildCategoryDropdown.menu, menu.WellFormed) ↔ NothingOdd es := by
  have hbuilt := h.buildCategoryDropdown
  constructor
  · intro hmenu text htext
    obtain ⟨hnodup, hne, -⟩ := hmenu _ rfl
    have hmem := hbuilt.offered_mem text htext
    refine ⟨hne text (List.mem_append_left _ hmem), ?_⟩
    rintro rfl
    exact List.disjoint_of_nodup_append hnodup hmem (List.mem_singleton_self _)
  · rintro hodd menu hmenu
    obtain rfl := Option.some.inj hmenu
    have hentry : ∀ text ∈ s.buildCategoryDropdown.categories, text ≠ "" ∧ text ≠ addNew := by
      intro text htext
      rcases hbuilt.mem_offered text htext with hoffered | hdefault
      · exact hodd text hoffered
      · exact defaultCategories_ne text hdefault
    have hnodup : (s.buildCategoryDropdown.categories ++ [addNew]).Nodup := by
      simpa using hbuilt.nodup.concat fun hmem => (hentry addNew hmem).2 rfl
    refine ⟨hnodup, fun item hitem => ?_, fun value hvalue => ?_⟩
    · rcases List.mem_append.mp hitem with hmem | hlast
      · exact (hentry item hmem).1
      · rw [List.mem_singleton.mp hlast]
        decide
    · obtain ⟨hmem, hsome⟩ := Option.ite_none_right_eq_some.mp hvalue
      obtain rfl := Option.some.inj hsome
      exact List.count_eq_one_of_mem hnodup (List.mem_append_left _ hmem)

theorem Menu.WellFormed.addNew_not_mem {menu : Menu} (h : menu.WellFormed) :
    addNew ∉ menu.categories :=
  fun hmem => List.disjoint_of_nodup_append h.nodup hmem (List.mem_singleton_self _)

theorem step_menu (he : e ≠ .built) (ht : s.step e = some t) : t.menu = s.menu := by
  cases e with
  | built => exact absurd rfl he
  | selected i =>
    obtain ⟨-, menu, -, value, -, rfl⟩ := selected_eq_some.mp ht
    rw [CategoryState.onChanged]
    split <;> rfl
  | dialogAdded text =>
    obtain ⟨-, ht⟩ := Option.ite_none_right_eq_some.mp ht
    obtain rfl := Option.some.inj ht
    rw [CategoryState.addCategory]
    split <;> rfl
  | dialogCancelled =>
    obtain ⟨-, ht⟩ := Option.ite_none_right_eq_some.mp ht
    obtain rfl := Option.some.inj ht
    rfl
  | loaded categories | productLoaded category | cleared =>
    obtain rfl := Option.some.inj ht
    rfl

/-- As long as nothing odd comes in before a build, no entry has the value of the last item. -/
theorem menu_entries_ne (hs : exec CategoryState.step .initial es = some s)
    (hodd : ∀ pre post, es = pre ++ .built :: post → NothingOdd pre) :
    ∀ menu ∈ s.menu, addNew ∉ menu.categories := by
  induction es using List.reverseRecOn generalizing s with
  | nil =>
    obtain rfl := Option.some.inj hs
    simp [CategoryState.initial]
  | append_singleton es e ih =>
    obtain ⟨u, hu, hs⟩ := exec_append_eq_some.mp hs
    obtain ⟨v, hv, hs⟩ := exec_cons.mp hs
    obtain rfl := Option.some.inj hs
    by_cases he : e = .built
    · subst he
      obtain rfl := Option.some.inj hv
      have hes := hodd es [] rfl
      exact fun menu hmenu =>
        ((filled_of_exec hu).wellFormed_iff.mpr hes menu hmenu).addNew_not_mem
    · rw [step_menu he hv]
      exact ih hu fun pre post h => hodd pre (post ++ [e]) (by rw [h]; simp)

/-- The item of a category that is not the value of the last item selects the category. -/
theorem selected_category {i : ℕ} (ht : s.step (.selected i) = some t)
    (hmenu : ∀ menu ∈ s.menu, addNew ∉ menu.categories) :
    ∀ menu ∈ s.menu, ∀ category, menu.categories[i]? = some category →
      t.categoryController = category := by
  intro menu hm category hcategory
  obtain ⟨-, menu', hm', value, hvalue, rfl⟩ := selected_eq_some.mp ht
  obtain rfl := Option.some.inj (hm'.symm.trans hm)
  have hlt : i < menu'.categories.length := (List.getElem?_eq_some_iff.mp hcategory).1
  have hitem : menu'.items[i]? = some category := (List.getElem?_append_left hlt).trans hcategory
  obtain rfl := Option.some.inj (hvalue.symm.trans hitem)
  have hne : value ≠ addNew := fun he => hmenu _ hm (he ▸ List.mem_of_getElem? hcategory)
  rw [CategoryState.onChanged, if_neg hne]

/--
The menu works throughout a run exactly when, at every build, none of the texts that have come in
since the last load is empty or the value of the last item.
-/
theorem along_menuWorks_iff (es : List CategoryEvent) :
    Along CategoryState.step MenuWorks .initial es ↔
      ∀ pre post, es = pre ++ .built :: post →
        (exec CategoryState.step .initial pre).isSome → NothingOdd pre := by
  rw [along_iff]
  constructor
  · intro h pre post hes hpre
    obtain ⟨s, hs⟩ := Option.isSome_iff_exists.mp hpre
    exact (filled_of_exec hs).wellFormed_iff.mp ((h pre .built post s _ hes hs rfl).1 rfl)
  · rintro h pre e post s t rfl hs ht
    refine ⟨?_, ?_⟩
    · rintro rfl
      obtain rfl := Option.some.inj ht
      exact (filled_of_exec hs).wellFormed_iff.mpr (h pre post rfl (by rw [hs]; rfl))
    · rintro i rfl
      refine selected_category ht (menu_entries_ne hs fun before after hpre => ?_)
      obtain ⟨u, hu, -⟩ := exec_append_eq_some.mp (hpre ▸ hs)
      exact h before (after ++ .selected i :: post) (by rw [hpre]; simp) (by rw [hu]; rfl)

section Examples

/-- A blank name is no empty text, and becomes one. -/
theorem blank_not_menuWorks :
    ¬ Along CategoryState.step MenuWorks .initial
      [.built, .selected 6, .dialogAdded " ", .built] := by
  intro h
  have hlast := along_iff.mp h [.built, .selected 6, .dialogAdded " "] .built [] _ _ rfl rfl rfl
  have hempty := (hlast.1 rfl _ rfl).ne_empty "" (by decide)
  exact hempty rfl

end Examples

end FlutterPractice.Hisabi
