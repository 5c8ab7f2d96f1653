import FlutterPractice.Hisabi.Products
import FlutterPractice.Machine.Run

/-! # The list of all products

`ProductsListScreen` keeps the products that a load delivered and the sublist
that it shows. `_filterProducts` computes the sublist, and `_loadData` replaces
it by all products while the query and the category stay as they are. The query
is in lower case, and so are the names, but not the barcodes.
-/

namespace FlutterPractice.Hisabi

open Machine

inductive Route where
  | none
  | editScreen
  | deleteDialog
  deriving DecidableEq

/-- The fields of `_ProductsListScreenState`, and its calls of the helper that are in flight. -/
structure ProductsListState where
  searchController : String
  products : List Product
  filteredProducts : List Product
  isLoading : Bool
  selectedCategory : Option String
  categories : List String
  route : Route
  loads : ℕ
  deletes : ℕ
  deriving DecidableEq

/-- A load delivers the products and the categories, or throws. -/
abbrev LoadResult := Option (List Product × List String)

inductive ProductsListEvent where
  | textChanged (text : String)
  | textCleared
  | categorySelected (category : Option String)
  | refreshPressed
  | editPressed (i : ℕ)
  | editReturned (result : Option Bool)
  | deletePressed (i : ℕ)
  | dialogAnswered (confirmed : Option Bool)
  | deleted (ok : Bool)
  | loaded (result : LoadResult)
  deriving DecidableEq

namespace ProductsListState

/-- `_loadData` up to its first query. -/
def loadData (s : ProductsListState) : ProductsListState :=
  { s with isLoading := true, loads := s.loads + 1 }

/-- `_loadData` from the last answer on. -/
def onLoaded (s : ProductsListState) : LoadResult → ProductsListState
  | some (products, categories) =>
    { s with
      products := products
      filteredProducts := products
      categories := categories
      isLoading := false }
  | none => { s with isLoading := false }

def initState : ProductsListState :=
  loadData ⟨"", [], [], false, none, [], .none, 0, 0⟩

def contains (text query : String) : Bool := query.toList <:+: text.toList

/-- The predicate of `_filterProducts`. -/
def selects (toLowerCase : String → String) (s : ProductsListState) (product : Product) : Bool :=
  let query := toLowerCase s.searchController
  let matchesSearch := contains (toLowerCase product.productName) query ||
    contains product.barcode query
  let matchesCategory := s.selectedCategory = none || s.selectedCategory = some product.category
  matchesSearch && matchesCategory

def filterProducts (toLowerCase : String → String) (s : ProductsListState) : ProductsListState :=
  { s with filteredProducts := s.products.filter (s.selects toLowerCase) }

/-- The text field, the chips and the cards are there only while the progress indicator is not. -/
def shown (s : ProductsListState) : Bool := s.route = .none && !s.isLoading

def step (toLowerCase : String → String) (s : ProductsListState) :
    ProductsListEvent → Option ProductsListState
  | .textChanged text =>
    if s.shown then some ({ s with searchController := text }.filterProducts toLowerCase) else none
  | .textCleared =>
    if s.shown && !s.searchController.isEmpty then
      some ({ s with searchController := "" }.filterProducts toLowerCase)
    else none
  | .categorySelected category =>
    if s.shown && category.all fun c => s.categories.contains c then
      some ({ s with selectedCategory := category }.filterProducts toLowerCase)
    else none
  | .refreshPressed => if s.route = .none then some s.loadData else none
  | .editPressed i =>
    if s.shown && i < s.filteredProducts.length then some { s with route := .editScreen } else none
  | .editReturned result =>
    if s.route = .editScreen then
      let s := { s with route := .none }
      some (if result = some true then s.loadData else s)
    else none
  | .deletePressed i =>
    if s.shown && i < s.filteredProducts.length then some { s with route := .deleteDialog }
    else none
  | .dialogAnswered confirmed =>
    if s.route = .deleteDialog then
      let s := { s with route := .none }
      some (if confirmed = some true then { s with deletes := s.deletes + 1 } else s)
    else none
  | .deleted ok =>
    if 0 < s.deletes then
      let s := { s with deletes := s.deletes - 1 }
      some (if ok then s.loadData else s)
    else none
  | .loaded result =>
    if 0 < s.loads then some ({ s with loads := s.loads - 1 }.onLoaded result) else none

end ProductsListState

open ProductsListState

/-- Once everything is loaded, what is shown is what the text and the category select. -/
def Shows (toLowerCase : String → String) (s : ProductsListState) : Prop :=
  s.isLoading = false → s.loads = 0 →
    s.filteredProducts = s.products.filter (s.selects toLowerCase)

/--
When the last load in flight ends, the text and the category select every product that it
delivers; if it throws and all products are shown, they select every one of these.
-/
def LoadsSelected (toLowerCase : String → String) (s : ProductsListState) (e : ProductsListEvent)
    (_ : ProductsListState) : Prop :=
  s.loads = 1 →
    (∀ products categories, e = .loaded (some (products, categories)) →
      ∀ product ∈ products, s.selects toLowerCase product) ∧
    (e = .loaded none → s.filteredProducts = s.products →
      ∀ product ∈ s.products, s.selects toLowerCase product)

instance (toLowerCase : String → String) (s : ProductsListState) :
    Decidable (Shows toLowerCase s) :=
  inferInstanceAs (Decidable (_ → _ → _))

/-- The list is filtered, or a load has replaced it. -/
structure Viewed (toLowerCase : String → String) (s : ProductsListState) : Prop where
  lists : s.filteredProducts = s.products.filter (s.selects toLowerCase) ∨
    s.filteredProducts = s.products
  shows : Shows toLowerCase s

/-- The step changes nothing that `_filterProducts` reads or writes. -/
structure SameView (s t : ProductsListState) : Prop where
  searchController : t.searchController = s.searchController
  products : t.products = s.products
  filteredProducts : t.filteredProducts = s.filteredProducts
  selectedCategory : t.selectedCategory = s.selectedCategory

variable {toLowerCase : String → String} {s t : ProductsListState} {e : ProductsListEvent}

theorem shows_filterProducts (s : ProductsListState) :
    Shows toLowerCase (s.filterProducts toLowerCase) :=
  fun _ _ => rfl

theorem viewed_filterProducts (s : ProductsListState) :
    Viewed toLowerCase (s.filterProducts toLowerCase) :=
  ⟨.inl rfl, shows_filterProducts s⟩

theorem SameView.selects (h : SameView s t) : t.selects toLowerCase = s.selects toLowerCase := by
  funext product
  simp only [ProductsListState.selects, h.searchController, h.selectedCategory]

theorem SameView.lists (h : SameView s t) (hs : Viewed toLowerCase s) :
    t.filteredProducts = t.products.filter (t.selects toLowerCase) ∨
      t.filteredProducts = t.products := by
  rw [h.filteredProducts, h.products, h.selects]
  exact hs.lists

/-- A step filters the list, or leaves the view alone, or ends a load. -/
inductive ListMove (toLowerCase : String → String) (s : ProductsListState) :
    ProductsListEvent → ProductsListState → Prop
  | filter {e : ProductsListEvent} (u : ProductsListState) (hu : u.loads = s.loads)
      (he : ∀ result, e ≠ .loaded result) : ListMove toLowerCase s e (u.filterProducts toLowerCase)
  | load {e : ProductsListEvent} {t : ProductsListState} (h : SameView s t) (ht : t.loads ≠ 0)
      (he : ∀ result, e ≠ .loaded result) : ListMove toLowerCase s e t
  | idle {e : ProductsListEvent} {t : ProductsListState} (h : SameView s t)
      (hl : t.isLoading = s.isLoading) (ht : t.loads = s.loads)
      (he : ∀ result, e ≠ .loaded result) : ListMove toLowerCase s e t
  | loaded (result : LoadResult) (hs : 0 < s.loads) :
      ListMove toLowerCase s (.loaded result) ({ s with loads := s.loads - 1 }.onLoaded result)

theorem step_listMove (h : s.step toLowerCase e = some t) : ListMove toLowerCase s e t := by
  cases e with
  | textChanged text =>
    obtain ⟨-, h⟩ := Option.ite_none_right_eq_some.mp h
    obtain rfl := Option.some.inj h
    exact .filter { s with searchController := text } rfl (by simp)
  | textCleared =>
    obtain ⟨-, h⟩ := Option.ite_none_right_eq_some.mp h
    obtain rfl := Option.some.inj h
    exact .filter { s with searchController := "" } rfl (by simp)
  | categorySelected category =>
    obtain ⟨-, h⟩ := Option.ite_none_right_eq_some.mp h
    obtain rfl := Option.some.inj h
    exact .filter { s with selectedCategory := category } rfl (by simp)
  | refreshPressed =>
    obtain ⟨-, h⟩ := Option.ite_none_right_eq_some.mp h
    obtain rfl := Option.some.inj h
    exact .load ⟨rfl, rfl, rfl, rfl⟩ (Nat.succ_ne_zero _) (by simp)
  | editPressed i =>
    obtain ⟨-, h⟩ := Option.ite_none_right_eq_some.mp h
    obtain rfl := Option.some.inj h
    exact .idle ⟨rfl, rfl, rfl, rfl⟩ rfl rfl (by simp)
  | editReturned result =>
    obtain ⟨-, h⟩ := Option.ite_none_right_eq_some.mp h
    obtain rfl := Option.some.inj h
    split
    · exact .load ⟨rfl, rfl, rfl, rfl⟩ (Nat.succ_ne_zero _) (by simp)
    · exact .idle ⟨rfl, rfl, rfl, rfl⟩ rfl rfl (by simp)
  | deletePressed i =>
    obtain ⟨-, h⟩ := Option.ite_none_right_eq_some.mp h
    obtain rfl := Option.some.inj h
    exact .idle ⟨rfl, rfl, rfl, rfl⟩ rfl rfl (by simp)
  | dialogAnswered confirmed =>
    obtain ⟨-, h⟩ := Option.ite_none_right_eq_some.mp h
    obtain rfl := Option.some.inj h
    split <;> exact .idle ⟨rfl, rfl, rfl, rfl⟩ rfl rfl (by simp)
  | deleted ok =>
    obtain ⟨-, h⟩ := Option.ite_none_right_eq_some.mp h
    obtain rfl := Option.some.inj h
    split
    · exact .load ⟨rfl, rfl, rfl, rfl⟩ (Nat.succ_ne_zero _) (by simp)
    · exact .idle ⟨rfl, rfl, rfl, rfl⟩ rfl rfl (by simp)
  | loaded result =>
    obtain ⟨hs, h⟩ := Option.ite_none_right_eq_some.mp h
    obtain rfl := Option.some.inj h
    exact .loaded result hs

theorem lists_onLoaded (hs : Viewed toLowerCase s) (n : ℕ) (result : LoadResult) :
    let t := { s with loads := n }.onLoaded result
    t.filteredProducts = t.products.filter (t.selects toLowerCase) ∨
      t.filteredProducts = t.products := by
  cases result with
  | none => exact hs.lists
  | some delivered => exact .inr rfl

@[simp] theorem isLoading_onLoaded (s : ProductsListState) (result : LoadResult) :
    (s.onLoaded result).isLoading = false := by
  cases result <;> rfl

@[simp] theorem loads_onLoaded (s : ProductsListState) (result : LoadResult) :
    (s.onLoaded result).loads = s.loads := by
  cases result <;> rfl

theorem shows_onLoaded_iff (hs : Viewed toLowerCase s) (hpos : 0 < s.loads) (result : LoadResult) :
    Shows toLowerCase ({ s with loads := s.loads - 1 }.onLoaded result) ↔
      LoadsSelected toLowerCase s (.loaded result) t := by
  have hlast : (s.loads - 1 = 0) ↔ s.loads = 1 := by omega
  simp only [Shows, LoadsSelected, isLoading_onLoaded, loads_onLoaded, hlast, forall_const]
  refine imp_congr_right fun _ => ?_
  cases result with
  | none =>
    change s.filteredProducts = s.products.filter (s.selects toLowerCase) ↔ _
    constructor
    · refine fun hf => ⟨by simp, fun _ hall => List.filter_eq_self.mp ?_⟩
      rw [← hf, hall]
    · rintro ⟨-, h⟩
      rcases hs.lists with hf | hall
      · exact hf
      · rw [List.filter_eq_self.mpr (h rfl hall)]
        exact hall
  | some delivered =>
    obtain ⟨products, categories⟩ := delivered
    change products = products.filter (s.selects toLowerCase) ↔ _
    constructor
    · refine fun hf => ⟨?_, by simp⟩
      rintro _ _ he
      obtain ⟨rfl, rfl⟩ := Prod.mk.inj (Option.some.inj (ProductsListEvent.loaded.inj he))
      exact List.filter_eq_self.mp hf.symm
    · rintro ⟨h, -⟩
      exact (List.filter_eq_self.mpr (h products categories rfl)).symm

theorem shows_step_iff (hs : Viewed toLowerCase s) (h : s.step toLowerCase e = some t) :
    Shows toLowerCase t ↔ LoadsSelected toLowerCase s e t := by
  have htrivial : (∀ result, e ≠ .loaded result) → LoadsSelected toLowerCase s e t :=
    fun he _ => ⟨fun _ _ hr => (he _ hr).elim, fun hr => (he _ hr).elim⟩
  cases step_listMove h with
  | filter u _ he => exact iff_of_true (shows_filterProducts u) (htrivial he)
  | load _ ht he => exact iff_of_true (fun _ h0 => (ht h0).elim) (htrivial he)
  | idle hv hl ht he =>
    refine iff_of_true (fun hf h0 => ?_) (htrivial he)
    rw [hv.filteredProducts, hv.products, hv.selects]
    exact hs.shows (hl ▸ hf) (ht ▸ h0)
  | loaded result hpos => exact shows_onLoaded_iff hs hpos result

theorem Viewed.step (hs : Viewed toLowerCase s) (h : s.step toLowerCase e = some t)
    (ht : Shows toLowerCase t) : Viewed toLowerCase t := by
  cases step_listMove h with
  | filter u => exact viewed_filterProducts u
  | load hv => exact ⟨hv.lists hs, ht⟩
  | idle hv => exact ⟨hv.lists hs, ht⟩
  | loaded result => exact ⟨lists_onLoaded hs _ result, ht⟩

theorem viewed_initState : Viewed toLowerCase initState :=
  ⟨.inl rfl, fun hl => by cases hl⟩

/--
What is shown is what the text and the category select, in every state of a run in which
everything is loaded, exactly when they select all products that the last load in flight leaves.
-/
theorem along_shows_iff (toLowerCase : String → String) (es : List ProductsListEvent) :
    Along (step toLowerCase) (fun _ _ t => Shows toLowerCase t) initState es ↔
      Along (step toLowerCase) (LoadsSelected toLowerCase) initState es := by
  apply along_congr (I := Viewed toLowerCase) viewed_initState
  intro s e t hs hst
  have hiff := shows_step_iff hs hst
  exact ⟨hiff, fun hl => hs.step hst (hiff.mpr hl)⟩

section Search

namespace ProductsListState

/-- What the text field asks for: the name in any letter case, or the barcode as it is. -/
def finds (toLowerCase : String → String) (s : ProductsListState) (product : Product) : Bool :=
  (contains (toLowerCase product.productName) (toLowerCase s.searchController) ||
    contains product.barcode s.searchController) &&
  (s.selectedCategory = none || s.selectedCategory = some product.category)

end ProductsListState

/-- `_filterProducts` shows exactly the products that are asked for. -/
def FindsTyped (toLowerCase : String → String) (s : ProductsListState) : Prop :=
  ∀ product ∈ s.products,
    product ∈ (s.filterProducts toLowerCase).filteredProducts ↔
      s.finds toLowerCase product = true

instance (toLowerCase : String → String) (s : ProductsListState) :
    Decidable (FindsTyped toLowerCase s) :=
  inferInstanceAs (Decidable (∀ _ ∈ _, _))

/-- Neither the category nor the name decides about the product, so the barcode does. -/
def LeftToBarcode (toLowerCase : String → String) (s : ProductsListState) (product : Product) :
    Prop :=
  (s.selectedCategory = none ∨ s.selectedCategory = some product.category) ∧
    contains (toLowerCase product.productName) (toLowerCase s.searchController) = false

@[simp] theorem contains_iff {text query : String} :
    contains text query = true ↔ query.toList <:+: text.toList := by
  simp [contains]

@[simp] theorem contains_self (text : String) : contains text text = true :=
  contains_iff.mpr (List.infix_refl _)

theorem contains_antisymm {a b : String} (hab : contains a b = true) (hba : contains b a = true) :
    a = b := by
  have hle := (contains_iff.mp hba).length_le
  exact (String.toList_inj.mp ((contains_iff.mp hab).eq_of_length_le hle)).symm

theorem mem_filterProducts {product : Product} :
    product ∈ (s.filterProducts toLowerCase).filteredProducts ↔
      product ∈ s.products ∧ s.selects toLowerCase product = true :=
  List.mem_filter

/-- The filter and the search differ in how they look at the barcode only. -/
theorem selects_iff_finds_iff (product : Product) :
    (s.selects toLowerCase product = true ↔ s.finds toLowerCase product = true) ↔
      (LeftToBarcode toLowerCase s product →
        (contains product.barcode (toLowerCase s.searchController) = true ↔
          contains product.barcode s.searchController = true)) := by
  simp only [selects, finds, LeftToBarcode, Bool.and_eq_true, Bool.or_eq_true, decide_eq_true_eq]
  cases contains (toLowerCase product.productName) (toLowerCase s.searchController) with
  | true => simp
  | false =>
    by_cases hcategory : s.selectedCategory = none ∨ s.selectedCategory = some product.category
    · simp [hcategory]
    · simp [hcategory]

/--
The search is right iff the barcodes that decide contain the text in lower case exactly when they
contain the text. It is so for every list iff the text is in lower case, or all names contain it.
-/
theorem findsTyped_iff (toLowerCase : String → String) (s : ProductsListState) :
    (FindsTyped toLowerCase s ↔
      ∀ product ∈ s.products, LeftToBarcode toLowerCase s product →
        (contains product.barcode (toLowerCase s.searchController) = true ↔
          contains product.barcode s.searchController = true)) ∧
    ((∀ products, FindsTyped toLowerCase { s with products }) ↔
      toLowerCase s.searchController = s.searchController ∨
        ∀ name, contains (toLowerCase name) (toLowerCase s.searchController) = true) := by
  have hone : ∀ s : ProductsListState, FindsTyped toLowerCase s ↔
      ∀ product ∈ s.products, LeftToBarcode toLowerCase s product →
        (contains product.barcode (toLowerCase s.searchController) = true ↔
          contains product.barcode s.searchController = true) := by
    intro s
    refine forall₂_congr fun product hproduct => ?_
    rw [mem_filterProducts, and_iff_right hproduct]
    exact selects_iff_finds_iff product
  refine ⟨hone s, ?_⟩
  simp only [hone]
  constructor
  · intro hall
    by_contra hnot
    obtain ⟨hlower, name, hname⟩ := by simpa only [not_or, not_forall] using hnot
    -- the product is left to its barcode, whichever of the two texts that is
    have hbarcode (barcode : String) :
        contains barcode (toLowerCase s.searchController) = true ↔
          contains barcode s.searchController = true := by
      let product : Product :=
        { cola barcode with productName := name, category := s.selectedCategory.getD "Food" }
      refine hall [product] product (List.mem_singleton_self _) ⟨?_, Bool.eq_false_iff.mpr hname⟩
      cases hcategory : s.selectedCategory with
      | none => exact .inl rfl
      | some category => exact .inr (by simp [product, hcategory])
    refine hlower (contains_antisymm ?_ ?_)
    · exact (hbarcode _).mp (contains_self _)
    · exact (hbarcode _).mpr (contains_self _)
  · rintro (hlower | hname) products product - ⟨-, hdecides⟩
    · simp only [hlower]
    · exact absurd (hname _) (Bool.eq_false_iff.mp hdecides)

end Search

section Examples

/-- `String.toLowerCase` on texts of ASCII characters. -/
def asciiLowerCase (text : String) : String := .ofList (text.toList.map Char.toLower)

def shelf : List Product := [{ cola "42" with id := some 1 }]

/-- A query that no product matches survives a refresh, and all products show again. -/
theorem refreshed_not_shows :
    ¬ Along (step asciiLowerCase) (fun _ _ t => Shows asciiLowerCase t) initState
      [.loaded (some (shelf, ["Food"])), .textChanged "tea", .refreshPressed,
        .loaded (some (shelf, ["Food"]))] := by
  decide

/-- Typing the barcode "ABC" does not find the product that has it. -/
theorem not_findsTyped_barcode :
    ¬ FindsTyped asciiLowerCase
      { initState with
        isLoading := false
        loads := 0
        searchController := "ABC"
        products := [cola "ABC"] } := by
  decide +kernel

end Examples

end FlutterPractice.Hisabi
