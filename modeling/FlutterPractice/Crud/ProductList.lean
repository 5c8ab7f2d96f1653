import FlutterPractice.Crud.ProductsModel
import FlutterPractice.Machine.Run

/-! # The product list

`CrudAppScreen` clears its list when a load starts and appends to it when the
answer arrives. Loads may overlap: the refresh button stays enabled, and a
delete that is answered late starts one more.
-/

namespace FlutterPractice.Crud

open Machine

/-- The fields of `_CrudAppScreenState`, and how many `_getProductList` calls await their answer. -/
structure ListState where
  productList : List ProductsModel
  getProductInProgress : Bool
  inFlight : ℕ
  deriving DecidableEq

/-- How `get` ends: a response with the elements of its `data`, if its body decodes to that, or an
exception. -/
inductive ListReply where
  | response (statusCode : ℕ) (data : Option (List JsonRecord))
  | exception
  deriving DecidableEq

inductive ListEvent where
  | refreshPressed
  | deleteAnswered (statusCode : ℕ)
  | reply (r : ListReply)
  deriving DecidableEq

namespace ListState

/-- `_getProductList` up to the call of `get`. -/
def getProductList (s : ListState) : ListState :=
  { s with productList := [], getProductInProgress := true, inFlight := s.inFlight + 1 }

/-- The loop over `data`, with what the list is where it stops and whether it reaches the end. -/
def addProducts : List ProductsModel → List JsonRecord → List ProductsModel × Bool
  | products, [] => (products, true)
  | products, productJson :: data =>
    match ProductsModel.fromJson productJson with
    | some productsModel => addProducts (products ++ [productsModel]) data
    | none => (products, false)

/-- `_getProductList` from the answer of `get` on. What throws leaves the flag as it is. -/
def onReply (s : ListState) : ListReply → ListState
  | .response statusCode data =>
    if statusCode = 200 then
      match data with
      | some elements =>
        match addProducts s.productList elements with
        | (products, true) => { s with productList := products, getProductInProgress := false }
        | (products, false) => { s with productList := products }
      | none => s
    else { s with getProductInProgress := false }
  | .exception => s

/-- The screen after `initState`, which starts the first load. -/
def initial : ListState := getProductList ⟨[], false, 0⟩

/-- `_deleteProduct` refreshes the list once its request is answered with 200. -/
def step (s : ListState) : ListEvent → Option ListState
  | .refreshPressed => some s.getProductList
  | .deleteAnswered statusCode => some (if statusCode = 200 then s.getProductList else s)
  | .reply r =>
    if 0 < s.inFlight then some ({ s with inFlight := s.inFlight - 1 }.onReply r) else none

end ListState

def ListReply.products : ListReply → Option (List ProductsModel)
  | .response statusCode data =>
    if statusCode = 200 then data.bind fun elements => elements.mapM ProductsModel.fromJson
    else none
  | .exception => none

/-- Every reply is a successful response with the products of the server. -/
def ServedList (L : List ProductsModel) (_ : ListState) (e : ListEvent) (_ : ListState) : Prop :=
  ∀ r, e = .reply r → r.products = some L

def Alone (s : ListState) (e : ListEvent) (_ : ListState) : Prop :=
  ∀ r, e = .reply r → s.inFlight = 1

/-- With no call in flight the list is the server's and nothing is in progress; otherwise something
is. -/
def Lists (L : List ProductsModel) (s : ListState) : Prop :=
  (s.inFlight = 0 → s.productList = L ∧ s.getProductInProgress = false) ∧
    (s.inFlight ≠ 0 → s.getProductInProgress = true)

/-- While replies arrive alone, the list is empty during a load and complete after it. -/
def Loading (L : List ProductsModel) (s : ListState) : Prop :=
  s.inFlight = 0 ∧ s.productList = L ∧ s.getProductInProgress = false ∨
    s.inFlight ≠ 0 ∧ s.productList = [] ∧ s.getProductInProgress = true

instance (L : List ProductsModel) (s t : ListState) (e : ListEvent) :
    Decidable (ServedList L s e t) :=
  match e with
  | .reply r => decidable_of_iff (r.products = some L) (by simp [ServedList])
  | .refreshPressed | .deleteAnswered _ => .isTrue (by simp [ServedList])

instance (L : List ProductsModel) (s : ListState) : Decidable (Lists L s) :=
  inferInstanceAs (Decidable (_ ∧ _))

variable {L : List ProductsModel} {s t : ListState}

open ListState in
theorem addProducts_of_mapM {products added : List ProductsModel} {data : List JsonRecord}
    (h : data.mapM ProductsModel.fromJson = some added) :
    addProducts products data = (products ++ added, true) := by
  induction data generalizing products added with
  | nil =>
    obtain rfl : [] = added := Option.some.inj h
    simp [addProducts]
  | cons productJson data ih =>
    simp only [List.mapM_cons, Option.bind_eq_bind, Option.bind_eq_some_iff, Option.pure_def,
      Option.some.injEq] at h
    obtain ⟨productsModel, hp, rest, hrest, rfl⟩ := h
    simp [addProducts, hp, ih hrest]

theorem onReply_of_products {r : ListReply} (h : r.products = some L) :
    s.onReply r = { s with productList := s.productList ++ L, getProductInProgress := false } := by
  cases r with
  | exception => cases h
  | response statusCode data =>
    simp only [ListReply.products] at h
    split at h
    · rename_i h200
      obtain ⟨elements, rfl, hmap⟩ := Option.bind_eq_some_iff.mp h
      simp [ListState.onReply, h200, addProducts_of_mapM hmap]
    · cases h

theorem Loading.lists (h : Loading L s) : Lists L s := by
  rcases h with ⟨h0, hl, hf⟩ | ⟨h0, -, hf⟩
  · exact ⟨fun _ => ⟨hl, hf⟩, fun hn => (hn h0).elim⟩
  · exact ⟨fun hn => (h0 hn).elim, fun _ => hf⟩

theorem loading_getProductList : Loading L s.getProductList :=
  .inr ⟨Nat.succ_ne_zero _, rfl, rfl⟩

/-- A reply that arrives alone completes the list, and any other reply clears the flag too early. -/
theorem Loading.step {e : ListEvent} (h : Loading L s) (hv : ServedList L s e t)
    (ht : s.step e = some t) :
    (Alone s e t → Loading L t) ∧ (¬ Alone s e t → ¬ Lists L t) := by
  cases e with
  | refreshPressed =>
    obtain rfl := Option.some.inj ht
    exact ⟨fun _ => loading_getProductList, fun hn => (hn fun r hr => by cases hr).elim⟩
  | deleteAnswered statusCode =>
    obtain rfl := Option.some.inj ht
    refine ⟨fun _ => ?_, fun hn => (hn fun r hr => by cases hr).elim⟩
    split
    · exact loading_getProductList
    · exact h
  | reply r =>
    simp only [ListState.step] at ht
    split at ht
    · rename_i hpos
      obtain rfl := Option.some.inj ht
      rw [onReply_of_products (hv r rfl)]
      rcases h with ⟨h0, -⟩ | ⟨-, hl, -⟩
      · omega
      · constructor
        · intro ha
          exact .inl ⟨by simp [ha r rfl], by simp [hl], rfl⟩
        · intro hn hlists
          have hne : s.inFlight - 1 ≠ 0 := fun h1 => hn fun _ _ => by omega
          exact Bool.false_ne_true (hlists.2 hne)
    · cases ht

/--
The list is right in every state of a run, and the progress flag too, exactly when every reply of
the run arrives while no other call is in flight.
-/
theorem along_lists_iff (L : List ProductsModel) (es : List ListEvent)
    (hv : Along ListState.step (ServedList L) .initial es) :
    Along ListState.step (fun _ _ t => Lists L t) .initial es ↔
      Along ListState.step Alone .initial es := by
  apply hv.congr (I := Loading L) loading_getProductList
  intro s e t hs hv ht
  obtain ⟨halone, hnotAlone⟩ := hs.step hv ht
  refine ⟨?_, halone⟩
  constructor
  · intro hl
    by_contra ha
    exact hnotAlone ha hl
  · exact fun ha => (halone ha).lists

def kola : ProductsModel := ⟨"68af", "Kola", 83468236, some "kola.com", 80, 8, 640⟩

def kolaJson : JsonRecord := [("_id", .string "68af"), ("ProductName", .string "Kola"),
  ("ProductCode", .int 83468236), ("Img", .string "kola.com"), ("Qty", .int 80),
  ("UnitPrice", .int 8), ("TotalPrice", .int 640)]

/-- One load after the other. -/
theorem along_lists_iff_sequential :
    let es := [.reply (.response 200 (some [kolaJson])), .refreshPressed,
      .reply (.response 200 (some [kolaJson]))]
    Along ListState.step (fun _ _ t => Lists [kola] t) .initial es ↔
      Along ListState.step Alone .initial es :=
  along_lists_iff [kola] _ (by decide)

/-- A refresh during the first load, and both answers: every product is listed twice. -/
theorem overlapping_not_lists :
    let es := [.refreshPressed, .reply (.response 200 (some [kolaJson])),
      .reply (.response 200 (some [kolaJson]))]
    Along ListState.step (ServedList [kola]) .initial es ∧
      (exec ListState.step .initial es).map ListState.productList = some [kola, kola] ∧
      ¬ Along ListState.step (fun _ _ t => Lists [kola] t) .initial es := by
  decide

end FlutterPractice.Crud
