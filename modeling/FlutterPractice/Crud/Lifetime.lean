import FlutterPractice.Crud.Progress
import FlutterPractice.Machine.Lifetime

/-! # The lifetime of the product list

The callbacks of `CrudAppScreen` with their calls of `setState`. A load that is
answered ends in `setState` unless it throws in front of it. A delete that is
answered with 200 refreshes the list of the page that it was started on.
-/

namespace FlutterPractice.Crud

open Dart Json Machine Lifetime

/-- The list, and the `_deleteProduct` calls of its items that await their answer. -/
structure Screen where
  list : ListState
  deleting : ℕ
  deriving DecidableEq

inductive ScreenEvent where
  | refreshPressed
  | deletePressed
  | deleteAnswered (reply : HttpReply)
  | reply (reply : HttpReply)

namespace Screen

def getProductList : Callback Screen :=
  .andThen (.modify fun s =>
    { s with list := { s.list with productList := [], getProductInProgress := true } }) <|
  .andThen (.setState id) <|
    .modify fun s => { s with list := { s.list with inFlight := s.list.inFlight + 1 } }

/-- The loop over `data`. -/
def addProducts : List Json → Callback Screen
  | [] => .skip
  | productJson :: data =>
    match productJson.asObject.bind ProductsModel.ofObject with
    | some productsModel =>
      .andThen (.modify fun s =>
        { s with list := { s.list with productList := s.list.productList ++ [productsModel] } })
        (addProducts data)
    | none => .throw

/-- The elements of `data`, if the body is an object with a list there. -/
def dataOf (json : Option Json) : Option (List Json) := do
  let decodedJson ← json
  (← decodedJson.index "data").asArray

/-- `_getProductList` from the answer of `get` on. -/
def onReply : HttpReply → Callback Screen
  | .exception => .throw
  | .response statusCode body =>
    match body.asText with
    | none => .throw
    | some json =>
      .andThen
        (if statusCode = 200 then
          match dataOf json with
          | some data => addProducts data
          | none => .throw
        else .skip) <|
      .andThen (.modify fun s => { s with list := { s.list with getProductInProgress := false } })
        (.setState id)

/-- What `_deleteProduct` does to the page once its request is answered. -/
def onDeleted : HttpReply → Callback Screen
  | .response statusCode body =>
    if body.asText.isSome ∧ statusCode = 200 then getProductList else .skip
  | .exception => .skip

/-- `initState` has started the first load. -/
def initial : Screen := (getProductList false ⟨⟨[], false, 0⟩, 0⟩).fields

/-- `dispose` is the inherited one. -/
def widget : Widget Screen ScreenEvent where
  onScreen
    | .refreshPressed | .deletePressed => true
    | .deleteAnswered _ | .reply _ => false
  callback s
    | .refreshPressed => some getProductList
    | .deletePressed =>
      if s.list.productList ≠ [] ∧ s.list.getProductInProgress = false then
        some (.modify fun s => { s with deleting := s.deleting + 1 })
      else none
    | .deleteAnswered reply =>
      if 0 < s.deleting then
        some (.andThen (.modify fun s => { s with deleting := s.deleting - 1 }) (onDeleted reply))
      else none
    | .reply reply =>
      if 0 < s.list.inFlight then
        some (.andThen (.modify fun s =>
          { s with list := { s.list with inFlight := s.list.inFlight - 1 } }) (onReply reply))
      else none
  dispose := .skip

/-- The answers of loads that do not throw, and those of deletes with the status 200 and a text as
their body. -/
def Late (_ : Screen) : ScreenEvent → Prop
  | .reply reply => ListReadable reply
  | .deleteAnswered reply => DeleteReadable reply ∧ ∃ body, reply = .response 200 body
  | _ => False

variable {s : Screen} {p : Page Screen} {es : List (Lifetime.Event ScreenEvent)}

theorem addProducts_of_some {data : List Json} {products : List ProductsModel}
    (h : (data.mapM fun productJson => productJson.asObject.bind ProductsModel.ofObject) =
      some products) (disposed : Bool) (s : Screen) :
    addProducts data disposed s =
      ⟨{ s with list := { s.list with productList := s.list.productList ++ products } },
        false, false⟩ := by
  induction data generalizing products s with
  | nil =>
    obtain rfl : [] = products := Option.some.inj h
    simp [addProducts]
  | cons productJson data ih =>
    simp only [List.mapM_cons, Option.bind_eq_bind, Option.bind_eq_some_iff, Option.pure_def,
      Option.some.injEq] at h
    obtain ⟨product, hproduct, rest, hrest, rfl⟩ := h
    rw [addProducts, Option.bind_eq_some_iff.mpr hproduct]
    simp [ih hrest]

theorem addProducts_of_none {data : List Json}
    (h : (data.mapM fun productJson => productJson.asObject.bind ProductsModel.ofObject) = none)
    (disposed : Bool) (s : Screen) :
    (addProducts data disposed s).threw = true ∧ (addProducts data disposed s).called = false := by
  induction data generalizing s with
  | nil => cases h
  | cons productJson data ih =>
    rw [addProducts]
    rw [List.mapM_cons] at h
    cases hproduct : productJson.asObject.bind ProductsModel.ofObject with
    | none => exact ⟨rfl, rfl⟩
    | some product =>
      simp only [hproduct, Option.bind_eq_bind, Option.bind_some, Option.bind_eq_none_iff] at h
      refine ih ?_ _
      cases hrest : data.mapM fun productJson =>
          productJson.asObject.bind ProductsModel.ofObject with
      | none => rfl
      | some rest => cases h rest hrest

theorem listAnswered_response (statusCode : ℕ) (body : Body) :
    listAnswered (.response statusCode body) = body.asText.bind fun json =>
      if statusCode = 200 then (dataOf json).bind fun data =>
        data.mapM fun productJson => productJson.asObject.bind ProductsModel.ofObject
      else some [] := by
  simp only [listAnswered, dataOf, Option.bind_eq_bind, Option.bind_assoc, Option.pure_def]

theorem onReply_of_some {reply : HttpReply} {products : List ProductsModel}
    (h : listAnswered reply = some products) (disposed : Bool) (s : Screen) :
    onReply reply disposed s = Callback.setState id disposed
      { s with list := { s.list with
        productList := s.list.productList ++ products
        getProductInProgress := false } } := by
  cases reply with
  | exception => cases h
  | response statusCode body =>
    rw [listAnswered_response] at h
    obtain ⟨json, hjson, h⟩ := Option.bind_eq_some_iff.mp h
    simp only [onReply, hjson]
    by_cases h200 : statusCode = 200
    · rw [if_pos h200] at h ⊢
      obtain ⟨data, hdata, hproducts⟩ := Option.bind_eq_some_iff.mp h
      have hadd := addProducts_of_some hproducts disposed s
      simp only [hdata]
      rw [Callback.andThen_of_returned (by rw [hadd]), hadd]
      simp
    · rw [if_neg h200] at h ⊢
      obtain rfl := Option.some.inj h
      rw [Callback.andThen_of_returned rfl]
      simp

theorem called_of_none {reply : HttpReply} (h : listAnswered reply = none) (disposed : Bool)
    (s : Screen) : (onReply reply disposed s).called = false := by
  cases reply with
  | exception => rfl
  | response statusCode body =>
    rw [listAnswered_response] at h
    cases hjson : body.asText with
    | none => simp only [onReply, hjson, Callback.throw_apply]
    | some json =>
      rw [hjson, Option.bind_some] at h
      by_cases h200 : statusCode = 200
      · rw [if_pos h200] at h
        simp only [onReply, hjson, if_pos h200]
        cases hdata : dataOf json with
        | none => rfl
        | some data =>
          rw [hdata, Option.bind_some] at h
          obtain ⟨hthrew, hcalled⟩ := addProducts_of_none h disposed s
          simp only
          rw [Callback.andThen_of_threw hthrew, hcalled]
      · rw [if_neg h200] at h
        cases h

def flatJson (productJson : JsonRecord) : Json :=
  .object (productJson.map fun field => (field.1, field.2.toJson))

def httpReply : ListReply → HttpReply
  | .response statusCode data =>
    .response statusCode (.text (data.map fun elements =>
      .object [("data", .array (elements.map flatJson))]))
  | .exception => .exception

theorem addProducts_flat (data : List JsonRecord) (disposed : Bool) (s : Screen) :
    addProducts (data.map flatJson) disposed s =
      ⟨{ s with list := { s.list with
          productList := (ListState.addProducts s.list.productList data).1 } },
        false, !(ListState.addProducts s.list.productList data).2⟩ := by
  induction data generalizing s with
  | nil => rfl
  | cons productJson data ih =>
    have hjson : (flatJson productJson).asObject.bind ProductsModel.ofObject =
        ProductsModel.fromJson productJson := ofObject_toJson productJson
    rw [List.map_cons, addProducts, hjson, ListState.addProducts]
    cases ProductsModel.fromJson productJson with
    | none => rfl
    | some productsModel => exact ih _

theorem onReply_mounted (r : ListReply) (s : Screen) :
    (onReply (httpReply r) false s).fields = { s with list := s.list.onReply r } := by
  cases r with
  | exception => rfl
  | response statusCode data =>
    by_cases h200 : statusCode = 200
    · cases data with
      | none =>
        simp only [onReply, httpReply, Body.asText, Option.map_none, ListState.onReply, if_pos h200]
        rfl
      | some elements =>
        have hadd := addProducts_flat elements false s
        have hdata : dataOf (some (.object [("data", .array (elements.map flatJson))])) =
            some (elements.map flatJson) := rfl
        simp only [onReply, httpReply, Body.asText, Option.map_some, ListState.onReply, if_pos h200,
          hdata]
        rcases hloop : ListState.addProducts s.list.productList elements with ⟨products, _ | _⟩
        · rw [hloop] at hadd
          rw [Callback.andThen_of_threw (by rw [hadd]; rfl), hadd]
        · rw [hloop] at hadd
          rw [Callback.andThen_of_returned (by rw [hadd]; rfl), hadd]
          rfl
    · simp only [onReply, httpReply, Body.asText, ListState.onReply, if_neg h200]
      rfl

/-- The events of the list, where a delete is answered with a text. -/
def toEvent : ListEvent → ScreenEvent
  | .refreshPressed => .refreshPressed
  | .deleteAnswered statusCode => .deleteAnswered (.response statusCode (.text none))
  | .reply r => .reply (httpReply r)

theorem step_mounted (hdelete : 0 < s.deleting) (e : ListEvent) :
    (widget.step ⟨s, false⟩ (.callback (toEvent e))).map (fun p => p.fields.list) =
      s.list.step e := by
  rw [Widget.step_mounted]
  cases e with
  | refreshPressed => rfl
  | deleteAnswered statusCode =>
    simp only [widget, toEvent, if_pos hdelete, Option.map_some, Callback.modify_andThen, onDeleted,
      Body.asText, Option.isSome_some, true_and, ListState.step]
    split <;> rfl
  | reply r =>
    simp only [widget, toEvent, ListState.step]
    split
    · simp only [Option.map_some, Callback.modify_andThen, onReply_mounted]
    · rfl

theorem called_onReply_iff (reply : HttpReply) (s : Screen) :
    (onReply reply true s).called = true ↔ ListReadable reply := by
  rw [← listAnswered_isSome]
  cases h : listAnswered reply with
  | none => simp [called_of_none h]
  | some products => simp [onReply_of_some h]

theorem called_onDeleted_iff (reply : HttpReply) (s : Screen) :
    (onDeleted reply true s).called = true ↔
      DeleteReadable reply ∧ ∃ body, reply = .response 200 body := by
  rcases reply with ⟨statusCode, _ | json⟩ | _
  · simp [onDeleted, DeleteReadable, Body.asText]
  · by_cases h200 : statusCode = 200
    · simp [onDeleted, DeleteReadable, Body.asText, h200, getProductList]
    · simp [onDeleted, DeleteReadable, Body.asText, h200]
  · simp [onDeleted, DeleteReadable]

theorem along_spares_iff : Along widget.step widget.Spares p es ↔
    Along widget.step (Avoids Late) p es := by
  apply Widget.along_spares_iff
  intro s e c hscreen hc
  cases e with
  | reply reply =>
    obtain ⟨-, hc⟩ := Option.ite_none_right_eq_some.mp hc
    obtain rfl := Option.some.inj hc
    rw [Callback.modify_andThen]
    exact called_onReply_iff reply _
  | deleteAnswered reply =>
    obtain ⟨-, hc⟩ := Option.ite_none_right_eq_some.mp hc
    obtain rfl := Option.some.inj hc
    rw [Callback.modify_andThen]
    exact called_onDeleted_iff reply _
  | refreshPressed | deletePressed => cases hscreen

theorem forall_along_spares_iff (hp : p.disposed = true) :
    (∀ es, Along widget.step widget.Spares p es) ↔
      p.fields.list.inFlight = 0 ∧ p.fields.deleting = 0 := by
  apply Widget.forall_along_spares_iff (fun s => s.list.inFlight = 0 ∧ s.deleting = 0) hp
  · rintro s e c ⟨hlist, hdelete⟩ hscreen hc
    cases e with
    | reply reply =>
      obtain ⟨hpos, -⟩ := Option.ite_none_right_eq_some.mp hc
      omega
    | deleteAnswered reply =>
      obtain ⟨hpos, -⟩ := Option.ite_none_right_eq_some.mp hc
      omega
    | refreshPressed | deletePressed => cases hscreen
  · intro s hs
    by_cases hlist : s.list.inFlight = 0
    · have hpos : 0 < s.deleting := by omega
      exact ⟨[.callback (.deleteAnswered (.response 200 (.text none)))],
        Widget.not_along_singleton rfl (if_pos hpos) rfl⟩
    · have hpos : 0 < s.list.inFlight := by omega
      exact ⟨[.callback (.reply (.response 404 (.text none)))],
        Widget.not_along_singleton rfl (if_pos hpos) rfl⟩

end Screen

end FlutterPractice.Crud
