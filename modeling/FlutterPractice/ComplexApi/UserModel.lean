import FlutterPractice.ComplexApi.Paging
import FlutterPractice.Dart.Json

/-! # The users of a page

`UserModel.fromJson` with the records inside it, and the paged list over it.
One element that is rejected fails the whole page, and a page that fails leaves
the list and its counters alone.
-/

namespace FlutterPractice.ComplexApi

open Dart Json Machine

structure Geo where
  lat : Option String
  lng : Option String
  deriving DecidableEq

structure Address where
  street : Option String
  suite : Option String
  city : Option String
  zipcode : Option String
  geo : Option Geo
  deriving DecidableEq

structure Company where
  name : Option String
  catchPhrase : Option String
  bs : Option String
  deriving DecidableEq

structure UserModel where
  id : Option ℤ
  name : Option String
  username : Option String
  email : Option String
  address : Option Address
  phone : Option String
  website : Option String
  company : Option Company
  deriving DecidableEq

def Geo.fromJson (json : Json) : Option Geo := do
  let fields ← json.asObject
  let lat ← orNull asString (get fields "lat")
  let lng ← orNull asString (get fields "lng")
  return { lat, lng }

def Address.fromJson (json : Json) : Option Address := do
  let fields ← json.asObject
  let street ← orNull asString (get fields "street")
  let suite ← orNull asString (get fields "suite")
  let city ← orNull asString (get fields "city")
  let zipcode ← orNull asString (get fields "zipcode")
  let geo ← orNull Geo.fromJson (get fields "geo")
  return { street, suite, city, zipcode, geo }

def Company.fromJson (json : Json) : Option Company := do
  let fields ← json.asObject
  let name ← orNull asString (get fields "name")
  let catchPhrase ← orNull asString (get fields "catchPhrase")
  let bs ← orNull asString (get fields "bs")
  return { name, catchPhrase, bs }

def UserModel.fromJson (json : Json) : Option UserModel := do
  let fields ← json.asObject
  let id ← orNull asInt (get fields "id")
  let name ← orNull asString (get fields "name")
  let username ← orNull asString (get fields "username")
  let email ← orNull asString (get fields "email")
  let address ← orNull Address.fromJson (get fields "address")
  let phone ← orNull asString (get fields "phone")
  let website ← orNull asString (get fields "website")
  let company ← orNull Company.fromJson (get fields "company")
  return { id, name, username, email, address, phone, website, company }

/-- A response that is no page of users: an exception, a status other than 200, a body that does
not decode to a list, or one with an element that is rejected, wherever it stands. -/
def Fails : Reply Json → Prop
  | .response statusCode jsonData => statusCode ≠ 200 ∨ jsonData = none ∨
    ∃ elements, jsonData = some elements ∧ ∃ json ∈ elements, UserModel.fromJson json = none
  | .exception => True

/-- The failed response changed nothing, and the next fetch asks for the current page. -/
structure Unchanged (s t : State UserModel) : Prop where
  users : t.users = s.users
  currentPage : t.currentPage = s.currentPage
  hasMore : t.hasMore = s.hasMore
  next : t.hasMore = true → (fetchUsers t).inFlight = [s.currentPage]

theorem fetchedUsers_of_fails {r : Reply Json} (h : Fails r) :
    fetchedUsers UserModel.fromJson r = none := by
  cases r with
  | exception => rfl
  | response statusCode jsonData =>
    rcases h with h | rfl | ⟨elements, rfl, json, hjson, hnone⟩
    · exact if_neg h
    · simp [fetchedUsers]
    · rw [fetchedUsers]
      split
      · rw [Option.bind_some, ← Option.not_isSome_iff_eq_none, isSome_mapM]
        intro hall
        have hsome := hall json hjson
        rw [hnone] at hsome
        cases hsome
      · rfl

theorem unchanged_of_fails {s t : State UserModel} {i : ℕ} {r : Reply Json} (h : SingleFlight s)
    (hr : Fails r) (ht : step UserModel.fromJson s (.reply i r) = some t) : Unchanged s t := by
  obtain ⟨hi, ht⟩ := Option.ite_none_right_eq_some.mp ht
  obtain rfl := Option.some.inj ht
  have hnil := (@SingleFlight.onReply _ _ UserModel.fromJson s h i hi r).1
  have hkeeps : onReply UserModel.fromJson { s with inFlight := s.inFlight.eraseIdx i } r =
      { s with inFlight := s.inFlight.eraseIdx i, isLoading := false } := by
    rw [onReply, fetchedUsers_of_fails hr]
  rw [hkeeps] at hnil ⊢
  refine ⟨rfl, rfl, rfl, fun hm => ?_⟩
  have hguard : ¬ (false || !s.hasMore) = true := by simp [show s.hasMore = true from hm]
  rw [fetchUsers, if_neg hguard]
  exact congrArg (· ++ [s.currentPage]) hnil

/--
In every state of every run at most one request is in flight, `_isLoading` says whether one is, and
any response that fails leaves the users and the counters as they are for the next fetch.
-/
theorem singleFlight_and_unchanged {es : List (Event Json)} {s : State UserModel}
    (h : exec (step UserModel.fromJson) initial es = some s) :
    SingleFlight s ∧ ∀ i r t, Fails r →
      step UserModel.fromJson s (.reply i r) = some t → Unchanged s t := by
  have hsingle := exec_invariant singleFlight_initial (fun _ _ _ hs ht => hs.step ht) h
  exact ⟨hsingle, fun i r t hr ht => unchanged_of_fails hsingle hr ht⟩

/-- The name of the second user is a number. -/
def badPage : List Json := [
  .object [("id", .int 1), ("name", .string "Leanne")],
  .object [("id", .int 2), ("name", .int 7)]]

theorem fails_badPage : Fails (.response 200 (some badPage)) :=
  .inr (.inr ⟨badPage, rfl, _, List.mem_cons_of_mem _ List.mem_cons_self, rfl⟩)

theorem singleFlight_and_unchanged_badPage : ∃ s t,
    exec (step UserModel.fromJson) initial [.initialFetch] = some s ∧
      step UserModel.fromJson s (.reply 0 (.response 200 (some badPage))) = some t ∧
      Unchanged s t := by
  have hs : exec (step UserModel.fromJson) initial [.initialFetch] = some (fetchUsers initial) :=
    rfl
  exact ⟨_, _, hs, rfl, (singleFlight_and_unchanged hs).2 0 _ _ fails_badPage rfl⟩

end FlutterPractice.ComplexApi
