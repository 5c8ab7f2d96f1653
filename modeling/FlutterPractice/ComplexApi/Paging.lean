import Mathlib.Data.List.Nodup
import Mathlib.Data.List.TakeDrop
import FlutterPractice.Machine.Run

/-! # The paged user list

The state of `ComplexApi` with the requests it has sent and not seen answered.
A reply may arrive at any later time, in any order, and a refresh resets the
list and the page counter without cancelling a request that is in flight.
-/

namespace FlutterPractice.ComplexApi

open Machine

/-- The fields of `_ComplexApiState`, and the page numbers of the requests in flight. -/
structure State (User : Type*) where
  users : List User
  currentPage : ℕ
  isLoading : Bool
  hasMore : Bool
  inFlight : List ℕ
  deriving DecidableEq

def pageSize : ℕ := 5

/-- How a request ends: a response with the decoded elements of its body, if it decodes to a
list, or an exception of `http.get`. -/
inductive Reply (Json : Type*) where
  | response (statusCode : ℕ) (jsonData : Option (List Json))
  | exception

inductive Event (Json : Type*) where
  | initialFetch
  | scrolledToBottom
  | refresh
  | reply (i : ℕ) (r : Reply Json)

variable {User Json : Type*}

def initial : State User := ⟨[], 1, false, true, []⟩

/-- `_fetchUsers` up to the call of `http.get`. -/
def fetchUsers (s : State User) : State User :=
  if s.isLoading || !s.hasMore then s
  else { s with isLoading := true, inFlight := s.inFlight ++ [s.currentPage] }

def refreshData (s : State User) : State User :=
  fetchUsers { s with users := [], currentPage := 1, hasMore := true }

/-- The users of a reply; `none` where `_fetchUsers` enters its `catch` block. -/
def fetchedUsers (fromJson : Json → Option User) : Reply Json → Option (List User)
  | .response statusCode jsonData =>
    if statusCode = 200 then jsonData.bind fun elements => elements.mapM fromJson else none
  | .exception => none

/-- `_fetchUsers` from the answer of `http.get` on. -/
def onReply (fromJson : Json → Option User) (s : State User) (r : Reply Json) : State User :=
  match fetchedUsers fromJson r with
  | some fetched =>
    { s with
      users := s.users ++ fetched
      currentPage := s.currentPage + 1
      hasMore := fetched.length == pageSize
      isLoading := false }
  | none => { s with isLoading := false }

def step (fromJson : Json → Option User) (s : State User) : Event Json → Option (State User)
  | .initialFetch => some (fetchUsers s)
  | .scrolledToBottom => some (if s.hasMore && !s.isLoading then fetchUsers s else s)
  | .refresh => some (refreshData s)
  | .reply i r =>
    if i < s.inFlight.length then
      some (onReply fromJson { s with inFlight := s.inFlight.eraseIdx i } r)
    else none

def page (L : List User) (p : ℕ) : List User := (L.drop ((p - 1) * pageSize)).take pageSize

def delivered (fromJson : Json → Option User) (s : State User) :
    Event Json → Option (ℕ × List User)
  | .reply i r => s.inFlight[i]?.bind fun p => (fetchedUsers fromJson r).map fun us => (p, us)
  | _ => none

/-- Every reply that delivers users delivers the page its request asked for. -/
def Served (fromJson : Json → Option User) (L : List User) (s : State User) (e : Event Json)
    (_ : State User) : Prop :=
  ∀ d ∈ delivered fromJson s e, d.2 = page L d.1

/-- A reply that delivers users answers the page that `_currentPage` names when it arrives. -/
def InStep (fromJson : Json → Option User) (s : State User) (e : Event Json)
    (_ : State User) : Prop :=
  ∀ d ∈ delivered fromJson s e, d.1 = s.currentPage

/-- With no request in flight the list is the pages before `_currentPage`, and all of `L` when
`_hasMore` is false. -/
def Agrees (L : List User) (s : State User) : Prop :=
  s.inFlight = [] →
    s.users = L.take ((s.currentPage - 1) * pageSize) ∧ (s.hasMore = false → s.users = L)

instance [DecidableEq User] (fromJson : Json → Option User) (L : List User) (s t : State User)
    (e : Event Json) : Decidable (Served fromJson L s e t) :=
  inferInstanceAs (Decidable (∀ _ ∈ _, _))

instance [DecidableEq User] (L : List User) (s : State User) : Decidable (Agrees L s) :=
  inferInstanceAs (Decidable (_ → _))

/-- What every state satisfies, whatever a refresh has overtaken. -/
structure Pending (L : List User) (s : State User) : Prop where
  single : s.inFlight = [] ∧ s.isLoading = false ∨
    ∃ p, s.inFlight = [p] ∧ s.isLoading = true ∧ s.hasMore = true ∧ 1 ≤ p ∧
      (p - 1) * pageSize ≤ L.length ∧ (p = s.currentPage ∨ s.currentPage = 1)
  prefix_users : s.users = L.take ((s.currentPage - 1) * pageSize)
  page_pos : 1 ≤ s.currentPage
  more : s.hasMore = true → (s.currentPage - 1) * pageSize ≤ L.length
  done : s.hasMore = false → s.users = L

variable {fromJson : Json → Option User} {L : List User} {s t : State User}

theorem step_cases {e : Event Json} (h : step fromJson s e = some t) :
    t = s ∨ t = fetchUsers s ∨ t = refreshData s ∨
      ∃ i r, e = .reply i r ∧ i < s.inFlight.length ∧
        t = onReply fromJson { s with inFlight := s.inFlight.eraseIdx i } r := by
  cases e with
  | initialFetch => exact .inr (.inl (Option.some.inj h).symm)
  | scrolledToBottom =>
    obtain rfl := Option.some.inj h
    split
    · exact .inr (.inl rfl)
    · exact .inl rfl
  | refresh => exact .inr (.inr (.inl (Option.some.inj h).symm))
  | reply i r =>
    obtain ⟨hi, h⟩ := Option.ite_none_right_eq_some.mp h
    exact .inr (.inr (.inr ⟨i, r, rfl, hi, (Option.some.inj h).symm⟩))

theorem delivered_eq_some {e : Event Json} {p : ℕ} {us : List User}
    (h : delivered fromJson s e = some (p, us)) :
    ∃ i r, e = .reply i r ∧ s.inFlight[i]? = some p ∧ fetchedUsers fromJson r = some us := by
  cases e with
  | reply i r =>
    obtain ⟨q, hq, h⟩ := Option.bind_eq_some_iff.mp h
    obtain ⟨vs, hvs, h⟩ := Option.map_eq_some_iff.mp h
    obtain ⟨rfl, rfl⟩ := Prod.mk.inj h
    exact ⟨i, r, rfl, hq, hvs⟩
  | _ => cases h

theorem Pending.agrees (h : Pending L s) : Agrees L s :=
  fun _ => ⟨h.prefix_users, h.done⟩

theorem pending_initial : Pending L initial where
  single := Or.inl ⟨rfl, rfl⟩
  prefix_users := by simp [initial]
  page_pos := Nat.le_refl 1
  more := by simp [initial]
  done := by simp [initial]

theorem Pending.fetchUsers (h : Pending L s) : Pending L (fetchUsers s) := by
  unfold ComplexApi.fetchUsers
  split
  · exact h
  · rename_i hg
    simp only [Bool.or_eq_true, Bool.not_eq_true', not_or, Bool.not_eq_true,
      Bool.not_eq_false] at hg
    obtain ⟨hl, hm⟩ := hg
    have he : s.inFlight = [] := by
      rcases h.single with ⟨he, _⟩ | ⟨p, _, hl', _⟩
      · exact he
      · simp [hl] at hl'
    refine { h with single := Or.inr ⟨s.currentPage, ?_, rfl, hm, h.page_pos, h.more hm, ?_⟩ }
    · simp [he]
    · exact Or.inl rfl

/-- A refresh keeps the request in flight but drops the counter it was sent for. -/
theorem Pending.reset (h : Pending L s) :
    Pending L { s with users := [], currentPage := 1, hasMore := true } where
  single := by
    rcases h.single with he | ⟨p, hp, hl, _, h1, hle, _⟩
    · exact Or.inl he
    · exact Or.inr ⟨p, hp, hl, rfl, h1, hle, Or.inr rfl⟩
  prefix_users := by simp
  page_pos := Nat.le_refl 1
  more := by simp
  done := by simp

theorem Pending.refreshData (h : Pending L s) : Pending L (refreshData s) := h.reset.fetchUsers

theorem Pending.inFlight_eq (h : Pending L s) {i : ℕ} (hi : i < s.inFlight.length) :
    ∃ p, i = 0 ∧ s.inFlight = [p] ∧ s.hasMore = true ∧ 1 ≤ p ∧ (p - 1) * pageSize ≤ L.length ∧
      (p = s.currentPage ∨ s.currentPage = 1) := by
  rcases h.single with ⟨he, _⟩ | ⟨p, hp, _, hm, h1, hle, hc⟩
  · simp [he] at hi
  · exact ⟨p, by simp [hp] at hi; omega, hp, hm, h1, hle, hc⟩

theorem take_append_page (L : List User) {c : ℕ} (hc : 1 ≤ c) :
    L.take ((c - 1) * pageSize) ++ page L c = L.take (c * pageSize) := by
  have he : c * pageSize = (c - 1) * pageSize + pageSize := by
    obtain ⟨k, rfl⟩ := Nat.exists_eq_add_of_le' hc
    simp [Nat.add_mul]
  rw [he, List.take_add, page]

theorem length_page (L : List User) (c : ℕ) :
    (page L c).length = min pageSize (L.length - (c - 1) * pageSize) := by
  simp [page]

theorem take_eq_self_of_page (L : List User) {c : ℕ} (hc : 1 ≤ c)
    (h : (page L c).length ≠ pageSize) : L.take (c * pageSize) = L := by
  apply List.take_of_length_le
  rw [length_page] at h
  obtain ⟨k, rfl⟩ := Nat.exists_eq_add_of_le' hc
  simp only [Nat.add_sub_cancel, pageSize] at *
  omega

theorem page_full (L : List User) {c : ℕ} (hc : 1 ≤ c)
    (h : (page L c).length = pageSize) : c * pageSize ≤ L.length := by
  rw [length_page] at h
  obtain ⟨k, rfl⟩ := Nat.exists_eq_add_of_le' hc
  simp only [Nat.add_sub_cancel, pageSize] at *
  omega

theorem Pending.append_page (h : Pending L s) :
    Pending L { s with
      users := s.users ++ page L s.currentPage
      currentPage := s.currentPage + 1
      hasMore := (page L s.currentPage).length == pageSize
      isLoading := false
      inFlight := [] } where
  single := Or.inl ⟨rfl, rfl⟩
  prefix_users := by
    rw [h.prefix_users]
    exact take_append_page L h.page_pos
  page_pos := Nat.le_add_left ..
  more hm := page_full L h.page_pos (by simpa using hm)
  done hm := by
    show s.users ++ page L s.currentPage = L
    rw [h.prefix_users, take_append_page L h.page_pos]
    exact take_eq_self_of_page L h.page_pos (by simpa using hm)

theorem Pending.onReply_none (h : Pending L s) {r : Reply Json}
    (hr : fetchedUsers fromJson r = none) :
    Pending L (onReply fromJson { s with inFlight := [] } r) := by
  simp only [onReply, hr]
  exact { h with single := Or.inl ⟨rfl, rfl⟩ }

theorem Pending.step (h : Pending L s) {e : Event Json} (hv : Served fromJson L s e t)
    (hc : InStep fromJson s e t) (hst : step fromJson s e = some t) : Pending L t := by
  obtain rfl | rfl | rfl | ⟨i, r, rfl, hi, rfl⟩ := step_cases hst
  · exact h
  · exact h.fetchUsers
  · exact h.refreshData
  · obtain ⟨p, rfl, hp, _⟩ := h.inFlight_eq hi
    have hp' : s.inFlight[0]? = some p := by simp [hp]
    have hnil : s.inFlight.eraseIdx 0 = [] := by simp [hp]
    rw [hnil]
    cases hr : fetchedUsers fromJson r with
    | none => exact h.onReply_none hr
    | some us =>
      have hd : (p, us) ∈ delivered fromJson s (.reply 0 r) := by simp [delivered, hp', hr]
      obtain rfl : us = page L p := hv _ hd
      obtain rfl : p = s.currentPage := hc _ hd
      simp only [onReply, hr]
      exact h.append_page

/-- At most one request is in flight, and `_isLoading` says whether one is. -/
structure SingleFlight (s : State User) : Prop where
  length_le : s.inFlight.length ≤ 1
  isLoading : s.isLoading = true ↔ s.inFlight ≠ []

theorem singleFlight_initial : SingleFlight (initial : State User) :=
  ⟨Nat.zero_le 1, by simp [initial]⟩

theorem SingleFlight.fetchUsers (h : SingleFlight s) : SingleFlight (fetchUsers s) := by
  unfold ComplexApi.fetchUsers
  split
  · exact h
  · rename_i hg
    have hl : ¬ s.isLoading = true := fun hl => hg (by simp [hl])
    have he : s.inFlight = [] := not_not.mp fun hne => hl (h.isLoading.mpr hne)
    exact ⟨by simp [he], by simp⟩

theorem SingleFlight.refreshData (h : SingleFlight s) : SingleFlight (refreshData s) :=
  SingleFlight.fetchUsers ⟨h.length_le, h.isLoading⟩

theorem SingleFlight.onReply (h : SingleFlight s) {i : ℕ} (hi : i < s.inFlight.length)
    (r : Reply Json) :
    (onReply fromJson { s with inFlight := s.inFlight.eraseIdx i } r).inFlight = [] ∧
      (onReply fromJson { s with inFlight := s.inFlight.eraseIdx i } r).isLoading = false := by
  have hnil : s.inFlight.eraseIdx i = [] := by
    have hle := h.length_le
    apply List.length_eq_zero_iff.mp
    rw [List.length_eraseIdx_of_lt hi]
    omega
  unfold ComplexApi.onReply
  split
  · exact ⟨hnil, rfl⟩
  · exact ⟨hnil, rfl⟩

theorem SingleFlight.step (h : SingleFlight s) {e : Event Json}
    (hst : step fromJson s e = some t) : SingleFlight t := by
  obtain rfl | rfl | rfl | ⟨i, r, rfl, hi, rfl⟩ := step_cases hst
  · exact h
  · exact h.fetchUsers
  · exact h.refreshData
  · obtain ⟨hnil, hl⟩ := @SingleFlight.onReply _ _ fromJson s h i hi r
    exact ⟨by simp [hnil], by simp [hnil, hl]⟩

theorem page_ne_first (hL : L.Nodup) {p : ℕ} (hp : 1 < p) (hle : (p - 1) * pageSize ≤ L.length) :
    page L p ≠ L.take pageSize := by
  intro he
  have hpos : pageSize ≤ (p - 1) * pageSize := Nat.le_mul_of_pos_left _ (by omega)
  have h0 : 0 < L.length := by simp only [pageSize] at *; omega
  have hhead := congrArg (fun l => l[0]?) he
  simp only [page, List.getElem?_take, List.getElem?_drop, pageSize] at hhead
  simp only [Nat.zero_lt_succ, if_true, Nat.add_zero] at hhead
  rw [List.getElem?_eq_getElem h0] at hhead
  obtain ⟨hlt, hget⟩ := List.getElem?_eq_some_iff.mp hhead
  have hindex := (hL.getElem_inj_iff).mp hget
  simp only [pageSize] at hpos
  omega

/-- A reply that is out of step with the counter leaves a wrong list. -/
theorem Pending.not_agrees (h : Pending L s) (hL : L.Nodup) {e : Event Json}
    (hv : Served fromJson L s e t) (hst : ComplexApi.step fromJson s e = some t)
    (hc : ¬ InStep fromJson s e t) : ¬ Agrees L t := by
  simp only [InStep, not_forall] at hc
  obtain ⟨⟨p, us⟩, hd, hne⟩ := hc
  obtain ⟨i, r, rfl, hp, hus⟩ := delivered_eq_some hd
  have hi := (List.getElem?_eq_some_iff.mp hp).1
  obtain ⟨q, rfl, hq, hm, h1, hle, hcur⟩ := h.inFlight_eq hi
  obtain rfl : q = p := by simpa [hq] using hp
  have hcur : s.currentPage = 1 := hcur.resolve_left hne
  obtain rfl : us = page L q := hv _ hd
  simp only [ComplexApi.step, hi, if_true, onReply, hus] at hst
  obtain rfl := Option.some.inj hst
  intro ha
  have hu := (ha (by simp [hq])).1
  rw [h.prefix_users, hcur] at hu
  simp only [Nat.sub_self, Nat.zero_mul, List.take_zero, List.nil_append, Nat.add_sub_cancel,
    Nat.one_mul] at hu
  exact page_ne_first hL (by omega) hle hu

/--
In every run in which each delivered page is the one `_currentPage` names at that moment, the list
agrees with the server in every state. For distinct users no other run does.
-/
theorem along_agrees (fromJson : Json → Option User) (L : List User) (es : List (Event Json))
    (hv : Along (step fromJson) (Served fromJson L) initial es) :
    (Along (step fromJson) (InStep fromJson) initial es →
      Along (step fromJson) (fun _ _ t => Agrees L t) initial es) ∧
    (L.Nodup → Along (step fromJson) (fun _ _ t => Agrees L t) initial es →
      Along (step fromJson) (InStep fromJson) initial es) := by
  constructor
  · intro hc
    apply (hv.and hc).of_invariant (I := Pending L) pending_initial
    intro s e t hs ⟨hv, hc⟩ ht
    have hi := hs.step hv hc ht
    exact ⟨hi.agrees, hi⟩
  · intro hL ha
    apply (hv.and ha).of_invariant (I := Pending L) pending_initial
    intro s e t hs ⟨hv, ha⟩ ht
    have hc : InStep fromJson s e t := by
      by_contra hc
      exact hs.not_agrees hL hv ht hc ha
    exact ⟨hc, hs.step hv hc ht⟩

/-- Twelve users: page 1 arrives, page 2 is asked for, a refresh resets the counter, and page 2
fails. -/
theorem along_agrees_of_failed :
    let es := [.initialFetch, .reply 0 (.response 200 (some [0, 1, 2, 3, 4])), .scrolledToBottom,
      .refresh, .reply 0 .exception]
    Along (step some) (InStep some) initial es →
      Along (step some) (fun _ _ t => Agrees (List.range 12) t) initial es :=
  (along_agrees some (List.range 12) _ (by decide)).1

/-- Twelve users: a refresh while page 2 is in flight, whose answer then lands as page 1. -/
theorem overtaken_not_agrees :
    let es := [.initialFetch, .reply 0 (.response 200 (some [0, 1, 2, 3, 4])), .scrolledToBottom,
      .refresh, .reply 0 (.response 200 (some [5, 6, 7, 8, 9]))]
    Along (step some) (Served some (List.range 12)) initial es ∧
      ¬ Along (step some) (fun _ _ t => Agrees (List.range 12) t) initial es := by
  decide

end FlutterPractice.ComplexApi
