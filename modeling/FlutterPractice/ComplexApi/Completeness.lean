import FlutterPractice.ComplexApi.Paging

/-! # All of the user list

Where no refresh overtakes a request, the pages come one after the other, each
once, until the first that is not full. Then the list is complete, and it has
taken as many requests as the server's list has pages.
-/

namespace FlutterPractice.ComplexApi

open Machine

variable {User Json : Type*}

/-- What the list is made of: pages that come, and refreshes that discard them. -/
inductive Mark (User : Type*) where
  | page (p : ℕ) (users : List User)
  | refreshed

def marks (fromJson : Json → Option User) (s : State User) (e : Event Json) : List (Mark User) :=
  match e with
  | .refresh => [.refreshed]
  | e => ((delivered fromJson s e).map fun d => .page d.1 d.2).toList

/-- The pages that have come since the last refresh. -/
def collect (pages : List (ℕ × List User)) : Mark User → List (ℕ × List User)
  | .page p users => pages ++ [(p, users)]
  | .refreshed => []

/-- The pages up to the first that is not full. -/
def pageCount (L : List User) : ℕ := L.length / pageSize + 1

def firstPages (L : List User) (n : ℕ) : List (ℕ × List User) :=
  (List.range n).map fun i => (i + 1, page L (i + 1))

/-- Scrolling to the bottom again and again, each time with the answer of the server. -/
def rounds (body : ℕ → List Json) (p k : ℕ) : List (Event Json) :=
  (List.range' p k).flatMap fun p =>
    [.scrolledToBottom, .reply 0 (.response 200 (some (body p)))]

instance (fromJson : Json → Option User) (s t : State User) (e : Event Json) :
    Decidable (InStep fromJson s e t) :=
  inferInstanceAs (Decidable (∀ _ ∈ _, _))

structure Holds (L : List User) (s : State User) (n : ℕ) : Prop where
  users : s.users = L.take (n * pageSize)
  currentPage : s.currentPage = n + 1
  le : n ≤ pageCount L
  hasMore : s.hasMore = false ↔ n = pageCount L
  inFlight : s.inFlight = [] ∨ ∃ p, s.inFlight = [p] ∧ 1 ≤ p ∧ p ≤ pageCount L

structure Collected (L : List User) (s : State User) (pages : List (ℕ × List User)) : Prop where
  pending : Pending L s
  pages : pages = firstPages L (s.currentPage - 1)
  last : s.hasMore = false → s.currentPage = pageCount L + 1

variable {fromJson : Json → Option User} {L : List User} {s t : State User}
  {pages : List (ℕ × List User)}

theorem Collected.holds (h : Collected L s pages) : Holds L s (s.currentPage - 1) where
  users := h.pending.prefix_users
  currentPage := by
    have hpos := h.pending.page_pos
    omega
  le := by
    cases hm : s.hasMore with
    | false =>
      have hlast := h.last hm
      omega
    | true =>
      have hmore := h.pending.more hm
      rw [pageCount]
      have hle : s.currentPage - 1 ≤ L.length / pageSize :=
        (Nat.le_div_iff_mul_le (by decide)).mpr hmore
      omega
  hasMore := by
    constructor
    · intro hm
      have hlast := h.last hm
      omega
    · intro hn
      by_contra hm
      have hmore := h.pending.more (by simpa using hm)
      have hle : s.currentPage - 1 ≤ L.length / pageSize :=
        (Nat.le_div_iff_mul_le (by decide)).mpr hmore
      rw [pageCount] at hn
      omega
  inFlight := by
    rcases h.pending.single with ⟨he, -⟩ | ⟨p, hp, -, -, hpos, hle, -⟩
    · exact .inl he
    · have hle : p - 1 ≤ L.length / pageSize := (Nat.le_div_iff_mul_le (by decide)).mpr hle
      refine .inr ⟨p, hp, hpos, ?_⟩
      rw [pageCount]
      omega

theorem collected_initial : Collected L (initial : State User) [] where
  pending := pending_initial
  pages := rfl
  last := by simp [initial]

theorem Collected.fetchUsers (h : Collected L s pages) : Collected L (fetchUsers s) pages := by
  refine ⟨h.pending.fetchUsers, ?_, ?_⟩
  · rw [ComplexApi.fetchUsers]
    split
    · exact h.pages
    · exact h.pages
  · rw [ComplexApi.fetchUsers]
    split
    · exact h.last
    · exact h.last

theorem Collected.refreshData (h : Pending L s) : Collected L (refreshData s) [] :=
  Collected.fetchUsers ⟨h.reset, rfl, by simp⟩

theorem firstPages_succ (n : ℕ) :
    firstPages L (n + 1) = firstPages L n ++ [(n + 1, page L (n + 1))] := by
  rw [firstPages, List.range_succ, List.map_append]
  rfl

theorem eq_pageCount_of_page {n : ℕ} (hn : n * pageSize ≤ L.length)
    (h : (page L (n + 1)).length ≠ pageSize) : n + 1 = pageCount L := by
  rw [length_page] at h
  simp only [pageCount, pageSize, Nat.add_sub_cancel] at *
  omega

theorem Collected.append_page (h : Collected L s pages) (hm : s.hasMore = true) :
    Collected L { s with
      users := s.users ++ page L s.currentPage
      currentPage := s.currentPage + 1
      hasMore := (page L s.currentPage).length == pageSize
      isLoading := false
      inFlight := [] } (pages ++ [(s.currentPage, page L s.currentPage)]) := by
  obtain ⟨n, hn⟩ := Nat.exists_eq_add_of_le' h.pending.page_pos
  have hmore := h.pending.more hm
  rw [hn, Nat.add_sub_cancel] at hmore
  refine ⟨h.pending.append_page, ?_, fun hm => ?_⟩
  · rw [h.pages, hn]
    exact (firstPages_succ n).symm
  · have hne : (page L s.currentPage).length ≠ pageSize := by simpa using hm
    rw [hn] at hne
    exact (congrArg (· + 1) hn).trans (congrArg (· + 1) (eq_pageCount_of_page hmore hne))

theorem Collected.step (h : Collected L s pages) {e : Event Json} (hv : Served fromJson L s e t)
    (hc : InStep fromJson s e t) (hst : step fromJson s e = some t) :
    Collected L t ((marks fromJson s e).foldl collect pages) := by
  cases e with
  | initialFetch =>
    obtain rfl := Option.some.inj hst
    exact h.fetchUsers
  | scrolledToBottom =>
    obtain rfl := Option.some.inj hst
    split
    · exact h.fetchUsers
    · exact h
  | refresh =>
    obtain rfl := Option.some.inj hst
    exact Collected.refreshData h.pending
  | reply i r =>
    obtain ⟨hi, hst⟩ := Option.ite_none_right_eq_some.mp hst
    obtain rfl := Option.some.inj hst
    obtain ⟨p, rfl, hp, hm, -⟩ := h.pending.inFlight_eq hi
    have hp' : s.inFlight[0]? = some p := by simp [hp]
    have hnil : s.inFlight.eraseIdx 0 = [] := by simp [hp]
    rw [hnil]
    cases hr : fetchedUsers fromJson r with
    | none =>
      have hnone : marks fromJson s (.reply 0 r) = [] := by simp [marks, delivered, hp', hr]
      rw [hnone]
      refine ⟨h.pending.onReply_none hr, ?_, ?_⟩
      · simpa only [onReply, hr, List.foldl_nil] using h.pages
      · simpa only [onReply, hr] using h.last
    | some us =>
      have hd : (p, us) ∈ delivered fromJson s (.reply 0 r) := by simp [delivered, hp', hr]
      obtain rfl : us = page L p := hv _ hd
      obtain rfl : p = s.currentPage := hc _ hd
      have hone : marks fromJson s (.reply 0 r) = [.page s.currentPage (page L s.currentPage)] := by
        simp [marks, delivered, hp', hr]
      rw [hone]
      simp only [onReply, hr]
      exact h.append_page hm

theorem exec_round (h : Pending L s) (hs : s.inFlight = []) (hm : s.hasMore = true)
    {elements : List Json} (hpage : elements.mapM fromJson = some (page L s.currentPage)) :
    exec (step fromJson) s [.scrolledToBottom, .reply 0 (.response 200 (some elements))] =
      some { s with
        users := s.users ++ page L s.currentPage
        currentPage := s.currentPage + 1
        hasMore := (page L s.currentPage).length == pageSize
        isLoading := false
        inFlight := [] } := by
  have hl : s.isLoading = false := by
    rcases h.single with ⟨-, hl⟩ | ⟨p, hp, -⟩
    · exact hl
    · rw [hs] at hp
      cases hp
  simp [exec, step, fetchUsers, onReply, fetchedUsers, hs, hm, hl, hpage]

theorem exec_rounds {body : ℕ → List Json}
    (hbody : ∀ p, (body p).mapM fromJson = some (page L p)) {k : ℕ} (h : Collected L s pages)
    (hs : s.inFlight = []) (hk : s.currentPage + k = pageCount L + 1) :
    ∃ t, exec (step fromJson) s (rounds body s.currentPage k) = some t ∧ t.users = L ∧
      t.hasMore = false := by
  induction k generalizing s pages with
  | zero =>
    have hlast : s.hasMore = false := h.holds.hasMore.mpr (by omega)
    exact ⟨s, rfl, h.pending.done hlast, hlast⟩
  | succ k ih =>
    have hm : s.hasMore = true := by
      by_contra hm
      have hn := h.holds.hasMore.mp (by simpa using hm)
      have hpos := h.pending.page_pos
      omega
    obtain ⟨t, ht, hdone⟩ := ih (h.append_page hm) rfl (by simp only; omega)
    refine ⟨t, ?_, hdone⟩
    rw [rounds, List.range'_succ, List.flatMap_cons, exec_append,
      exec_round h.pending hs hm (hbody s.currentPage)]
    exact ht

def retried : List (Event ℕ) :=
  [.initialFetch, .reply 0 (.response 200 (some [0, 1, 2, 3, 4])), .scrolledToBottom,
    .reply 0 .exception, .scrolledToBottom, .reply 0 (.response 200 (some [5, 6, 7, 8, 9]))]

/--
In every run in which no refresh overtakes a request, the pages that have come since the last
refresh are the first pages of the server's list, each once and in order. There is no more to come
exactly when the page that is not full has come. No request asks for a later page, and with nothing
in flight the remaining rounds load the whole list.
-/
theorem paging_complete {es : List (Event Json)}
    (hv : Along (step fromJson) (Served fromJson L) initial es)
    (hc : Along (step fromJson) (InStep fromJson) initial es)
    (h : exec (step fromJson) initial es = some s) :
    ∃ n, Holds L s n ∧
      (outputs (step fromJson) (marks fromJson) initial es).foldl collect [] = firstPages L n ∧
      (s.inFlight = [] → ∀ body : ℕ → List Json,
        (∀ p, (body p).mapM fromJson = some (page L p)) →
        ∃ t, exec (step fromJson) s (rounds body (n + 1) (pageCount L - n)) = some t ∧
          t.users = L ∧ t.hasMore = false) := by
  have hcollected : Collected L s
      ((outputs (step fromJson) (marks fromJson) initial es).foldl collect []) :=
    (hv.and hc).simulation collected_initial
      (fun s e t pages hs hcond ht => hs.step hcond.1 hcond.2 ht) h
  have hholds := hcollected.holds
  refine ⟨s.currentPage - 1, hholds, hcollected.pages, fun hs body hbody => ?_⟩
  rw [← hholds.currentPage]
  have hcurrent := hholds.currentPage
  have hle := hholds.le
  exact exec_rounds hbody hcollected hs (by omega)

/-- Twelve users: a request fails, and after the second page one round is left. -/
theorem paging_complete_twelve :
    ∃ s n, exec (step some) initial retried = some s ∧ Holds (List.range 12) s n := by
  have hv : Along (step some) (Served some (List.range 12)) initial retried := by decide
  have hc : Along (step some) (InStep some) initial retried := by decide
  have h : exec (step some) initial retried = some ⟨List.range 10, 3, false, true, []⟩ := rfl
  obtain ⟨n, hn, -⟩ := paging_complete hv hc h
  exact ⟨_, n, h, hn⟩

end FlutterPractice.ComplexApi
