import Mathlib.Data.List.Infix

/-! # The LIKE of SQLite

In a pattern `%` matches any run of characters and `_` any single one; all
others match themselves, ASCII letters in either case. A text that contains a
pattern's text matches the pattern between two `%`, and only such texts do so
where the pattern has no wildcard.
-/

namespace Sql

/-- `text LIKE pattern` -/
def like : List Char → List Char → Bool
  | [], text => text.isEmpty
  | c :: pattern, text =>
    if c = '%' then text.tails.any (like pattern)
    else
      match text with
      | [] => false
      | d :: text => (c = '_' || c.toLower = d.toLower) && like pattern text

/-- The pattern that `text` is to be found by. -/
def anywhere (text : List Char) : List Char := '%' :: text ++ ['%']

/-- The text contains the other one, ASCII letters in either case. -/
def ContainsIgnoreCase (text part : List Char) : Prop :=
  part.map Char.toLower <:+: text.map Char.toLower

instance (text part : List Char) : Decidable (ContainsIgnoreCase text part) :=
  inferInstanceAs (Decidable (_ <:+: _))

def isWildcard (c : Char) : Bool := c = '%' || c = '_'

variable {pattern text rest part : List Char} {c d : Char}

theorem like_percent :
    like ('%' :: pattern) text = true ↔ ∃ front back, text = front ++ back ∧
      like pattern back = true := by
  simp only [like, if_true, List.any_eq_true, List.mem_tails]
  constructor
  · rintro ⟨back, ⟨front, hfront⟩, hback⟩
    exact ⟨front, back, hfront.symm, hback⟩
  · rintro ⟨front, back, rfl, hback⟩
    exact ⟨back, List.suffix_append front back, hback⟩

theorem like_cons (hc : c ≠ '%') :
    like (c :: pattern) (d :: text) = true ↔
      (c = '_' ∨ c.toLower = d.toLower) ∧ like pattern text = true := by
  simp [like, hc]

theorem not_like_nil (hc : c ≠ '%') : like (c :: pattern) [] = false := by
  simp [like, hc]

/-- A run of any length is matched by a `%` at the end. -/
theorem like_percent_nil (text : List Char) : like ['%'] text = true :=
  like_percent.mpr ⟨text, [], (List.append_nil text).symm, rfl⟩

/-- Every text matches itself as a pattern, in either case. -/
theorem like_append_of_map_eq (h : part.map Char.toLower = text.map Char.toLower)
    (hrest : like pattern rest = true) : like (part ++ pattern) (text ++ rest) = true := by
  induction part generalizing text with
  | nil =>
    obtain rfl := List.map_eq_nil_iff.mp h.symm
    exact hrest
  | cons c part ih =>
    obtain ⟨d, text, rfl, hd, htext⟩ := List.map_eq_cons_iff.mp h.symm
    by_cases hc : c = '%'
    · subst hc
      exact like_percent.mpr ⟨[d], text ++ rest, rfl, ih htext.symm⟩
    · exact (like_cons hc).mpr ⟨.inr hd.symm, ih htext.symm⟩

theorem like_append_iff (hpart : part.any isWildcard = false) :
    like (part ++ pattern) text = true ↔ ∃ front back, text = front ++ back ∧
      front.map Char.toLower = part.map Char.toLower ∧ like pattern back = true := by
  constructor
  · intro h
    induction part generalizing text with
    | nil => exact ⟨[], text, rfl, rfl, h⟩
    | cons c part ih =>
      obtain ⟨hc, hpart⟩ := by simpa [isWildcard] using hpart
      cases text with
      | nil => simp [not_like_nil hc.1] at h
      | cons d text =>
        obtain ⟨hd, h⟩ := (like_cons hc.1).mp h
        obtain ⟨front, back, rfl, hfront, hback⟩ := ih (by simpa [isWildcard] using hpart) h
        refine ⟨d :: front, back, rfl, ?_, hback⟩
        rw [List.map_cons, List.map_cons, hfront, hd.resolve_left hc.2]
  · rintro ⟨front, back, rfl, hfront, hback⟩
    exact like_append_of_map_eq hfront.symm hback

theorem containsIgnoreCase_iff :
    ContainsIgnoreCase text part ↔ ∃ front middle back, text = front ++ middle ++ back ∧
      middle.map Char.toLower = part.map Char.toLower := by
  rw [ContainsIgnoreCase, List.infix_map_iff]
  constructor
  · rintro ⟨middle, ⟨front, back, rfl⟩, hmiddle⟩
    exact ⟨front, middle, back, rfl, hmiddle.symm⟩
  · rintro ⟨front, middle, back, rfl, hmiddle⟩
    exact ⟨middle, ⟨front, back, rfl⟩, hmiddle.symm⟩

theorem like_anywhere_of_contains (h : ContainsIgnoreCase text part) :
    like (anywhere part) text = true := by
  obtain ⟨front, middle, back, rfl, hmiddle⟩ := containsIgnoreCase_iff.mp h
  refine like_percent.mpr ⟨front, middle ++ back, List.append_assoc _ _ _, ?_⟩
  exact like_append_of_map_eq hmiddle.symm (like_percent_nil back)

/-- Without wildcards the pattern finds the texts that contain it. -/
theorem like_anywhere_iff (hpart : part.any isWildcard = false) :
    like (anywhere part) text = true ↔ ContainsIgnoreCase text part := by
  refine ⟨fun h => ?_, like_anywhere_of_contains⟩
  obtain ⟨front, rest, rfl, hrest⟩ := like_percent.mp h
  obtain ⟨middle, back, rfl, hmiddle, -⟩ := (like_append_iff hpart).mp hrest
  refine containsIgnoreCase_iff.mpr ⟨front, middle, back, ?_, hmiddle⟩
  exact (List.append_assoc _ _ _).symm

/-- A text that the pattern matches by its wildcards: nothing for `%`, a letter for `_`. -/
def instanceOf (pattern : List Char) : List Char :=
  (pattern.filter (· ≠ '%')).map fun c => if c = '_' then 'x' else c

theorem like_append_instanceOf (part : List Char) (hrest : like pattern rest = true) :
    like (part ++ pattern) (instanceOf part ++ rest) = true := by
  induction part with
  | nil => exact hrest
  | cons c part ih =>
    by_cases hc : c = '%'
    · subst hc
      exact like_percent.mpr ⟨[], instanceOf part ++ rest, rfl, ih⟩
    · have hcons : instanceOf (c :: part) = (if c = '_' then 'x' else c) :: instanceOf part := by
        simp [instanceOf, hc]
      rw [hcons]
      refine (like_cons hc).mpr ⟨?_, ih⟩
      by_cases hunderscore : c = '_'
      · exact .inl hunderscore
      · exact .inr (by rw [if_neg hunderscore])

theorem like_anywhere_instanceOf (part : List Char) :
    like (anywhere part) (instanceOf part) = true := by
  have h := like_append_instanceOf part (like_percent_nil [])
  rw [List.append_nil] at h
  exact like_percent.mpr ⟨[], _, rfl, h⟩

theorem any_isWildcard_instanceOf (part : List Char) :
    (instanceOf part).any isWildcard = false := by
  rw [List.any_eq_false]
  intro c hc
  obtain ⟨d, hd, rfl⟩ := List.mem_map.mp hc
  have hpercent : d ≠ '%' := by simpa using (List.mem_filter.mp hd).2
  by_cases hunderscore : d = '_'
  · rw [if_pos hunderscore]
    decide
  · rw [if_neg hunderscore]
    simp [isWildcard, hpercent, hunderscore]

theorem isWildcard_toLower (c : Char) : isWildcard c.toLower = isWildcard c := by
  by_cases hupper : c.val ≥ 'A'.val ∧ c.val ≤ 'Z'.val
  · have hval : c.toLower.val = c.val + ('a'.val - 'A'.val) :=
      congrArg Char.val (dif_pos hupper)
    have hc : isWildcard c = false := by
      simp only [isWildcard, Bool.or_eq_false_iff, decide_eq_false_iff_not]
      constructor
      · rintro rfl
        exact absurd hupper (by decide)
      · rintro rfl
        exact absurd hupper (by decide)
    simp only [hc]
    simp only [isWildcard, Bool.or_eq_false_iff, decide_eq_false_iff_not]
    constructor
    · intro h
      rw [h] at hval
      grind
    · intro h
      rw [h] at hval
      grind
  · have hsame : c.toLower = c := dif_neg hupper
    rw [hsame]

theorem any_isWildcard_of_contains (h : ContainsIgnoreCase text part)
    (hpart : part.any isWildcard = true) : text.any isWildcard = true := by
  have hlower (cs : List Char) : (cs.map Char.toLower).any isWildcard = cs.any isWildcard := by
    rw [List.any_map]
    congr 1
    funext c
    exact isWildcard_toLower c
  rw [← hlower] at hpart ⊢
  obtain ⟨c, hc, hwildcard⟩ := List.any_eq_true.mp hpart
  exact List.any_eq_true.mpr ⟨c, h.subset hc, hwildcard⟩

/-- With a wildcard the pattern also finds a text that does not contain it. -/
theorem not_contains_instanceOf (hpart : part.any isWildcard = true) :
    ¬ ContainsIgnoreCase (instanceOf part) part := by
  intro h
  have hany := any_isWildcard_of_contains h hpart
  rw [any_isWildcard_instanceOf] at hany
  exact Bool.false_ne_true hany

end Sql
