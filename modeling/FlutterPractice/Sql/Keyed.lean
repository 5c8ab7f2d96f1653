import Mathlib

/-! # Rows under a key

A list of rows with distinct keys is a finite map from the keys to the rows.
The statements that write become updates of the map at one key.
-/

namespace Sql

variable {α κ : Type*} [DecidableEq κ] (key : α → κ)

def lookup (rows : List α) (k : κ) : Option α := rows.find? fun a => key a = k

variable {key} {rows : List α} {k : κ} {a b : α}

theorem lookup_eq_none_iff : lookup key rows k = none ↔ ∀ a ∈ rows, key a ≠ k := by
  simp [lookup]

theorem mem_of_lookup_eq_some (h : lookup key rows k = some a) : a ∈ rows ∧ key a = k :=
  ⟨List.mem_of_find?_eq_some h, by simpa using List.find?_some h⟩

theorem lookup_eq_some_iff (hrows : (rows.map key).Nodup) :
    lookup key rows k = some a ↔ a ∈ rows ∧ key a = k := by
  constructor
  · exact mem_of_lookup_eq_some
  · rintro ⟨ha, rfl⟩
    cases hlookup : lookup key rows (key a) with
    | none => exact absurd rfl (lookup_eq_none_iff.mp hlookup a ha)
    | some b =>
      obtain ⟨hb, hkey⟩ := mem_of_lookup_eq_some hlookup
      exact congrArg some (List.inj_on_of_nodup_map hrows hb ha hkey)

theorem lookup_append_singleton (ha : lookup key rows (key a) = none) :
    lookup key (rows ++ [a]) = Function.update (lookup key rows) (key a) (some a) := by
  funext k
  rw [lookup, List.find?_append, ← lookup]
  by_cases hk : k = key a
  · subst hk
    rw [ha, Function.update_self]
    simp
  · rw [Function.update_of_ne hk]
    simp [Ne.symm hk]

theorem lookup_map {f : α → α} (hf : ∀ a, key (f a) = key a) :
    lookup key (rows.map f) k = (lookup key rows k).map f := by
  have hkey : ((fun a => decide (key a = k)) ∘ f) = fun a => decide (key a = k) := by
    funext a
    simp only [Function.comp, hf]
  rw [lookup, List.find?_map, hkey, lookup]

theorem lookup_map_replace (hb : key b = k) :
    lookup key (rows.map fun a => if key a = k then b else a) =
      if lookup key rows k = none then lookup key rows
      else Function.update (lookup key rows) k (some b) := by
  funext j
  have hkey (a : α) : key (if key a = k then b else a) = key a := by
    split
    · rename_i ha
      rw [hb, ha]
    · rfl
  rw [lookup_map hkey]
  cases hj : lookup key rows j with
  | none =>
    split
    · exact hj.symm
    · rename_i hk
      have hne : j ≠ k := fun he => hk (he ▸ hj)
      rw [Function.update_of_ne hne, hj, Option.map_none]
  | some a =>
    obtain ⟨-, ha⟩ := mem_of_lookup_eq_some hj
    by_cases hjk : j = k
    · subst hjk
      simp [hj, ha]
    · rw [Option.map_some, if_neg (ha.trans_ne hjk)]
      split
      · exact hj.symm
      · rw [Function.update_of_ne hjk, hj]

theorem lookup_filter_ne :
    lookup key (rows.filter fun a => key a ≠ k) = Function.update (lookup key rows) k none := by
  funext j
  rw [lookup, List.find?_filter]
  by_cases hj : j = k
  · subst hj
    simp
  · rw [Function.update_of_ne hj, lookup]
    congr 1
    funext a
    by_cases ha : key a = j
    · simp [ha, hj]
    · simp [ha]

/-- The keys of the rows are those that have one. -/
theorem ncard_lookup (hrows : (rows.map key).Nodup) :
    {k | lookup key rows k ≠ none}.ncard = rows.length := by
  have hset : {k | lookup key rows k ≠ none} = ((rows.map key).toFinset : Set κ) := by
    ext k
    rw [Set.mem_ofPred_eq, ne_eq, lookup_eq_none_iff]
    simp
  rw [hset, Set.ncard_coe_finset, List.toFinset_card_of_nodup hrows, List.length_map]

end Sql
