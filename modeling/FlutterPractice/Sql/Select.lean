import Mathlib

/-! # SELECT, one table at a time

The clauses as operations on a list of rows. The groups that the distinct keys
select make up the whole table, each row in one of them.
-/

namespace Sql

variable {α κ : Type*} [LinearOrder κ]

/-- `ORDER BY key ASC`, which leaves rows of one key in their order. -/
def orderBy (key : α → κ) (rows : List α) : List α := rows.mergeSort fun a b => key a ≤ key b

/-- `ORDER BY key DESC` -/
def orderByDesc (key : α → κ) (rows : List α) : List α := rows.mergeSort fun a b => key b ≤ key a

/-- `SELECT DISTINCT key FROM rows ORDER BY key ASC` -/
def distinct (key : α → κ) (rows : List α) : List κ :=
  (rows.map key).dedup.mergeSort fun a b => a ≤ b

/-- `SUM` over numbers or infinities: no value for no rows, and no number if one is not finite. -/
def sum (values : List (Option ℚ)) : Option (Option ℚ) :=
  if values = [] then none else some ((values.mapM id).map List.sum)

variable (key : α → κ) (rows : List α)

theorem orderBy_perm : (orderBy key rows).Perm rows := List.mergeSort_perm _ _

theorem orderBy_pairwise : (orderBy key rows).Pairwise fun a b => key a ≤ key b := by
  have htotal : Std.Total fun a b : α => key a ≤ key b := ⟨fun _ _ => le_total _ _⟩
  have htrans : IsTrans α fun a b => key a ≤ key b := ⟨fun _ _ _ => le_trans⟩
  exact List.pairwise_mergeSort' (fun a b => key a ≤ key b) rows

@[simp] theorem mem_orderBy {a : α} : a ∈ orderBy key rows ↔ a ∈ rows :=
  (orderBy_perm key rows).mem_iff

theorem orderByDesc_perm : (orderByDesc key rows).Perm rows := List.mergeSort_perm _ _

theorem orderByDesc_pairwise : (orderByDesc key rows).Pairwise fun a b => key b ≤ key a := by
  have htotal : Std.Total fun a b : α => key b ≤ key a := ⟨fun _ _ => le_total _ _⟩
  have htrans : IsTrans α fun a b => key b ≤ key a := ⟨fun _ _ _ hab hbc => hbc.trans hab⟩
  exact List.pairwise_mergeSort' (fun a b => key b ≤ key a) rows

theorem orderByDesc_eq_reverse {rows : List α} (h : rows.Pairwise fun a b => key a < key b) :
    orderByDesc key rows = rows.reverse := by
  have hreverse : rows.reverse.Pairwise fun a b => key b ≤ key a :=
    List.pairwise_reverse.mpr (h.imp le_of_lt)
  have hperm : (orderByDesc key rows).Perm rows.reverse :=
    (orderByDesc_perm key rows).trans (List.reverse_perm rows).symm
  refine hperm.eq_of_pairwise ?_ (orderByDesc_pairwise key rows) hreverse
  intro a b ha hb hba hab
  have hinj := (List.pairwise_map.mpr (h.imp ne_of_lt) : (rows.map key).Nodup)
  exact List.inj_on_of_nodup_map hinj ((orderByDesc_perm key rows).subset ha)
    (List.mem_reverse.mp hb) (hab.antisymm hba)

theorem distinct_perm : (distinct key rows).Perm (rows.map key).dedup := List.mergeSort_perm _ _

@[simp] theorem mem_distinct {k : κ} : k ∈ distinct key rows ↔ ∃ a ∈ rows, key a = k := by
  rw [(distinct_perm key rows).mem_iff, List.mem_dedup, List.mem_map]

theorem distinct_nodup : (distinct key rows).Nodup :=
  (distinct_perm key rows).nodup_iff.mpr (List.nodup_dedup _)

theorem distinct_pairwise : (distinct key rows).Pairwise (· < ·) := by
  have hle : (distinct key rows).Pairwise (· ≤ ·) := List.pairwise_mergeSort' (· ≤ ·) _
  exact (hle.and (distinct_nodup key rows)).imp fun h => lt_of_le_of_ne h.1 h.2

/-- The groups of keys without duplicates that cover all rows are together the rows. -/
theorem flatMap_filter_perm {keys : List κ} (hnodup : keys.Nodup)
    (hcover : ∀ a ∈ rows, key a ∈ keys) :
    (keys.flatMap fun k => rows.filter fun a => key a = k).Perm rows := by
  induction keys generalizing rows with
  | nil =>
    have hrows : rows = [] := List.eq_nil_iff_forall_not_mem.mpr fun a ha => by cases hcover a ha
    rw [hrows]
    exact List.Perm.refl _
  | cons k keys ih =>
    obtain ⟨hk, hkeys⟩ := List.nodup_cons.mp hnodup
    -- the groups of the other keys are those of the rows without the key
    have hrest : (keys.flatMap fun k' => rows.filter fun a => key a = k') =
        keys.flatMap fun k' => (rows.filter fun a => !decide (key a = k)).filter
          fun a => key a = k' := by
      apply List.flatMap_congr
      intro k' hk'
      have hne : k' ≠ k := ne_of_mem_of_not_mem hk' hk
      rw [List.filter_filter]
      apply List.filter_congr
      intro a _
      by_cases ha : key a = k'
      · simp [ha, hne]
      · simp [ha]
    rw [List.flatMap_cons, hrest]
    refine List.Perm.trans (List.Perm.append_left _ (ih _ hkeys ?_))
      (List.filter_append_perm (fun a => decide (key a = k)) rows)
    intro a ha
    obtain ⟨ha, hne⟩ := List.mem_filter.mp ha
    exact (List.mem_cons.mp (hcover a ha)).resolve_left (by simpa using hne)

theorem flatMap_distinct_perm :
    ((distinct key rows).flatMap fun k => rows.filter fun a => key a = k).Perm rows :=
  flatMap_filter_perm key rows (distinct_nodup key rows)
    fun a ha => (mem_distinct key rows).mpr ⟨a, ha, rfl⟩

end Sql
