import Mathlib.Algebra.BigOperators.Group.List.Basic
import Mathlib.Algebra.Group.Basic
import Mathlib.Algebra.Order.BigOperators.Group.List
import Mathlib.Data.List.Nodup
import Mathlib.Data.List.Sort
import Mathlib.Tactic.Abel

/-
  Tables whose rows have a unique key.

  A table carries the uniqueness of its keys, so that no write
  can build a table with two rows for one key.

  Main declaration: `Table`
-/

-- Keyed Tables
----

namespace Transactional

section

/- Rows of type `ρ` are identified by keys of type `κ`. -/
class Keyed (ρ : Type) (κ : outParam Type) where
  key : ρ → κ

export Keyed (key)

/- Rows in insertion order, at most one for each key. -/
structure Table (ρ : Type) {κ : Type} [Keyed ρ κ] where
  rows : List ρ
  unique : (rows.map key).Nodup

namespace Table

variable {ρ κ : Type} [Keyed ρ κ]

@[ext] theorem ext {t u : Table ρ} (hRows : t.rows = u.rows) :
    t = u := by
  cases t
  cases u
  simp_all

/- The table with no row. -/
def empty : Table ρ := ⟨[], List.nodup_nil⟩

/- Rewrite the rows that satisfy `p`, keeping their keys. -/
def updateMany (t : Table ρ) (p : ρ → Bool) (f : ρ → ρ)
    (hKey : ∀ r, key (f r) = key r) : Table ρ where
  rows := t.rows.map (fun r => if p r then f r else r)
  unique := by
    have hKeys : (t.rows.map (fun r => if p r then f r else r)).map
        key = t.rows.map key := by
      rw [List.map_map]
      apply List.map_congr_left
      intro r hr
      by_cases hp : p r <;> simp [hp, hKey]
    rw [hKeys]
    exact t.unique

/- Delete the rows that satisfy `p`. -/
def deleteMany (t : Table ρ) (p : ρ → Bool) : Table ρ where
  rows := t.rows.filter (fun r => !p r)
  unique := t.unique.sublist (List.Sublist.map _ List.filter_sublist)

variable [DecidableEq κ]

/- The row stored under a key. -/
def find? (t : Table ρ) (k : κ) : Option ρ := t.rows.find? (fun r => key r = k)

/- Rewrite the row stored under a key, if there is one. -/
def update (t : Table ρ) (k : κ) (f : ρ → ρ) (hKey : ∀ r, key (f r) = key r) : Table ρ :=
  t.updateMany (fun r => key r = k) f hKey

/- Append a row whose key is not stored yet. -/
def create (t : Table ρ) (row : ρ) (hFresh : t.find? (key row) = none) : Table ρ where
  rows := t.rows ++ [row]
  unique := by
    rw [List.map_append, List.map_singleton, List.nodup_append]
    refine ⟨t.unique, List.nodup_singleton _, ?_⟩
    intro k hk k' hk' hEq
    rcases List.mem_map.mp hk with ⟨r, hr, rfl⟩
    have hNone := List.find?_eq_none.mp hFresh r hr
    simp_all

/- Append a row, unless its key is stored already. -/
def insert? (t : Table ρ) (row : ρ) : Option (Table ρ) :=
  if hFresh : t.find? (key row) = none then
    some (t.create row hFresh)
  else none

/- Append the rows whose keys are not stored yet. -/
def createMany (t : Table ρ) : List ρ → Table ρ
  | [] => t
  | row :: rest => ((t.insert? row).getD t).createMany rest

/- Append all the rows, or none when one of them is refused. -/
def insertAll? (t : Table ρ) : List ρ → Option (Table ρ)
  | [] => some t
  | row :: rest => (t.insert? row).bind (insertAll? · rest)

/- Rewrite the row of a key, or append one. -/
def upsert (t : Table ρ) (row : ρ) (f : ρ → ρ) (hKey : ∀ r, key (f r) = key r) : Table ρ :=
  if hFresh : t.find? (key row) = none then
    t.create row hFresh
  else t.update (key row) f hKey

/- The upsert that writes every column. -/
def put (t : Table ρ) (row : ρ) : Table ρ :=
  t.upsert row (fun r => if key r = key row then row else r) fun r => by
    split
    · rename_i hSame
      exact hSame.symm
    · rfl

end Table

end

-- Lookups
----

namespace Table

variable {ρ κ : Type} [Keyed ρ κ] [DecidableEq κ] {t : Table ρ} {k : κ} {r : ρ}

theorem key_of_find? (h : t.find? k = some r) : key r = k := by
  simpa using List.find?_some h

theorem mem_of_find? (h : t.find? k = some r) : r ∈ t.rows := List.mem_of_find?_eq_some h

variable {rows : List ρ}

theorem find?_of_mem_rows (hUnique : (rows.map key).Nodup) (hr : r ∈ rows) :
    rows.find? (fun r' => key r' = key r) = some r := by
  induction rows with
  | nil => simp at hr
  | cons head tail ih =>
    rw [List.map_cons, List.nodup_cons] at hUnique
    rcases List.mem_cons.mp hr with rfl | hTail
    · simp
    · have hNe : key head ≠ key r := by
        intro hEq
        exact hUnique.1 (hEq ▸ List.mem_map_of_mem hTail)
      rw [List.find?_cons_of_neg (by simpa using hNe)]
      exact ih hUnique.2 hTail

/- A stored row is found under its key. -/
theorem find?_of_mem (hr : r ∈ t.rows) : t.find? (key r) = some r := find?_of_mem_rows t.unique hr

omit [DecidableEq κ] in
theorem length_filter_le_one (t : Table ρ) {p : ρ → Bool} (hKey : ∀ r, p r = true → key r = k) :
    (t.rows.filter p).length ≤ 1 := by
  have hSame : (t.rows.filter p).map key =
      List.replicate ((t.rows.filter p).map key).length k := by
    apply List.eq_replicate_of_mem
    intro k' hk'
    rcases List.mem_map.mp hk' with ⟨r, hr, rfl⟩
    exact hKey r (List.mem_filter.mp hr).2
  have hUnique : ((t.rows.filter p).map key).Nodup := t.unique.sublist (List.filter_sublist.map key)
  rw [hSame, List.nodup_replicate, List.length_map] at hUnique
  exact hUnique

theorem find?_eq_some_iff : t.find? k = some r ↔ r ∈ t.rows ∧ key r = k := by
  constructor
  · intro h
    exact ⟨mem_of_find? h, key_of_find? h⟩
  · rintro ⟨hr, rfl⟩
    exact find?_of_mem hr

@[simp] theorem find?_empty
    (k : κ) : (empty : Table ρ).find? k = none := rfl

theorem find?_updateMany (t : Table ρ) (p : ρ → Bool) (f : ρ → ρ) (hKey : ∀ r, key (f r) = key r)
    (k : κ) :
    (t.updateMany p f hKey).find? k = (t.find? k).map (fun r => if p r then f r else r) := by
  have hPred : (fun r : ρ => decide (key (if p r then f r else r) = k)) =
      fun r => decide (key r = k) := by
    funext r
    by_cases hp : p r <;> simp [hp, hKey]
  simp only [find?, updateMany, List.find?_map, Function.comp_def, hPred]

/- A row of an updated table is one of before, perhaps rewritten. -/
theorem mem_rows_update {f : ρ → ρ} {row' : ρ} (hKey : ∀ r, key (f r) = key r) :
    row' ∈ (t.update k f hKey).rows ↔ ∃ row ∈ t.rows,
      (if key row = k then f row else row) = row' := by
  simp [update, updateMany]

theorem find?_update_same (t : Table ρ) (k : κ) (f : ρ → ρ) (hKey : ∀ r, key (f r) = key r) :
    (t.update k f hKey).find? k = (t.find? k).map f := by
  rw [update, find?_updateMany]
  cases h : t.find? k with
  | none => rfl
  | some r => simp [key_of_find? h]

theorem find?_update_other (t : Table ρ) {k' : κ} (f : ρ → ρ) (hKey : ∀ r, key (f r) = key r)
    (hNe : k' ≠ k) :
    (t.update k f hKey).find? k' = t.find? k' := by
  rw [update, find?_updateMany]
  cases h : t.find? k' with
  | none => rfl
  | some r => simp [key_of_find? h, hNe]

variable {row : ρ}

theorem find?_update_stored (hRow : t.find? k = some row) (f : ρ → ρ)
    (hKey : ∀ r, key (f r) = key r) (k' : κ) :
    (t.update k f hKey).find? k' = if k' = k then some (f row) else t.find? k' := by
  by_cases hSame : k' = k
  · subst hSame
    rw [if_pos rfl, find?_update_same, hRow]
    rfl
  · rw [if_neg hSame, find?_update_other _ _ _ hSame]

theorem find?_create (t : Table ρ) (row : ρ) (hFresh : t.find? (key row) = none) (k : κ) :
    (t.create row hFresh).find? k = if k = key row then some row else t.find? k := by
  simp only [find?, create, List.find?_append]
  by_cases hEq : k = key row
  · subst hEq
    have hNone : t.rows.find? (fun r => key r = key row) = none := hFresh
    simp [hNone]
  · cases h : t.rows.find? (fun r => key r = k) with
    | none => simp [hEq, Ne.symm hEq]
    | some r => simp [hEq]

theorem find?_upsert (t : Table ρ) (row : ρ) (f : ρ → ρ) (hKey : ∀ r, key (f r) = key r) (k : κ) :
    (t.upsert row f hKey).find? k =
      if k = key row then
        some ((t.find? k).elim row f)
      else t.find? k := by
  by_cases hEq : k = key row
  · subst hEq
    rw [if_pos rfl, upsert]
    split
    · rename_i hFresh
      rw [find?_create, if_pos rfl, hFresh]
      rfl
    · rename_i hStored
      rw [find?_update_same]
      cases h : t.find? (key row) with
      | none => exact absurd h hStored
      | some r => rfl
  · rw [if_neg hEq, upsert]
    split
    · rw [find?_create, if_neg hEq]
    · rw [find?_update_other t f hKey hEq]

theorem find?_put (t : Table ρ) (row : ρ) (k : κ) :
    (t.put row).find? k = if k = key row then some row else t.find? k := by
  rw [put, find?_upsert]
  by_cases hSame : k = key row
  · rw [if_pos hSame, if_pos hSame]
    cases hFind : t.find? k with
    | none => rfl
    | some stored =>
      have hKey : key stored = key row := (key_of_find? hFind).trans hSame
      rw [Option.elim_some, if_pos hKey]
  · rw [if_neg hSame, if_neg hSame]

/- A table of the rows that `P` says follows `P'`, which may say otherwise of one key. -/
theorem find?_elim_put {P P' : κ → Option ρ} {own : κ} (hStored : ∀ k, t.find? k = P k)
    (hOther : ∀ k, k ≠ own → P' k = P k) (hKey : ∀ row ∈ P' own, key row = own)
    (hNone : P' own = none → P own = none) (k : κ) :
    ((P' own).elim t t.put).find? k = P' k := by
  cases hOwn : P' own with
  | none =>
    rw [Option.elim_none, hStored]
    by_cases hSame : k = own
    · rw [hSame, hNone hOwn, hOwn]
    · exact (hOther k hSame).symm
  | some row =>
    rw [Option.elim_some, find?_put, hKey row hOwn]
    by_cases hSame : k = own
    · rw [if_pos hSame, hSame, hOwn]
    · rw [if_neg hSame, hStored, hOther k hSame]

theorem find?_deleteMany (t : Table ρ) (p : ρ → Bool) (k : κ) :
    (t.deleteMany p).find? k = (t.find? k).filter (fun r => !p r) := by
  cases h : t.find? k with
  | none =>
    rw [Option.filter_none, find?, List.find?_eq_none]
    intro r hr
    have hMem : r ∈ t.rows := (List.mem_filter.mp hr).1
    exact List.find?_eq_none.mp h r hMem
  | some r =>
    by_cases hp : p r
    · rw [Option.filter_some_neg (by simp [hp]), find?, List.find?_eq_none]
      intro r' hr'
      rcases List.mem_filter.mp hr' with ⟨hMem, hKeep⟩
      intro hKey
      have hFound := find?_of_mem hMem
      rw [show key r' = k by simpa using hKey, h] at hFound
      cases hFound
      simp [hp] at hKeep
    · rw [Option.filter_some_pos (by simp [hp]), find?_eq_some_iff]
      refine ⟨?_, key_of_find? h⟩
      exact List.mem_filter.mpr ⟨mem_of_find? h, by simp [hp]⟩

theorem find?_eq_none_iff : t.find? k = none ↔ k ∉ t.rows.map key := by
  rw [find?, List.find?_eq_none]
  constructor
  · intro hNone hMem
    rcases List.mem_map.mp hMem with ⟨r, hr, hKey⟩
    exact hNone r hr (decide_eq_true hKey)
  · intro hOut r hr hKey
    apply hOut
    exact List.mem_map.mpr ⟨r, hr, of_decide_eq_true hKey⟩

theorem insert?_eq_none_iff : t.insert? row = none ↔ key row ∈ t.rows.map key := by
  rw [insert?]
  split
  · rename_i hFresh
    simp [find?_eq_none_iff.mp hFresh]
  · rename_i hStored
    rw [find?_eq_none_iff, not_not] at hStored
    simp [hStored]

theorem exists_of_insert?_eq_none (h : t.insert? row = none) :
    ∃ stored, t.find? (key row) = some stored := by
  rw [insert?] at h
  split at h
  · cases h
  · rename_i hStored
    exact Option.ne_none_iff_exists'.mp hStored

variable {t' : Table ρ}

theorem insert?_eq_some (h : t.insert? row = some t') :
    t.find? (key row) = none ∧ t'.rows = t.rows ++ [row] := by
  rw [insert?] at h
  split at h
  · rename_i hFresh
    cases h
    exact ⟨hFresh, rfl⟩
  · cases h

theorem insert?_of_fresh (hFresh : t.find? (key row) = none) :
    t.insert? row = some (t.create row hFresh) := dif_pos hFresh

/- A row is refused for its key, or it is appended. -/
theorem insert?_cases (t : Table ρ) (row : ρ) :
    key row ∈ t.rows.map key ∧ t.insert? row = none ∨ key row ∉ t.rows.map key ∧
      ∃ t', t.insert? row = some t' ∧ t'.rows = t.rows ++ [row] := by
  cases hInsert : t.insert? row with
  | none => exact Or.inl ⟨insert?_eq_none_iff.mp hInsert, rfl⟩
  | some t' =>
    rcases insert?_eq_some hInsert with ⟨hFresh, hRows⟩
    exact Or.inr ⟨find?_eq_none_iff.mp hFresh, t', rfl, hRows⟩

theorem exists_create_of_insert? (h : t.insert? row = some t') :
    ∃ hFresh, t' = t.create row hFresh := by
  rw [insert?] at h
  split at h
  · rename_i hFresh
    cases h
    exact ⟨hFresh, rfl⟩
  · cases h

theorem find?_insert? (h : t.insert? row = some t') (k : κ) :
    t'.find? k = if k = key row then some row else t.find? k := by
  rw [insert?] at h
  split at h
  · cases h
    exact find?_create t row _ k
  · cases h

theorem find?_createMany_one (t : Table ρ) (row : ρ) (k : κ) :
    (t.createMany [row]).find? k =
      if k = key row then some ((t.find? k).getD row)
      else t.find? k := by
  rw [createMany, createMany]
  cases hInsert : t.insert? row with
  | none =>
    have hStored := insert?_eq_none_iff.mp hInsert
    rw [Option.getD_none]
    split
    · rename_i hSame
      subst hSame
      cases hFind : t.find? (key row) with
      | none => exact absurd hStored (find?_eq_none_iff.mp hFind)
      | some stored => rfl
    · rfl
  | some t' =>
    have hFresh := (insert?_eq_some hInsert).1
    rw [Option.getD_some, find?_insert? hInsert]
    split
    · rename_i hSame
      rw [hSame, hFresh]
      rfl
    · rfl

theorem rows_insertAll? (h : t.insertAll? rows = some t') : t'.rows = t.rows ++ rows := by
  induction rows generalizing t with
  | nil =>
    cases h
    exact (List.append_nil _).symm
  | cons row rest ih =>
    rw [insertAll?] at h
    rcases Option.bind_eq_some_iff.mp h with ⟨middle, hRow, hRest⟩
    rw [ih hRest, (insert?_eq_some hRow).2, List.append_assoc, List.singleton_append]

/- A row that is stored stays when others are appended. -/
theorem find?_of_rows_append (hRows : t'.rows = t.rows ++ rows) (hRow : t.find? k = some row) :
    t'.find? k = some row := by
  rcases find?_eq_some_iff.mp hRow with ⟨hMem, hKey⟩
  rw [find?_eq_some_iff, hRows]
  exact ⟨List.mem_append_left rows hMem, hKey⟩

theorem exists_rows_createMany (t : Table ρ) (rows : List ρ) :
    ∃ stored, (t.createMany rows).rows = t.rows ++ stored := by
  induction rows generalizing t with
  | nil => exact ⟨[], (List.append_nil _).symm⟩
  | cons row rest ih =>
    rw [createMany]
    cases hRow : t.insert? row with
    | none => exact ih t
    | some t' =>
      rcases ih t' with ⟨stored, hStored⟩
      refine ⟨row :: stored, ?_⟩
      rw [Option.getD_some, hStored, (insert?_eq_some hRow).2, List.append_assoc,
        List.singleton_append]

/- What is stored after a batch was stored, or is of the batch. -/
theorem mem_createMany (hRow : row ∈ (t.createMany rows).rows) : row ∈ t.rows ∨ row ∈ rows := by
  induction rows generalizing t with
  | nil => exact Or.inl hRow
  | cons new rest ih =>
    rw [createMany] at hRow
    cases hNew : t.insert? new with
    | none =>
      rw [hNew] at hRow
      exact (ih hRow).imp_right (List.mem_cons_of_mem new)
    | some t' =>
      rw [hNew] at hRow
      rcases ih hRow with hStored | hRest
      · rw [Option.getD_some, (insert?_eq_some hNew).2,
          List.mem_append, List.mem_singleton] at hStored
        rcases hStored with hStored | rfl
        · exact Or.inl hStored
        · exact Or.inr List.mem_cons_self
      · exact Or.inr (List.mem_cons_of_mem new hRest)

/- New rows with different keys are all appended. -/
theorem rows_createMany (hFresh : ∀ row ∈ rows, t.find? (key row) = none)
    (hUnique : (rows.map key).Nodup) :
    (t.createMany rows).rows = t.rows ++ rows := by
  induction rows generalizing t with
  | nil => simp [createMany]
  | cons row rest ih =>
    rw [List.map_cons, List.nodup_cons] at hUnique
    have hRow := hFresh row List.mem_cons_self
    have hInsert := insert?_of_fresh hRow
    have hRest : ∀ other ∈ rest,
        (t.create row hRow).find? (key other) = none := by
      intro other hMem
      have hNe : key other ≠ key row := by
        intro hEq
        exact hUnique.1 (hEq ▸ List.mem_map_of_mem hMem)
      rw [find?_create, if_neg hNe]
      exact hFresh other (List.mem_cons_of_mem _ hMem)
    rw [createMany, hInsert, Option.getD_some, ih hRest hUnique.2]
    simp [create]

end Table

-- Totals
----

namespace Table

variable {ρ κ M : Type} [Keyed ρ κ] [DecidableEq κ] [AddCommGroup M]

/- The sum of a quantity over all rows. -/
def total (t : Table ρ) (w : ρ → M) : M := (t.rows.map w).sum

omit [DecidableEq κ] in
@[simp] theorem total_empty
    (w : ρ → M) : (empty : Table ρ).total w = 0 := rfl

theorem total_create (t : Table ρ) (row : ρ) (hFresh : t.find? (key row) = none) (w : ρ → M) :
    (t.create row hFresh).total w = t.total w + w row := by
  simp [total, create]

variable {r : ρ}

theorem sum_map_update {rows : List ρ} (hUnique : (rows.map key).Nodup) (f : ρ → ρ)
    (w : ρ → M) (hr : r ∈ rows) :
    ((rows.map (fun r' =>
      if key r' = key r then f r' else r')).map w).sum =
      (rows.map w).sum + (w (f r) - w r) := by
  induction rows with
  | nil => simp at hr
  | cons head tail ih =>
    rw [List.map_cons, List.nodup_cons] at hUnique
    rcases List.mem_cons.mp hr with rfl | hTail
    · have hSame : tail.map (fun r' =>
        if key r' = key r then f r' else r') =
        tail := by
        conv_rhs => rw [← List.map_id tail]
        apply List.map_congr_left
        intro r' hr'
        have hNe : key r' ≠ key r := by
          intro hEq
          exact hUnique.1 (hEq ▸ List.mem_map_of_mem hr')
        simp [hNe]
      simp only [List.map_cons, List.sum_cons, hSame, if_true]
      abel
    · have hNe : key head ≠ key r := by
        intro hEq
        exact hUnique.1 (hEq ▸ List.mem_map_of_mem hTail)
      simp only [List.map_cons, List.sum_cons, if_neg hNe]
      rw [ih hUnique.2 hTail]
      abel

theorem total_update (t : Table ρ) {k : κ} (f : ρ → ρ) (hKey : ∀ r, key (f r) = key r) (w : ρ → M)
    (hFound : t.find? k = some r) :
    (t.update k f hKey).total w = t.total w + (w (f r) - w r) := by
  have hk := key_of_find? hFound
  subst hk
  simpa [total, update, updateMany] using sum_map_update t.unique f w (mem_of_find? hFound)

theorem total_upsert (t : Table ρ) (row : ρ) (f : ρ → ρ) (hKey : ∀ r, key (f r) = key r)
    (w : ρ → M) :
    (t.upsert row f hKey).total w = t.total w + (t.find? (key row)).elim (w row)
      (fun r => w (f r) - w r) := by
  rw [upsert]
  split
  · rename_i hFresh
    rw [total_create, hFresh]
    rfl
  · rename_i hStored
    cases h : t.find? (key row) with
    | none => exact absurd h hStored
    | some r => rw [total_update t f hKey w h]; rfl

omit [DecidableEq κ] in
/- The rows that are deleted are left out of the sum. -/
theorem total_deleteMany (t : Table ρ) (p : ρ → Bool) (w : ρ → M) :
    (t.deleteMany p).total w = t.total fun r => if p r then 0 else w r := by
  unfold total deleteMany
  dsimp only
  induction t.rows with
  | nil => rfl
  | cons row rows ih =>
    by_cases hp : p row
    · simp [hp, ih]
    · simp [hp, ih]

omit [DecidableEq κ] in
theorem total_add (t : Table ρ) (v w : ρ → M) :
    t.total (fun r => v r + w r) = t.total v + t.total w := by
  exact List.sum_map_add

omit [DecidableEq κ] in
/- A quantity that is less in every row is less in sum. -/
theorem total_le_total {N : Type} [AddCommGroup N] [PartialOrder N] [IsOrderedAddMonoid N]
    (t : Table ρ) {v w : ρ → N} (hLe : ∀ r ∈ t.rows, v r ≤ w r) : t.total v ≤ t.total w :=
  List.sum_le_sum hLe

end Table

-- Rows by Position
----

variable {ρ β : Type}

/-
  Rows that occupy the positions of a list, one each, list its
  values when they are sorted by position.
-/
theorem map_insertionSort_position {rows : List ρ} {position : ρ → Nat} {value : ρ → β}
    {values : List β} (hDistinct : (rows.map position).Nodup)
    (hRow : ∀ r ∈ rows, values[position r]? = some (value r))
    (hAll : ∀ p < values.length, ∃ r ∈ rows, position r = p) :
    (rows.insertionSort (fun a b => position a ≤ position b)).map value = values := by
  have hPerm : (rows.insertionSort (fun a b => position a ≤ position b)).Perm rows :=
    List.perm_insertionSort _ rows
  have hPositions : (rows.insertionSort (fun a b => position a ≤ position b)).map position =
      List.range values.length := by
    have hSorted : ((rows.insertionSort (fun a b => position a ≤ position b)).map
        position).Pairwise (fun a b => a ≤ b) := by
      rw [List.pairwise_map]
      exact List.pairwise_insertionSort (fun a b => position a ≤ position b) rows
    apply List.Perm.eq_of_pairwise' hSorted List.pairwise_le_range
    · refine (hPerm.map position).trans ?_
      rw [List.perm_ext_iff_of_nodup hDistinct List.nodup_range]
      intro p
      rw [List.mem_map, List.mem_range]
      constructor
      · rintro ⟨r, hr, rfl⟩
        exact (List.getElem?_eq_some_iff.mp (hRow r hr)).1
      · exact hAll p
  have hValues : ∀ r ∈ rows.insertionSort (fun a b => position a ≤ position b),
      some (value r) = values[position r]? := by
    intro r hr
    exact (hRow r (hPerm.mem_iff.mp hr)).symm
  apply List.map_injective_iff.mpr (Option.some_injective β)
  rw [List.map_map]
  calc
    _ = (rows.insertionSort (fun a b => position a ≤ position b)).map
      (fun r => values[position r]?) :=
      List.map_congr_left hValues
    _ = (List.range values.length).map (fun p => values[p]?) := by
      rw [← hPositions, List.map_map]
      rfl
    _ = values.map some := by
      apply List.ext_getElem?
      intro p
      by_cases hp : p < values.length <;> simp [hp]

end Transactional
