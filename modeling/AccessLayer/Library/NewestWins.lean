import AccessLayer.Library.Interference
import AccessLayer.Library.Table

/-
  Rows that only a newer update overwrites.

  A writer overwrites the row of its update if that is older, and
  creates it if nothing was older.  Where another writer has
  created the row meanwhile, it is overwritten after all.

  Main declaration: `exists_newest`
-/

-- Writers
----

namespace Transactional

section

open Program

/-
  `overwriteOlder` answers how many rows were older; `create`
  fails with `taken` where there is a row.
-/
def overwriteOrCreate {σ ε : Type} [DecidableEq ε] (fault taken : ε)
    (overwriteOlder : σ → Except ε (Nat × σ))
    (create : σ → Except ε (Unit × σ)) : Program σ ε Bool := do
  let updated ← execute fault overwriteOlder
  if 0 < updated then pure true
  else
    tryCatch (do
      execute fault create
      pure true)
      (fun error =>
        if error = taken then do
          let retried ← execute fault overwriteOlder
          pure (decide (0 < retried))
        else throw error)

/- A table of rows, and the updates that are written to them. -/
structure NewestWins (σ ε υ ρ κ π : Type) [Keyed ρ κ] [LinearOrder π] where
  table : σ → Table ρ
  withTable : σ → Table ρ → σ
  fault : ε
  taken : ε
  target : υ → κ
  position : υ → π
  stored : ρ → π
  newer : υ → ρ → Bool
  overwrite : υ → ρ → ρ
  row : υ → ρ
  table_withTable : ∀ s rows, table (withTable s rows) = rows
  fault_ne_taken : fault ≠ taken
  newer_iff : ∀ u r, newer u r = true ↔ key r = target u ∧ stored r < position u
  key_overwrite : ∀ u r, key (overwrite u r) = key r
  key_row : ∀ u, key (row u) = target u
  stored_overwrite : ∀ u r, stored (overwrite u r) = position u
  stored_row : ∀ u, stored (row u) = position u

namespace NewestWins

variable {σ ε υ ρ κ π : Type} [Keyed ρ κ] [LinearOrder π] (W : NewestWins σ ε υ ρ κ π)

def overwriteOlder (u : υ) (s : σ) : Except ε (Nat × σ) :=
  .ok ((W.table s).rows.countP (W.newer u), W.withTable s
    ((W.table s).updateMany (W.newer u) (W.overwrite u) (W.key_overwrite u)))

variable [DecidableEq κ]

def create (u : υ) (s : σ) : Except ε (Unit × σ) :=
  match (W.table s).insert? (W.row u) with
  | none => .error W.taken
  | some rows => .ok ((), W.withTable s rows)

/- Answers whether the row changed. -/
def apply [DecidableEq ε] (u : υ) : Program σ ε Bool :=
  overwriteOrCreate W.fault W.taken (W.overwriteOlder u) (W.create u)

/- Rows stay and grow newer; if each has the property `I`, then each keeps it. -/
def moves (I : ρ → Prop) : Moves σ where
  move s t :=
    (∀ k r, (W.table s).find? k = some r → ∃ r', (W.table t).find? k = some r' ∧
      W.stored r ≤ W.stored r') ∧ ((∀ r ∈ (W.table s).rows, I r) → ∀ r ∈ (W.table t).rows, I r)
  refl _ := ⟨fun _ r hRow => ⟨r, hRow, le_rfl⟩, id⟩
  trans := by
    rintro s t u ⟨hGrows, hKeeps⟩ ⟨hGrows', hKeeps'⟩
    refine ⟨?_, fun h => hKeeps' (hKeeps h)⟩
    intro k r hRow
    rcases hGrows k r hRow with ⟨r', hRow', hLe⟩
    rcases hGrows' k r' hRow' with ⟨r'', hRow'', hLe'⟩
    exact ⟨r'', hRow'', hLe.trans hLe'⟩

/- The row of the update is stored. -/
def Stored (u : υ) (s : σ) : Prop := ∃ r, (W.table s).find? (W.target u) = some r

/- The row of the update is stored and no older than it. -/
def Reached (u : υ) (s : σ) : Prop :=
  ∃ r, (W.table s).find? (W.target u) = some r ∧ W.position u ≤ W.stored r

structure Writes (I : ρ → Prop) (u : υ) : Prop where
  row : I (W.row u)
  overwrite : ∀ r, key r = W.target u → I (W.overwrite u r)

/- A row is older than any update, or shows one of some. -/
def Shows (updates : List υ) (carries : υ → ρ → Prop) (r : ρ) : Prop :=
  (∀ u, W.stored r < W.position u) ∨ ∃ u ∈ updates, key r = W.target u ∧
    W.stored r = W.position u ∧ carries u r

end NewestWins

end

-- Statements of a Writer
----

namespace NewestWins

variable {σ ε υ ρ κ π : Type} [Keyed ρ κ] [LinearOrder π] [DecidableEq κ]
variable {W : NewestWins σ ε υ ρ κ π} {I : ρ → Prop} {u : υ} {s t : σ}

omit [DecidableEq κ] in
theorem writes_shows {updates : List υ} {carries : υ → ρ → Prop} (hUpdate : u ∈ updates)
    (hRow : carries u (W.row u)) (hOverwrite : ∀ r, carries u (W.overwrite u r)) :
    W.Writes (W.Shows updates carries) u where
  row := .inr ⟨u, hUpdate, W.key_row u, W.stored_row u, hRow⟩
  overwrite r hKey :=
    .inr ⟨u, hUpdate, (W.key_overwrite u r).trans hKey, W.stored_overwrite u r, hOverwrite r⟩

theorem stable_stored : (W.moves I).Stable (W.Stored u) := by
  rintro s t ⟨hGrows, -⟩ ⟨r, hRow⟩
  rcases hGrows _ r hRow with ⟨r', hRow', -⟩
  exact ⟨r', hRow'⟩

theorem stable_reached : (W.moves I).Stable (W.Reached u) := by
  rintro s t ⟨hGrows, -⟩ ⟨r, hRow, hLe⟩
  rcases hGrows _ r hRow with ⟨r', hRow', hLe'⟩
  exact ⟨r', hRow', hLe.trans hLe'⟩

/- A statement that leaves the table alone. -/
theorem move_of_table_eq (hSame : W.table t = W.table s) : (W.moves I).move s t := by
  constructor
  · intro k r hRow
    rw [hSame]
    exact ⟨r, hRow, le_rfl⟩
  · rw [hSame]
    exact id

variable {n : Nat}

/- A row after the older ones have been overwritten. -/
theorem find?_overwriteOlder (h : W.overwriteOlder u s = .ok (n, t)) (k : κ) :
    (W.table t).find? k = ((W.table s).find? k).map fun r =>
      if W.newer u r then W.overwrite u r else r := by
  cases h
  rw [W.table_withTable]
  exact Table.find?_updateMany (W.table s) (W.newer u) (W.overwrite u) (W.key_overwrite u) k

theorem move_overwriteOlder (hWrites : W.Writes I u) (h : W.overwriteOlder u s = .ok (n, t)) :
    (W.moves I).move s t := by
  constructor
  · intro k r hRow
    rw [find?_overwriteOlder h, hRow]
    refine ⟨_, rfl, ?_⟩
    dsimp only
    split
    · rename_i hOlder
      rw [W.stored_overwrite]
      exact ((W.newer_iff u r).mp hOlder).2.le
    · exact le_rfl
  · intro hKept r hRow
    cases h
    rw [W.table_withTable] at hRow
    rcases List.mem_map.mp hRow with ⟨old, hOld, rfl⟩
    split
    · rename_i hOlder
      exact hWrites.overwrite old ((W.newer_iff u old).mp hOlder).1
    · exact hKept old hOld

theorem reached_overwriteOlder (hStored : W.Stored u s) (h : W.overwriteOlder u s = .ok (n, t)) :
    W.Reached u t := by
  rcases hStored with ⟨r, hRow⟩
  have hKey := Table.key_of_find? hRow
  rw [Reached, find?_overwriteOlder h, hRow]
  refine ⟨_, rfl, ?_⟩
  dsimp only
  split
  · rw [W.stored_overwrite]
  · rename_i hNewer
    rw [W.newer_iff] at hNewer
    exact not_lt.mp fun hLt => hNewer ⟨hKey, hLt⟩

theorem stored_of_count (hCount : 0 < n) (h : W.overwriteOlder u s = .ok (n, t)) :
    W.Stored u s := by
  cases h
  rcases List.countP_pos_iff.mp hCount with ⟨r, hRow, hOlder⟩
  have hFound := Table.find?_of_mem hRow
  rw [((W.newer_iff u r).mp hOlder).1] at hFound
  exact ⟨r, hFound⟩

theorem create_taken (hInsert : (W.table s).insert? (W.row u) = none) :
    W.create u s = .error W.taken := by
  rw [create, hInsert]

theorem create_new {rows : Table ρ} (hInsert : (W.table s).insert? (W.row u) = some rows) :
    W.create u s = .ok ((), W.withTable s rows) := by
  rw [create, hInsert]

theorem move_create (hWrites : W.Writes I u) (h : W.create u s = .ok ((), t)) :
    (W.moves I).move s t ∧ W.Reached u t := by
  unfold create at h
  split at h
  · cases h
  · rename_i rows hInsert
    cases h
    rcases Table.insert?_eq_some hInsert with ⟨hFresh, hRows⟩
    refine ⟨⟨?_, ?_⟩, W.row u, ?_, (W.stored_row u).ge⟩
    · intro k r hRow
      rw [W.table_withTable]
      refine ⟨r, ?_, le_rfl⟩
      rw [Table.find?_insert? hInsert, if_neg]
      · exact hRow
      · rintro rfl
        rw [hFresh] at hRow
        cases hRow
    · intro hKept r hRow
      rw [W.table_withTable, hRows] at hRow
      rcases List.mem_append.mp hRow with hOld | hNew
      · exact hKept r hOld
      · rw [List.mem_singleton.mp hNew]
        exact hWrites.row
    · rw [W.table_withTable, Table.find?_insert? hInsert]
      exact if_pos (W.key_row u).symm

/- A row that cannot be created is there already. -/
theorem stored_of_create {error : ε} (h : W.create u s = .error error) : W.Stored u s := by
  unfold create at h
  split at h
  · rename_i hInsert
    rw [Table.insert?_eq_none_iff, ← not_not (a := _ ∈ _),
      ← Table.find?_eq_none_iff, W.key_row] at hInsert
    exact Option.ne_none_iff_exists'.mp hInsert
  · cases h

end NewestWins

-- What a Writer Promises
----

namespace NewestWins

open Program

variable {σ ε υ ρ κ π : Type} [Keyed ρ κ] [LinearOrder π] [DecidableEq κ]
variable {W : NewestWins σ ε υ ρ κ π} {I : ρ → Prop} {u : υ} {s : σ}

theorem promises_firstOverwrite (hWrites : W.Writes I u) :
    (execute W.fault (W.overwriteOlder u)).Promises (W.moves I) (fun n t => 0 < n → W.Reached u t)
      (fun _ _ => True) s := by
  apply promises_execute
  · intro t n t' _ hOk
    refine ⟨move_overwriteOlder hWrites hOk, ?_⟩
    intro hCount
    exact reached_overwriteOlder (stored_of_count hCount hOk) hOk
  · exact fun _ _ _ _ => trivial
  · exact fun _ => trivial
  · exact fun _ t t' hMove hReached hCount => stable_reached t t' hMove (hReached hCount)
  · exact fun _ _ _ _ _ => trivial

/- A row that was there is no older afterwards. -/
theorem promises_secondOverwrite (hWrites : W.Writes I u) (hStored : W.Stored u s) :
    (execute W.fault (W.overwriteOlder u)).Promises (W.moves I)
      (fun _ => W.Reached u) (fun _ _ => True) s := by
  apply promises_execute
  · intro t n t' hMove hOk
    refine ⟨move_overwriteOlder hWrites hOk, ?_⟩
    exact reached_overwriteOlder (stable_stored s t hMove hStored) hOk
  · exact fun _ _ _ _ => trivial
  · exact fun _ => trivial
  · exact fun _ => stable_reached
  · exact fun _ _ _ _ _ => trivial

theorem promises_create (hWrites : W.Writes I u) :
    (execute W.fault (W.create u)).Promises (W.moves I) (fun _ => W.Reached u)
      (fun error t => error = W.taken → W.Stored u t) s := by
  apply promises_execute
  · exact fun t _ t' _ hOk => move_create hWrites hOk
  · exact fun t error _ hError _ => stored_of_create hError
  · exact fun _ hTaken => absurd hTaken W.fault_ne_taken
  · exact fun _ => stable_reached
  · exact fun _ t t' hMove hStored hError => stable_stored t t' hMove (hStored hError)

/- When the update has been applied, its row is stored and no older than it, and stays so. -/
theorem promises_apply [DecidableEq ε] (hWrites : W.Writes I u) :
    (W.apply u).Promises (W.moves I) (fun _ => W.Reached u) (fun _ _ => True) s := by
  refine (promises_firstOverwrite hWrites).bind ?_
  intro updated t hUpdated
  split
  · rename_i hCount
    exact promises_pure stable_reached (hUpdated hCount)
  · refine Promises.tryCatch ((promises_create hWrites).bind ?_) ?_
    · exact fun _ _ hReached => promises_pure stable_reached hReached
    · intro error t' hStored
      split
      · rename_i hError
        refine (promises_secondOverwrite hWrites (hStored hError)).bind ?_
        exact fun _ _ hReached => promises_pure stable_reached hReached
      · exact fun _ _ => trivial

/- A statement about other tables keeps any promise. -/
theorem promises_elsewhere {α : Type} {f : σ → Except ε (α × σ)}
    (hSame : ∀ s a t, f s = .ok (a, t) → W.table t = W.table s) :
    (execute W.fault f).Promises (W.moves I) (fun _ _ => True) (fun _ _ => True) s := by
  apply promises_execute
  · exact fun t a t' _ hOk => ⟨move_of_table_eq (hSame t a t' hOk), trivial⟩
  · exact fun _ _ _ _ => trivial
  · exact fun _ => trivial
  · exact fun _ _ _ _ _ => trivial
  · exact fun _ _ _ _ _ => trivial

end NewestWins

-- Runs of Writers
----

namespace NewestWins

open Program

variable {σ ε υ ρ κ π γ : Type} [Keyed ρ κ] [LinearOrder π] [DecidableEq κ]
variable {W : NewestWins σ ε υ ρ κ π} {I : ρ → Prop}

/- The updates that an element carries have been applied. -/
def Applied (W : NewestWins σ ε υ ρ κ π) (carried : γ → Option υ) (x : γ) (s : σ) : Prop :=
  ∀ u ∈ carried x, W.Reached u s

theorem stable_applied {carried : γ → Option υ} (x : γ) :
    (W.moves I).Stable (W.Applied carried x) :=
  fun s t hMove hApplied u hUpdate => stable_reached s t hMove (hApplied u hUpdate)

variable {carried : γ → Option υ} {handle : γ → Program σ ε Unit} {batches : List (List γ)} {s : σ}
variable {labels : List FaultMove} {pool : Pool σ ε Unit}

theorem applied_of_run {allowed : Pool σ ε Unit → FaultMove → Prop}
    (hHandle : ∀ batch ∈ batches, ∀ x ∈ batch, ∀ t, (handle x).Promises (W.moves I)
      (fun _ => W.Applied carried x) (fun _ _ => True) t)
    (hRun : RunsTo Pool.attempt allowed (Pool.start s (batches.map (forEach handle))) labels pool) :
    (W.moves I).move s pool.store ∧ ∀ (i : Nat) (batch : List γ) (call : Call σ ε Unit),
      batches[i]? = some batch → pool.calls[i]? = some call → call.program = .ret () →
        ∀ x ∈ batch, W.Applied carried x pool.store := by
  have hStart : (Pool.start s (batches.map (forEach handle))).Promises (W.moves I) (fun i _ t =>
    ∀ batch, batches[i]? = some batch → ∀ x ∈ batch, W.Applied carried x t)
    (fun _ _ _ => True) := by
    apply Pool.promises_start
    intro i p hp
    rw [List.getElem?_map] at hp
    rcases Option.map_eq_some_iff.mp hp with ⟨batch, hBatch, rfl⟩
    have hAll := promises_forEach stable_applied (hHandle batch (List.mem_of_getElem? hBatch)) s
    refine hAll.imp ?_ fun _ _ => id
    intro _ t hApplied batch' hBatch'
    rw [hBatch] at hBatch'
    cases hBatch'
    exact hApplied
  rcases Pool.promises_run hStart hRun with ⟨hMoved, hPromises⟩
  refine ⟨hMoved, ?_⟩
  intro i batch call hBatch hCall hEnded
  have hPromise := hPromises i call hCall
  rw [hEnded] at hPromise
  exact hPromise pool.store ((W.moves I).refl _) batch hBatch

theorem exists_newest {updates : List υ} {carries : υ → ρ → Prop} {u : υ}
    (hReached : ∀ other ∈ updates, W.Reached other s)
    (hRows : ∀ r ∈ (W.table s).rows, W.Shows updates carries r) (hUpdate : u ∈ updates) :
    ∃ newest ∈ updates, ∃ r, W.target newest = W.target u ∧
      (∀ other ∈ updates, W.target other = W.target u → W.position other ≤ W.position newest) ∧
      (W.table s).find? (W.target u) = some r ∧
      carries newest r := by
  rcases hReached u hUpdate with ⟨r, hRow, hLe⟩
  rcases hRows r (Table.mem_of_find? hRow) with hOld | ⟨newest, hNewest, hKey, hStored, hCarries⟩
  · exact absurd hLe (not_le.mpr (hOld u))
  · rw [Table.key_of_find? hRow] at hKey
    refine ⟨newest, hNewest, r, hKey.symm, ?_, hRow, hCarries⟩
    intro other hOther hTarget
    rcases hReached other hOther with ⟨r', hRow', hLe'⟩
    rw [hTarget, hRow] at hRow'
    cases hRow'
    rw [← hStored]
    exact hLe'

end NewestWins

end Transactional
