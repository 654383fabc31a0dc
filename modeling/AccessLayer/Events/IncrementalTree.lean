import AccessLayer.Events.Service

/-
  The incremental tree stores the reference tree.

  Inserting the next leaf rewrites the last node of every level.
  `ClimbedTo` describes the stored nodes while the loop climbs:
  the levels below have the new leaf, those above do not.

  Main result: `insertLeaves_eq_reference`
-/

-- Stored Trees
----

namespace AccessLayer

namespace Events

open Transactional Transactional.Program Merkle

section

open PromotionTree

variable (sha256 : Bytes → Bytes)

/- The stored nodes are exactly those of the reference tree. -/
def StoresTree (db : EventsDb) (partitionId : String) (leaves : List String) : Prop :=
  ∀ l p, db.nodeHash partitionId l p =
    if l ≤ Nat.clog 2 leaves.length then
      (level (hashPair sha256) l leaves)[p]?
    else none

/- Only nodes of one partition differ. -/
structure OutsideTree (partitionId : String) (db db' : EventsDb) : Prop where
  events : db'.events = db.events
  partitions : db'.partitions = db.partitions
  submitted : db'.submitted = db.submitted
  nodes : ∀ other l p, other ≠ partitionId → db'.nodeHash other l p = db.nodeHash other l p

theorem OutsideTree.refl (partitionId : String) (db : EventsDb) : OutsideTree partitionId db db :=
  ⟨rfl, rfl, rfl, fun _ _ _ _ => rfl⟩

theorem OutsideTree.trans {partitionId : String} {db db' db'' : EventsDb}
    (h : OutsideTree partitionId db db') (h' : OutsideTree partitionId db' db'') :
    OutsideTree partitionId db db'' where
  events := h'.events.trans h.events
  partitions := h'.partitions.trans h.partitions
  submitted := h'.submitted.trans h.submitted
  nodes := by
    intro other l p hOther
    rw [h'.nodes other l p hOther, h.nodes other l p hOther]

theorem outsideTree_putNode (partitionId : String) (level position : Nat) (hash : String)
    (db : EventsDb) :
    OutsideTree partitionId db (db.putNode partitionId level position hash) where
  events := rfl
  partitions := rfl
  submitted := rfl
  nodes := by
    intro other l p hOther
    rw [nodeHash_putNode, if_neg (by simp [hOther])]

theorem storesTree_nil {db : EventsDb} {partitionId : String}
    (hFresh : ∀ node ∈ db.nodes.rows, node.partitionId ≠ partitionId) :
    StoresTree sha256 db partitionId [] := by
  intro l p
  have hNone : db.nodes.find? (partitionId, l, p) = none := by
    apply List.find?_eq_none.mpr
    intro node hNode hKey
    have hEq : (node.partitionId, node.level, node.position) =
        (partitionId, l, p) := by
      simpa [key] using hKey
    exact hFresh node hNode (Prod.mk.inj hEq).1
  rw [EventsDb.nodeHash, hNone]
  by_cases hl : l = 0 <;> simp [hl]

-- Climbing
----

/- The stored nodes once the loop has reached level `k`. -/
def ClimbedTo (db : EventsDb) (partitionId : String) (leaves : List String) (leafHash : String)
    (k : Nat) : Prop :=
  ∀ l p, db.nodeHash partitionId l p =
    if l ≤ k then
      (level (hashPair sha256) l (leaves ++ [leafHash]))[p]?
    else if l ≤ Nat.clog 2 leaves.length then
      (level (hashPair sha256) l leaves)[p]?
    else none

variable {sha256 : Bytes → Bytes} {db : EventsDb} {partitionId : String} {leaves : List String}
variable {leafHash : String}

/-
  Writing the last node of level `k` brings the level up to
  date.  Above the old root there was no node yet.
-/
theorem nodeHash_putSpine {k : Nat} (p : Nat) (hOld : db.nodeHash partitionId k p =
    if k ≤ Nat.clog 2 leaves.length then
      (level (hashPair sha256) k leaves)[p]?
    else none) :
    (db.putNode partitionId k (leaves.length / 2 ^ k)
      (spine (hashPair sha256) leaves leafHash k)).nodeHash partitionId k p =
      (level (hashPair sha256) k (leaves ++ [leafHash]))[p]? := by
  rw [nodeHash_putNode, getElem?_level_concat, hOld]
  by_cases hSpine : p = leaves.length / 2 ^ k
  · rw [if_pos ⟨rfl, rfl, hSpine⟩, if_neg (by omega), if_pos hSpine]
  · rw [if_neg (by simp [hSpine]), if_neg hSpine]
    by_cases hStored : k ≤ Nat.clog 2 leaves.length
    · rw [if_pos hStored]
      by_cases hLt : p < leaves.length / 2 ^ k
      · rw [if_pos hLt]
      · rw [if_neg hLt]
        have hDiv : width leaves.length k ≤ leaves.length / 2 ^ k + 1 := by
          rw [width_le_iff]
          have hPos : 0 < 2 ^ k := Nat.two_pow_pos k
          have hMod := Nat.div_add_mod leaves.length (2 ^ k)
          have hRest := Nat.mod_lt leaves.length hPos
          nlinarith
        apply List.getElem?_eq_none
        rw [length_level]
        omega
    · rw [if_neg hStored]
      have hZero : leaves.length / 2 ^ k = 0 := by
        apply Nat.div_eq_of_lt
        exact lt_of_le_of_lt (Nat.le_pow_clog (by omega) _)
          (Nat.pow_lt_pow_right (by omega) (by omega))
      rw [hZero]
      simp

variable {k : Nat}

/- One pass of the loop. -/
theorem climbedTo_succ (hClimbed : ClimbedTo sha256 db partitionId leaves leafHash k) :
    ClimbedTo sha256 (db.putNode partitionId (k + 1) (leaves.length / 2 ^ (k + 1))
      (spine (hashPair sha256) leaves leafHash (k + 1))) partitionId leaves leafHash (k + 1) := by
  intro l p
  by_cases hLevel : l = k + 1
  · subst hLevel
    rw [if_pos le_rfl]
    apply nodeHash_putSpine
    rw [hClimbed, if_neg (by omega)]
  · rw [nodeHash_putNode, if_neg (by simp [hLevel]), hClimbed]
    by_cases hBelow : l ≤ k
    · rw [if_pos hBelow, if_pos (by omega)]
    · have hAbove : ¬l ≤ k + 1 := by omega
      rw [if_neg hBelow, if_neg hAbove]

/- The hash that a pass of the loop writes. -/
theorem spine_succ_of_climbedTo (hClimbed : ClimbedTo sha256 db partitionId leaves leafHash k) :
    spine (hashPair sha256) leaves leafHash (k + 1) =
      if leaves.length / 2 ^ k % 2 = 1 then
        hashPair sha256 ((db.nodeHash partitionId k (leaves.length / 2 ^ k - 1)).getD
          (spine (hashPair sha256) leaves leafHash k))
          (spine (hashPair sha256) leaves leafHash k)
      else spine (hashPair sha256) leaves leafHash k := by
  rw [spine]
  by_cases hOdd : leaves.length / 2 ^ k % 2 = 1
  · have hPos : leaves.length / 2 ^ k ≠ 0 := by
      intro hZero
      simp [hZero] at hOdd
    have hLeft : leaves.length / 2 ^ k - 1 < leaves.length / 2 ^ k := Nat.sub_one_lt hPos
    have hBound : leaves.length / 2 ^ k - 1 <
        (level (hashPair sha256) k leaves).length := by
      rw [length_level]
      exact lt_of_lt_of_le hLeft (div_le_width _ _)
    rw [if_pos hOdd, if_pos hOdd, hClimbed, if_pos le_rfl, getElem?_level_concat, if_pos hLeft,
      List.getElem?_eq_getElem hBound]
    rfl
  · rw [if_neg hOdd, if_neg hOdd]

/- The loop writes the last node of every level it reaches. -/
theorem run_climbTree (remaining k : Nat)
    (hClimbed : ClimbedTo sha256 db partitionId leaves leafHash k) :
    ∃ db', (climbTree sha256 partitionId k (leaves.length / 2 ^ k)
      (spine (hashPair sha256) leaves leafHash k) remaining).run db = (.ok
        (spine (hashPair sha256) leaves leafHash (k + remaining)), db') ∧
      ClimbedTo sha256 db' partitionId leaves leafHash (k + remaining) ∧
      OutsideTree partitionId db db' := by
  induction remaining generalizing k db with
  | zero => exact ⟨db, rfl, hClimbed, OutsideTree.refl partitionId db⟩
  | succ remaining ih =>
    have hLevel : k + (remaining + 1) = k + 1 + remaining := by omega
    rcases ih (k + 1) (climbedTo_succ hClimbed) with ⟨db', hRun, hDone, hOutside⟩
    rw [hLevel]
    refine ⟨db', ?_, hDone, (outsideTree_putNode _ _ _ _ _).trans hOutside⟩
    rw [← hRun, climbTree, pow_succ, ← Nat.div_div_eq_div_mul]
    have hSpine := spine_succ_of_climbedTo hClimbed
    by_cases hOdd : leaves.length / 2 ^ k % 2 = 1
    · rw [if_pos hOdd] at hSpine ⊢
      simp only [run_bind, run_findNode, run_upsertNode]
      rw [hSpine, EventsDb.nodeHash]
      cases db.nodes.find? (partitionId, k, leaves.length / 2 ^ k - 1) <;> rfl
    · rw [if_neg hOdd] at hSpine ⊢
      simp only [run_bind, run_upsertNode]
      rw [hSpine]

end

-- Extending and Reading the Tree
----

section

open PromotionTree

variable {sha256 : Bytes → Bytes} {db : EventsDb} {partitionId : String} {leaves : List String}

theorem maxLevel_eq_clog (treeSize : Nat) : maxLevel treeSize = Nat.clog 2 treeSize := by
  rw [maxLevel]
  split
  · rw [Nat.clog_of_right_le_one (by omega)]
  · rfl

/- The last node of the top level is the root. -/
theorem spine_clog (leafHash : String) :
    spine (hashPair sha256) leaves leafHash (Nat.clog 2 (leaves.length + 1)) =
      referenceRoot sha256 (leaves ++ [leafHash]) := by
  have hZero : leaves.length /
      2 ^ Nat.clog 2 (leaves.length + 1) = 0 := by
    apply Nat.div_eq_of_lt
    exact Nat.le_pow_clog (by omega) (leaves.length + 1)
  rw [buildFullReferenceMerkleTree_root, root, List.length_append, List.length_singleton,
    getElem?_level_concat, hZero]
  rfl

theorem run_extendTreeIncremental (hStored : StoresTree sha256 db partitionId leaves)
    (leafHash : String) :
    ∃ db', (extendTreeIncremental sha256 partitionId leaves.length leafHash).run db =
      (.ok (referenceRoot sha256 (leaves ++ [leafHash])), db') ∧
      StoresTree sha256 db' partitionId (leaves ++ [leafHash]) ∧
      OutsideTree partitionId db db' := by
  have hLeaf : ClimbedTo sha256 (db.putNode partitionId 0 leaves.length leafHash)
      partitionId leaves leafHash 0 := by
    intro l p
    by_cases hLevel : l = 0
    · subst hLevel
      have hSpine := @nodeHash_putSpine sha256 db partitionId leaves leafHash 0 p (hStored 0 p)
      rw [pow_zero, Nat.div_one] at hSpine
      rw [if_pos le_rfl]
      exact hSpine
    · have hAbove : ¬l ≤ 0 := by omega
      rw [nodeHash_putNode, if_neg (by simp [hLevel]), hStored, if_neg hAbove]
  rcases run_climbTree (Nat.clog 2 (leaves.length + 1)) 0 hLeaf with ⟨db', hRun, hDone, hOutside⟩
  refine ⟨db', ?_, ?_, (outsideTree_putNode _ _ _ _ _).trans hOutside⟩
  · rw [Nat.zero_add, spine_clog, pow_zero, Nat.div_one] at hRun
    rw [← hRun, extendTreeIncremental, maxLevel_eq_clog]
    rfl
  · intro l p
    rw [hDone, Nat.zero_add, List.length_append, List.length_singleton]
    by_cases hl : l ≤ Nat.clog 2 (leaves.length + 1)
    · rw [if_pos hl, if_pos hl]
    · have hOld : ¬l ≤ Nat.clog 2 leaves.length := by
        have hMono : Nat.clog 2 leaves.length ≤ Nat.clog 2 (leaves.length + 1) :=
          Nat.clog_mono_right 2 (Nat.le_succ _)
        omega
      rw [if_neg hl, if_neg hl, if_neg hOld]

theorem run_getRootFromState (hStored : StoresTree sha256 db partitionId leaves) :
    (getRootFromState partitionId leaves.length).run db =
      (.ok (referenceRoot sha256 leaves), db) := by
  rw [getRootFromState, buildFullReferenceMerkleTree_root]
  by_cases hEmpty : leaves.length = 0
  · rw [if_pos hEmpty, List.length_eq_zero_iff.mp hEmpty]
    simp [root]
  · have hRoot := hStored (Nat.clog 2 leaves.length) 0
    rw [if_pos le_rfl, EventsDb.nodeHash] at hRoot
    rw [if_neg hEmpty, maxLevel_eq_clog, root, ← hRoot]
    simp only [run_bind, run_findNode]
    cases db.nodes.find? (partitionId, Nat.clog 2 leaves.length, 0) <;> rfl

theorem nodeHash_eq_of_mem {node : MerkleTreeState} (hNode : node ∈ db.nodes.rows) :
    db.nodeHash node.partitionId node.level node.position = some node.hash := by
  have hFound := Table.find?_of_mem hNode
  have hKey : key node = (node.partitionId, node.level, node.position) := rfl
  rw [hKey] at hFound
  rw [EventsDb.nodeHash, hFound]
  rfl

theorem findLeaves_hashes (hStored : StoresTree sha256 db partitionId leaves) :
    ((db.nodes.rows.filter (fun node => node.partitionId = partitionId ∧
      node.level = 0)).insertionSort (fun a b => a.position ≤ b.position)).map
      MerkleTreeState.hash = leaves := by
  have hLevel : ∀ p, db.nodeHash partitionId 0 p = leaves[p]? := by
    intro p
    rw [hStored, if_pos (Nat.zero_le _), level_zero]
  apply map_insertionSort_position
  · have hKeys : ((db.nodes.rows.filter (fun node => node.partitionId = partitionId ∧
        node.level = 0)).map key).Nodup :=
      db.nodes.unique.sublist (List.filter_sublist.map key)
    rw [List.nodup_map_iff_inj_on (List.Nodup.of_map _ hKeys)]
    intro a ha b hb hPosition
    apply List.inj_on_of_nodup_map hKeys ha hb
    simp only [List.mem_filter, decide_eq_true_eq] at ha hb
    have hEqual : (a.partitionId, a.level, a.position) =
        (b.partitionId, b.level, b.position) := by
      rw [ha.2.1, ha.2.2, hb.2.1, hb.2.2, hPosition]
    exact hEqual
  · intro node hMem
    simp only [List.mem_filter, decide_eq_true_eq] at hMem
    rcases hMem with ⟨hNode, hPartition, hZero⟩
    have hHash := nodeHash_eq_of_mem hNode
    rw [hPartition, hZero, hLevel] at hHash
    exact hHash
  · intro p hp
    have hHash := hLevel p
    rw [List.getElem?_eq_getElem hp, EventsDb.nodeHash, Option.map_eq_some_iff] at hHash
    rcases hHash with ⟨node, hFound, -⟩
    have hKey : (node.partitionId, node.level, node.position) =
        (partitionId, 0, p) := Table.key_of_find? hFound
    simp only [Prod.mk.injEq] at hKey
    refine ⟨node, ?_, hKey.2.2⟩
    simp [Table.mem_of_find? hFound, hKey.1, hKey.2.1]

theorem run_recomputeRootFromState (hStored : StoresTree sha256 db partitionId leaves) :
    (recomputeRootFromState sha256 partitionId).run db =
      (.ok (referenceRoot sha256 leaves), db) := by
  have hHashes := findLeaves_hashes hStored
  rw [recomputeRootFromState, findLeaves, buildFullReferenceMerkleTree_root, ← collapse_eq_root]
  simp only [run_bind, run_query, hHashes, rehashLevels]
  split
  · rename_i hEmpty
    have hNone : leaves = [] := by
      rw [← hHashes, List.map_eq_nil_iff]
      exact List.length_eq_zero_iff.mp hEmpty
    rw [hNone, collapse, if_neg (by simp)]
    rfl
  · rfl

theorem nodeHash_eq_reference (hStored : StoresTree sha256 db partitionId leaves) (l p : Nat) :
    db.nodeHash partitionId l p = ((buildFullReferenceMerkleTree sha256
      leaves).levels[l]?).bind (fun nodes => nodes[p]?) := by
  rw [hStored]
  by_cases hEmpty : leaves = []
  · subst hEmpty
    cases l with
    | zero => simp [buildFullReferenceMerkleTree]
    | succ l => simp [buildFullReferenceMerkleTree]
  · rw [buildFullReferenceMerkleTree_levels sha256 (List.length_pos_iff.mpr hEmpty)]
    split <;> rfl

end

-- Inserting Leaves
----

variable (sha256 : Bytes → Bytes)

/- Insert leaves one at a time, from a first index on. -/
def insertLeaves (partitionId : String) (leafIndex : Nat) : List String → EventsM Unit
  | [] => return ()
  | leafHash :: rest => do
    let _ ← extendTreeIncremental sha256 partitionId leafIndex leafHash
    insertLeaves partitionId (leafIndex + 1) rest

variable {sha256}

theorem run_insertLeaves {partitionId : String} (rest leaves : List String) {db : EventsDb}
    (hStored : StoresTree sha256 db partitionId leaves) :
    ∃ db', (insertLeaves sha256 partitionId leaves.length rest).run db = (.ok (), db') ∧
      StoresTree sha256 db' partitionId (leaves ++ rest) := by
  induction rest generalizing leaves db with
  | nil => exact ⟨db, rfl, by simpa using hStored⟩
  | cons leafHash rest ih =>
    rcases run_extendTreeIncremental hStored leafHash with ⟨db₁, hRun, hNext, -⟩
    rcases ih (leaves ++ [leafHash]) hNext with ⟨db₂, hRest, hAll⟩
    rw [List.length_append, List.length_singleton] at hRest
    rw [List.append_assoc, List.singleton_append] at hAll
    refine ⟨db₂, ?_, hAll⟩
    simp only [insertLeaves, run_bind, hRun]
    exact hRest

/-
  The incremental tree over any leaves is the reference tree:
  its root, its root rehashed from the stored leaves, and its
  stored nodes.
-/
theorem insertLeaves_eq_reference (sha256 : Bytes → Bytes) (db : EventsDb) (partitionId : String)
    (leaves : List String) (hFresh : ∀ node ∈ db.nodes.rows, node.partitionId ≠ partitionId) :
    ∃ db', (insertLeaves sha256 partitionId 0 leaves).run db = (.ok (), db') ∧
      (getRootFromState partitionId leaves.length).run db' =
        (.ok (buildFullReferenceMerkleTree sha256 leaves).root, db') ∧
      (recomputeRootFromState sha256 partitionId).run db' =
        (.ok (buildFullReferenceMerkleTree sha256 leaves).root, db') ∧ ∀ l p,
        db'.nodeHash partitionId l p = ((buildFullReferenceMerkleTree sha256
          leaves).levels[l]?).bind (fun nodes => nodes[p]?) := by
  rcases run_insertLeaves leaves [] (storesTree_nil sha256 hFresh) with ⟨db', hRun, hStored⟩
  rw [List.nil_append] at hStored
  exact ⟨db', hRun, run_getRootFromState hStored, run_recomputeRootFromState hStored,
    nodeHash_eq_reference hStored⟩

/- Three leaves, with the identity for a hash function. -/
theorem insertLeaves_eq_reference_three :
    ∃ db', (insertLeaves id "p" 0 ["0a", "0b", "0c"]).run .empty = (.ok (), db') ∧
      (getRootFromState "p" 3).run db' = (.ok (buildFullReferenceMerkleTree id
        ["0a", "0b", "0c"]).root, db') ∧ (recomputeRootFromState id "p").run db' =
        (.ok (buildFullReferenceMerkleTree id ["0a", "0b", "0c"]).root, db') ∧ ∀ l p,
        db'.nodeHash "p" l p = ((buildFullReferenceMerkleTree id
          ["0a", "0b", "0c"]).levels[l]?).bind (fun nodes => nodes[p]?) :=
  insertLeaves_eq_reference id .empty "p" ["0a", "0b", "0c"] (by intro node hNode; cases hNode)

end Events

end AccessLayer
