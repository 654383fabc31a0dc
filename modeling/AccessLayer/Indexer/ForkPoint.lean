import AccessLayer.Indexer.ChainLinkage
import AccessLayer.Library.HashChains

/-
  Where the stored ledgers and the canonical chain part.

  The hash of a ledger commits to that of its parent.  What is
  stored are ledgers of one chain, perhaps with gaps, and old
  checkpoints carry no hash.

  Main result: `fork_point_exact`
-/

-- Header Chains
----

namespace AccessLayer

namespace Indexer

open Transactional HashChains

section

variable {parentOf : String → Option String} {first : Int} {chain : ChainDb} {header : LedgerHeader}
variable {fetchHeader : Int → Option LedgerHeader}

/- The headers of a chain that is linked by its hashes. -/
structure HeaderChain (parentOf : String → Option String) (first : Int) where
  header : Int → LedgerHeader
  sequence : ∀ n, (header n).sequence = n
  named : ∀ n, first ≤ n → (header n).previousLedgerHash = parentOf (header n).hash
  linked : ∀ n, first ≤ n → (header (n + 1)).previousLedgerHash = some (header n).hash

/- A chain of headers as a branch of hashes. -/
def HeaderChain.branch (headers : HeaderChain parentOf first) : Branch parentOf first where
  hash n := (headers.header n).hash
  linked n hFirst := by
    rw [← headers.named (n + 1) (by omega), headers.linked n hFirst]

/- Checkpoints are of some ledgers of one chain. -/
def StoredFrom (stored : HeaderChain parentOf first) (chain : ChainDb) : Prop :=
  ∀ row ∈ chain.ledgerCheckpoint.rows, first ≤ row.ledger ∧ ∀ hash, row.ledgerHash = some hash →
    hash = (stored.header row.ledger).hash

/- The stored hash is the one on the canonical chain. -/
def AgreesWith (canonical : HeaderChain parentOf first) (row : LedgerCheckpoint) : Prop :=
  row.ledgerHash = some (canonical.header row.ledger).hash

instance (canonical : HeaderChain parentOf first) (row : LedgerCheckpoint) :
    Decidable (AgreesWith canonical row) := inferInstanceAs (Decidable (_ = _))

/- The walk comes to a checkpoint that agrees, or it goes through all of them. -/
def WithinWalkBack (canonical : HeaderChain parentOf first) (sequence : Int)
    (chain : ChainDb) : Prop :=
  (∃ row ∈ storedBelow chain sequence, AgreesWith canonical row) ∨
    (chain.ledgerCheckpoint.rows.filter fun row =>
      row.ledger < sequence).length ≤ MAX_FORK_WALKBACK_LEDGERS

/- Each ledger below the incoming one can be fetched. -/
def Fetches (canonical : HeaderChain parentOf first) (sequence : Int)
    (fetchHeader : Int → Option LedgerHeader) : Prop :=
  ∀ n, first ≤ n → n < sequence → fetchHeader n = some (canonical.header n)

variable {canonical : HeaderChain parentOf first} {sequence : Int}

/- The header tells its parent's hash; the others are fetched. -/
theorem incomingHash_eq {n : Int} (hFetch : Fetches canonical sequence fetchHeader)
    (hFirst : first ≤ n) (hBelow : n < sequence) :
    incomingHash (canonical.header sequence) (some fetchHeader) n =
      some (canonical.header n).hash := by
  unfold incomingHash
  rw [canonical.sequence]
  split
  · rename_i hParent
    have hLinked := canonical.linked n hFirst
    rwa [hParent, sub_add_cancel, ← hParent] at hLinked
  · rw [Option.bind_some, hFetch n hFirst hBelow]
    rfl

/- The walk ends at the first row that agrees. -/
theorem walkBack_eq {oldestStored : Int} {rows : List LedgerCheckpoint}
    (hFetch : Fetches canonical sequence fetchHeader)
    (hRows : ∀ row ∈ rows, first ≤ row.ledger ∧ row.ledger < sequence) :
    walkBack (canonical.header sequence) (some fetchHeader) oldestStored rows =
      match rows.find? fun row => AgreesWith canonical row with
      | some row => row.ledger
      | none => oldestStored - 1 := by
  induction rows with
  | nil => rfl
  | cons row rest ih =>
    rcases hRows row List.mem_cons_self with ⟨hFirst, hBelow⟩
    unfold walkBack
    rw [incomingHash_eq hFetch hFirst hBelow]
    dsimp only
    split
    · rename_i hAgrees
      have hTrue : decide (AgreesWith canonical row) = true := decide_eq_true hAgrees
      rw [List.find?_cons, hTrue]
    · rename_i hDiffers
      have hFalse : decide (AgreesWith canonical row) = false := decide_eq_false hDiffers
      rw [List.find?_cons, hFalse, ih fun r hr => hRows r (List.mem_cons_of_mem _ hr)]

end

-- Fork Points
----

variable {parentOf : String → Option String} {first : Int} {chain : ChainDb}
variable {stored canonical : HeaderChain parentOf first} {fetchHeader : Int → Option LedgerHeader}
variable {sequence : Int}

/- All the checkpoints below a ledger, the newest first. -/
def allBelow (chain : ChainDb) (sequence : Int) : List LedgerCheckpoint :=
  (chain.ledgerCheckpoint.rows.filter fun row =>
    row.ledger < sequence).insertionSort fun a b => b.ledger ≤ a.ledger

variable {row : LedgerCheckpoint}

theorem mem_allBelow :
    row ∈ allBelow chain sequence ↔ row ∈ chain.ledgerCheckpoint.rows ∧ row.ledger < sequence := by
  unfold allBelow
  rw [List.mem_insertionSort, List.mem_filter, decide_eq_true_eq]

/- The newest comes first. -/
theorem allBelow_pairwise (chain : ChainDb) (sequence : Int) :
    (allBelow chain sequence).Pairwise fun a b => b.ledger ≤ a.ledger := by
  exact List.pairwise_insertionSort _ _

/- The search reads a bounded number of rows. -/
theorem storedBelow_append :
    ∃ older, allBelow chain sequence = storedBelow chain sequence ++ older :=
  ⟨_, (List.take_append_drop MAX_FORK_WALKBACK_LEDGERS _).symm⟩

theorem mem_storedBelow_of_newer {older : LedgerCheckpoint}
    (hRow : row ∈ chain.ledgerCheckpoint.rows) (hBelow : row.ledger < sequence)
    (hOlder : older ∈ storedBelow chain sequence) (hNewer : older.ledger < row.ledger) :
    row ∈ storedBelow chain sequence := by
  rcases @storedBelow_append chain sequence with ⟨rest, hSplit⟩
  have hSorted := allBelow_pairwise chain sequence
  have hMem := mem_allBelow.mpr ⟨hRow, hBelow⟩
  rw [hSplit] at hSorted hMem
  rcases List.mem_append.mp hMem with hMem | hMem
  · exact hMem
  · have hLe := (List.pairwise_append.mp hSorted).2.2 older hOlder row hMem
    omega

theorem mem_storedBelow (hRow : row ∈ storedBelow chain sequence) :
    row ∈ chain.ledgerCheckpoint.rows ∧ row.ledger < sequence := by
  exact mem_allBelow.mp (List.mem_of_mem_take hRow)

/- What is newer than the found row disagrees. -/
theorem find?_storedBelow {found : LedgerCheckpoint} {p : LedgerCheckpoint → Bool}
    (hFound : (storedBelow chain sequence).find? p = some found)
    (hRow : row ∈ chain.ledgerCheckpoint.rows) (hBelow : row.ledger < sequence)
    (hNewer : found.ledger < row.ledger) :
    p row = false := by
  have hMem := mem_storedBelow_of_newer hRow hBelow (List.mem_of_find?_eq_some hFound) hNewer
  rcases List.find?_eq_some_iff_append.mp hFound with ⟨_, before, after, hSplit, hBefore⟩
  rcases @storedBelow_append chain sequence with ⟨rest, hAll⟩
  have hSorted := allBelow_pairwise chain sequence
  rw [hAll, hSplit] at hSorted
  rw [hSplit] at hMem
  rcases List.mem_append.mp hMem with hMem | hMem
  · simpa using hBefore row hMem
  · have hAfter := (List.pairwise_append.mp (List.pairwise_append.mp hSorted).1).2.1
    rcases List.mem_cons.mp hMem with rfl | hMem
    · omega
    · have hLe := List.rel_of_pairwise_cons hAfter hMem
      omega

/- The search in terms of the rows alone. -/
theorem findForkPoint_eq (hFetch : Fetches canonical sequence fetchHeader)
    (hStored : StoredFrom stored chain) :
    findForkPoint (canonical.header sequence) (some fetchHeader) chain = match
      (storedBelow chain sequence).find? fun row => AgreesWith canonical row with
      | some row => row.ledger
      | none =>
        match (storedBelow chain sequence).getLast? with
        | some oldest => oldest.ledger - 1
        | none => sequence - 1 := by
  unfold findForkPoint
  rw [canonical.sequence]
  dsimp only
  cases hLast : (storedBelow chain sequence).getLast? with
  | none =>
    rw [List.getLast?_eq_none_iff.mp hLast]
    rfl
  | some oldest =>
    refine walkBack_eq hFetch fun row hRow => ?_
    rcases mem_storedBelow hRow with ⟨hMem, hBelow⟩
    exact ⟨(hStored row hMem).1, hBelow⟩

theorem getLast?_storedBelow {oldest : LedgerCheckpoint}
    (hLast : (storedBelow chain sequence).getLast? = some oldest)
    (hRow : row ∈ storedBelow chain sequence) :
    oldest.ledger ≤ row.ledger := by
  rcases @storedBelow_append chain sequence with ⟨rest, hAll⟩
  have hSorted := allBelow_pairwise chain sequence
  rw [hAll] at hSorted
  have hStored := (List.pairwise_append.mp hSorted).1
  rcases List.getLast?_eq_some_iff.mp hLast with ⟨newer, hSplit⟩
  rw [hSplit] at hStored hRow
  rcases List.mem_append.mp hRow with hRow | hRow
  · exact (List.pairwise_append.mp hStored).2.2 row hRow oldest List.mem_cons_self
  · rw [List.mem_singleton.mp hRow]

/- A walk through all checkpoints leaves none out. -/
theorem storedBelow_of_few (hFew : (chain.ledgerCheckpoint.rows.filter fun row =>
    row.ledger < sequence).length ≤ MAX_FORK_WALKBACK_LEDGERS) {row : LedgerCheckpoint}
    (hRow : row ∈ chain.ledgerCheckpoint.rows) (hBelow : row.ledger < sequence) :
    row ∈ storedBelow chain sequence := by
  have hAll : storedBelow chain sequence = allBelow chain sequence := by
    apply List.take_of_length_le
    rwa [List.length_insertionSort]
  rw [hAll]
  exact mem_allBelow.mpr ⟨hRow, hBelow⟩

/- A row that agrees has the hash of both chains. -/
theorem hash_of_agreesWith (hStored : StoredFrom stored chain)
    (hRow : row ∈ chain.ledgerCheckpoint.rows) (hAgrees : AgreesWith canonical row) :
    stored.branch.hash row.ledger = canonical.branch.hash row.ledger := by
  exact ((hStored row hRow).2 _ hAgrees).symm

/- Both chains agree where a row does. -/
theorem agreesWith_of_hash (hStored : StoredFrom stored chain)
    (hRow : row ∈ chain.ledgerCheckpoint.rows) (hHash : row.ledgerHash ≠ none)
    (hAgree : stored.branch.hash row.ledger = canonical.branch.hash row.ledger) :
    AgreesWith canonical row := by
  rcases Option.ne_none_iff_exists'.mp hHash with ⟨hash, hSome⟩
  have hOwn := (hStored row hRow).2 hash hSome
  unfold AgreesWith
  rw [hSome, hOwn]
  exact congrArg some hAgree

/-
  When a stored ledger below the incoming one is not canonical,
  the checkpoints up to the fork point are of canonical ledgers
  and those above it are not.
-/
theorem fork_point_exact {parentOf : String → Option String} {first : Int}
    {stored canonical : HeaderChain parentOf first} {sequence : Int}
    {fetchHeader : Int → Option LedgerHeader} {chain : ChainDb} (hStored : StoredFrom stored chain)
    (hFetch : Fetches canonical sequence fetchHeader) (hDiverges :
      ∃ row ∈ chain.ledgerCheckpoint.rows, row.ledger < sequence ∧ row.ledgerHash ≠ none ∧
        ¬ AgreesWith canonical row) (hWithin : WithinWalkBack canonical sequence chain) :
    let forkPoint := findForkPoint (canonical.header sequence) (some fetchHeader) chain
    ∀ row ∈ chain.ledgerCheckpoint.rows, (row.ledger ≤ forkPoint → row.ledgerHash ≠ none →
      AgreesWith canonical row) ∧
      (forkPoint < row.ledger → ¬ AgreesWith canonical row) := by
  intro forkPoint row hRow
  have hFork : forkPoint = _ := findForkPoint_eq hFetch hStored
  rcases hDiverges with ⟨apart, hApartRow, hApartBelow, hHash, hApart⟩
  -- from the divergence on the chains have parted for good
  have hAbove : sequence ≤ row.ledger → ¬ AgreesWith canonical row := by
    intro hFrom hAgrees
    have hParted : stored.branch.hash apart.ledger ≠ canonical.branch.hash apart.ledger :=
      fun hAgree => hApart (agreesWith_of_hash hStored hApartRow hHash hAgree)
    exact Branch.apart_above (hStored apart hApartRow).1 (hApartBelow.le.trans hFrom) hParted
      (hash_of_agreesWith hStored hRow hAgrees)
  cases hFind : (storedBelow chain sequence).find? fun row => AgreesWith canonical row with
  | some found =>
    rw [hFind] at hFork
    have hFound : AgreesWith canonical found := by simpa using List.find?_some hFind
    have hFoundRow := (mem_storedBelow (List.mem_of_find?_eq_some hFind)).1
    rw [hFork]
    constructor
    · intro hLe hSome
      exact agreesWith_of_hash hStored hRow hSome (Branch.agree_below (hStored row hRow).1 hLe
        (hash_of_agreesWith hStored hFoundRow hFound))
    · intro hNewer
      by_cases hBelow : row.ledger < sequence
      · have hNone := find?_storedBelow hFind hRow hBelow hNewer
        simpa using hNone
      · exact hAbove (not_lt.mp hBelow)
  | none =>
    rw [hFind] at hFork
    have hNone : ∀ r ∈ storedBelow chain sequence,
        ¬ AgreesWith canonical r := by
      simpa using List.find?_eq_none.mp hFind
    have hFew : (chain.ledgerCheckpoint.rows.filter fun row => row.ledger < sequence).length ≤
        MAX_FORK_WALKBACK_LEDGERS := by
      rcases hWithin with ⟨r, hMem, hAgrees⟩ | hFew
      · exact absurd hAgrees (hNone r hMem)
      · exact hFew
    cases hLast : (storedBelow chain sequence).getLast? with
    | none =>
      have hMem := storedBelow_of_few hFew hApartRow hApartBelow
      rw [List.getLast?_eq_none_iff.mp hLast] at hMem
      cases hMem
    | some oldest =>
      rw [hLast] at hFork
      have hOldest := (mem_storedBelow (List.mem_of_getLast? hLast)).2
      rw [hFork]
      constructor
      · intro hLe _
        have hOlder : row.ledger < oldest.ledger := Int.lt_of_le_sub_one hLe
        have hMem := storedBelow_of_few hFew hRow (hOlder.trans hOldest)
        have hNewer := getLast?_storedBelow hLast hMem
        exact absurd hOlder (not_lt.mpr hNewer)
      · intro _
        by_cases hBelow : row.ledger < sequence
        · exact hNone row (storedBelow_of_few hFew hRow hBelow)
        · exact hAbove (not_lt.mp hBelow)

/- Hashes that are written with one letter for each ledger. -/
def sampleHash (letter : Char) (n : Int) : String := String.ofList (List.replicate n.toNat letter)

def sampleParentOf (hash : String) : Option String :=
  if hash.toList = [] then none
  else some (String.ofList hash.toList.tail)

theorem sampleParentOf_succ {letter : Char} {n : Int} (hFirst : 0 ≤ n) :
    sampleParentOf (sampleHash letter (n + 1)) = some (sampleHash letter n) := by
  unfold sampleParentOf sampleHash
  rw [String.toList_ofList, Int.toNat_add hFirst zero_le_one,
    Int.toNat_one, List.replicate_succ, if_neg (by simp)]
  rfl

def sampleHeaders (letter : Char) : HeaderChain sampleParentOf 0 where
  header n :=
    { sequence := n
      hash := sampleHash letter n
      previousLedgerHash := sampleParentOf (sampleHash letter n) }
  sequence _ := rfl
  named _ _ := rfl
  linked _ hFirst := sampleParentOf_succ hFirst

def sampleCheckpoint (n : Int) : LedgerCheckpoint where
  ledger := n
  ledgerHash := some (sampleHash 'f' n)
  previousLedgerHash := sampleParentOf (sampleHash 'f' n)
  lastProcessedEventIndex := 0
  batchHash := ""

/- Ledgers of a fork, one of them missing. -/
def forkedCheckpoints : ChainDb where
  ingestedEvent := .empty
  ledgerCheckpoint :=
    { rows := [0, 2, 3].map sampleCheckpoint
      unique := by decide }

theorem fork_point_exact_sample :
    let forkPoint :=
      findForkPoint ((sampleHeaders 'c').header 4)
        (some fun n => some ((sampleHeaders 'c').header n)) forkedCheckpoints
    forkPoint = 0 ∧ ∀ row ∈ forkedCheckpoints.ledgerCheckpoint.rows, forkPoint < row.ledger →
      ¬ AgreesWith (sampleHeaders 'c') row := by
  have hStored : StoredFrom (sampleHeaders 'f') forkedCheckpoints := by
    intro row hRow
    rcases List.mem_map.mp hRow with ⟨n, hn, rfl⟩
    refine ⟨?_, fun hash hHash => (Option.some.inj hHash).symm⟩
    simp only [List.mem_cons, List.not_mem_nil, or_false] at hn
    rcases hn with rfl | rfl | rfl <;> decide
  have hExact := @fork_point_exact _ _ _ (sampleHeaders 'c') 4 _ _ hStored (fun n _ _ => rfl)
      ⟨sampleCheckpoint 2, by decide, by decide, by decide, by decide⟩ (.inr (by decide))
  refine ⟨by decide, fun row hRow hAbove => ?_⟩
  exact (hExact row hRow).2 hAbove

end Indexer

end AccessLayer
