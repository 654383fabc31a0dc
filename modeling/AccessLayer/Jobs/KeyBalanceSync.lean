import AccessLayer.Keys.OverlappingBuybacks

/-
  The sync of stored balances from the chain, beside the
  indexing of trades (`src/jobs/key-balance-sync.worker.ts`).

  The trades of the chain are indexed one after another.  Sync
  runs, any number of them, go on between any two statements of
  the indexer, and each read of the chain is at a ledger of its
  own.  Logs are left out.

  Main result: `balances_agree`
-/

-- Sync Runs
----

namespace AccessLayer

namespace Jobs

open Transactional Program Indexer

section

/- The fold of trades at one position. -/
def onChainBalance (trades : List TradeFields) (ownerAddress creatorId : String) : ℚ :=
  ((trades.filter fun trade => (trade.actor, trade.creatorId) = (ownerAddress, creatorId)).map
    TradeFields.signedAmount).sum

abbrev OnChainKeyBalanceReader := String → String → Option ℚ

def tradesUpTo (ledger : Int) (chain : List TradeFields) : List TradeFields :=
  chain.filter fun trade => trade.ledger ≤ ledger

def readerAt (chain : List TradeFields) (ledger : Int) : OnChainKeyBalanceReader :=
  fun ownerAddress creatorId =>
    let trades := tradesUpTo ledger chain
    if trades.any fun trade => (trade.actor, trade.creatorId) = (ownerAddress, creatorId)
    then some (onChainBalance trades ownerAddress creatorId)
    else none

def KeyOwnership.withBalance (balance : ℚ) (row : KeyOwnership) : KeyOwnership :=
  { row with balance }

theorem KeyOwnership.key_withBalance (balance : ℚ) (row : KeyOwnership) :
    key (KeyOwnership.withBalance balance row) = key row := rfl

/- The update of a listed row, which must be stored still. -/
def setBalance (record : KeyOwnership) (balance : ℚ)
    (db : TradeDb) : Except IndexerError (Unit × TradeDb) :=
  match db.keyOwnership.find? (record.ownerAddress, record.creatorId) with
  | some _ =>
    .ok ((), db.updateOwnershipRow record.ownerAddress
      record.creatorId (KeyOwnership.withBalance balance)
      (KeyOwnership.key_withBalance balance))
  | none => .error .recordNotFound

/- A sync run, and what it has read so far. -/
inductive SyncWork where
  | listBalances
  | getOnChainBalance (record : KeyOwnership) (rest : List KeyOwnership) (corrected : ℕ)
  /- the new balance was read at the ledger -/
  | updateBalance (record : KeyOwnership) (ledger : Int) (newBalance : ℚ) (rest : List KeyOwnership)
    (corrected : ℕ)
  | ended (result : Except IndexerError ℕ)

/- The loop of which these rows are left. -/
def correcting : List KeyOwnership → ℕ → SyncWork
  | [], corrected => .ended (.ok corrected)
  | record :: rest, corrected => .getOnChainBalance record rest corrected

def executeSync (reader : OnChainKeyBalanceReader) (ledger : Int)
    (db : TradeDb) : SyncWork → Option (TradeDb × SyncWork)
  | .listBalances => some (db, correcting db.keyOwnership.rows 0)
  | .getOnChainBalance record rest corrected =>
    let newBalance := (reader record.ownerAddress record.creatorId).getD 0
    if record.balance = newBalance then
      some (db, correcting rest corrected)
    else
      some (db, .updateBalance record ledger newBalance rest corrected)
  | .updateBalance record _ newBalance rest corrected =>
    match setBalance record newBalance db with
    | .ok (_, db') => some (db', correcting rest (corrected + 1))
    | .error e => some (db, .ended (.error e))
  | .ended _ => none

end

-- Beside the Indexer
----

section

open Keys

/- What a trade changes its position by. -/
def changeBy (trade : TradeFields) (amount : ℚ) : KeyChange where
  ownerAddress := trade.actor
  creatorId := trade.creatorId
  amount

def changeOf (trade : TradeFields) : KeyChange := changeBy trade trade.signedAmount

/-
  The tables and the changes written, the trade that is being
  indexed and those after it, and the sync runs.
-/
structure SyncWorld where
  chain : List TradeFields
  holdings : HoldingDb
  current : HoldingWork
  pending : List TradeFields
  syncs : List SyncWork

/- Some trades of the chain have been indexed before. -/
def SyncWorld.start (db : TradeDb) (indexed pending : List TradeFields)
    (syncs : ℕ) : SyncWorld where
  chain := indexed ++ pending
  holdings := { db, changes := indexed.map changeOf }
  current := .ended (.ok ())
  pending := pending
  syncs := List.replicate syncs .listBalances

inductive SyncMove where
  | index
  | sync (i : ℕ) (ledger : Int)

namespace SyncWorld

/- The next trade follows once the last one is indexed. -/
def index (config : IndexerConfig) (world : SyncWorld) : Option SyncWorld :=
  match world.current, world.pending with
  | .ended (.ok _), trade :: rest =>
    some { world with
      current := (HoldingRequest.index trade).work config
      pending := rest }
  | current, _ =>
    (executeHoldingWork config current world.holdings).map fun after => { world with
          holdings := after.1
          current := after.2 }

def sync (world : SyncWorld) (i : ℕ) (ledger : Int) : Option SyncWorld :=
  match world.syncs[i]? with
  | some work =>
    (executeSync (readerAt world.chain ledger) ledger world.holdings.db work).map fun after =>
      { world with
        holdings := { world.holdings with db := after.1 }
        syncs := world.syncs.set i after.2 }
  | none => none

def step (config : IndexerConfig) (world : SyncWorld) : SyncMove → Option SyncWorld
  | .index => world.index config
  | .sync i ledger => world.sync i ledger

end SyncWorld

def Finished : HoldingWork → Prop
  | .ended (.ok _) => True
  | _ => False

instance : DecidablePred Finished := by
  intro work
  unfold Finished
  split <;> infer_instance

/- Every trade of the chain has been indexed. -/
def AllIndexed (world : SyncWorld) : Prop := Finished world.current ∧ world.pending = []

instance : DecidablePred AllIndexed := by
  intro world
  unfold AllIndexed
  infer_instance

/-
  Up to the ledger that a run has read for a position, the chain
  has as much of it as is indexed when the run overwrites it.
-/
def Current (world : SyncWorld) : SyncWork → Prop
  | .updateBalance record ledger _ _ _ =>
    onChainBalance (tradesUpTo ledger world.chain) record.ownerAddress record.creatorId =
      world.holdings.changed record.ownerAddress record.creatorId
  | _ => True

def InStep (world : SyncWorld) : SyncMove → Prop
  | .index => True
  | .sync i _ => ∀ work ∈ world.syncs[i]?, Current world work

instance (world : SyncWorld) (work : SyncWork) : Decidable (Current world work) := by
  unfold Current
  split <;> infer_instance

instance (world : SyncWorld) (move : SyncMove) : Decidable (InStep world move) :=
  match move with
  | .index => isTrue trivial
  | .sync _ _ => inferInstanceAs (Decidable (∀ work ∈ (_ : Option _), _))

-- Changes That Are Left to Write
----

/- What a trade that is being indexed has still to write. -/
def Unwritten (changes : List KeyChange) : HoldingWork → Prop
  | .findCreator _ _ _ | .findPosition _ _ _ | .pay _ _ => False
  | .prepare trade _ _ _ => changes = [changeOf trade]
  | .findBought trade | .buy trade _ => changes = [changeBy trade trade.amount]
  | .findSold trade | .sell trade _ | .findUncovered trade
  | .decrement trade => changes = [changeBy trade (-trade.amount)]
  | .complete _ _ _ => changes = []
  | .ended (.ok _) => changes = []
  | .ended (.error _) => True

variable {config : IndexerConfig} {s s' : HoldingDb} {call next : HoldingWork}
variable {changes : List KeyChange}

theorem unwritten_completing (p : IndexerM Unit) : Unwritten [] (completing p) := by
  cases p with
  | ret _ => exact rfl
  | raise _ => trivial
  | stmt _ _ _ => exact rfl

theorem unwritten_preparing (trade : TradeFields) (p : IndexerM Unit) :
    Unwritten [changeOf trade] (preparing trade p) := by
  cases p with
  | ret _ =>
    unfold preparing owning changeOf TradeFields.signedAmount
    cases trade.direction with
    | buy => exact rfl
    | sell => exact rfl
  | raise _ => trivial
  | stmt _ _ _ => exact rfl

/- What is completed or prepared does not sell yet. -/
theorem fresh_completing (p : IndexerM Unit) (outcome : Option Outcome) :
    Fresh s (completing p) outcome := by
  cases p with
  | _ => trivial

theorem fresh_preparing (trade : TradeFields) (p : IndexerM Unit) (outcome : Option Outcome) :
    Fresh s (preparing trade p) outcome := by
  cases p with
  | ret _ =>
    unfold preparing owning
    cases trade.direction with
    | _ => trivial
  | raise _ => trivial
  | stmt _ _ _ => trivial

theorem unwritten_work (trade : TradeFields) :
    Unwritten [changeOf trade] ((HoldingRequest.index trade).work config) := by
  unfold HoldingRequest.work
  exact unwritten_preparing trade _

theorem fresh_work (trade : TradeFields) (outcome : Option Outcome) :
    Fresh s ((HoldingRequest.index trade).work config) outcome := by
  unfold HoldingRequest.work
  exact fresh_preparing trade _ outcome

/-
  A statement of the indexer writes what is unwritten or leaves
  it, and a sale that is to be written has just been read.
-/
theorem indexing_step (hUnwritten : Unwritten changes call)
    (hExecute : executeHoldingWork config call s = some (s', next)) :
    (∃ left, Unwritten left next ∧ s'.changes ++ left = s.changes ++ changes) ∧
      Fresh s' next (some .served) := by
  cases call with
  | findCreator | findPosition | pay => exact hUnwritten.elim
  | prepare trade update rest onFault =>
    cases hExecute
    cases hUnwritten
    exact ⟨⟨_, unwritten_preparing trade _, rfl⟩, fresh_preparing trade _ _⟩
  | findBought trade =>
    cases hExecute
    exact ⟨⟨_, hUnwritten, rfl⟩, trivial⟩
  | buy trade existing =>
    cases hExecute
    cases hUnwritten
    exact ⟨⟨[], unwritten_completing _, List.append_nil _⟩, fresh_completing _ _⟩
  | findSold trade =>
    simp only [executeHoldingWork] at hExecute
    split at hExecute
    · cases hExecute
      exact ⟨⟨_, hUnwritten, rfl⟩, trivial⟩
    · rename_i existing hRow
      split at hExecute
      · cases hExecute
        exact ⟨⟨_, hUnwritten, rfl⟩, trivial⟩
      · cases hExecute
        refine ⟨⟨_, hUnwritten, rfl⟩, ?_⟩
        intro _
        rw [TradeDb.balance, hRow]
        rfl
  | sell trade existing =>
    simp only [executeHoldingWork] at hExecute
    split at hExecute
    · cases hExecute
      cases hUnwritten
      exact ⟨⟨[], unwritten_completing _, List.append_nil _⟩, fresh_completing _ _⟩
    · cases hExecute
      exact ⟨⟨_, hUnwritten, rfl⟩, trivial⟩
  | findUncovered trade =>
    cases hExecute
    exact ⟨⟨_, hUnwritten, rfl⟩, trivial⟩
  | decrement trade =>
    cases hExecute
    cases hUnwritten
    exact ⟨⟨[], unwritten_completing _, List.append_nil _⟩, fresh_completing _ _⟩
  | complete update rest onFault =>
    cases hExecute
    cases hUnwritten
    exact ⟨⟨[], unwritten_completing _, rfl⟩, fresh_completing _ _⟩
  | ended result => cases hExecute

/- Every balance is what the changes written amount to. -/
def Settled (s : HoldingDb) : Prop :=
  ∀ owner creator, s.db.balance owner creator = s.changed owner creator

variable {db : TradeDb}

theorem Settled.change {trade : TradeFields} {amount : ℚ} (h : Settled s)
    (hBalance : ∀ owner creator, db.balance owner creator = s.db.balance owner creator +
      if (owner, creator) = (trade.actor, trade.creatorId) then amount
      else 0) :
    Settled (s.change trade amount db) := by
  intro owner creator
  rw [changed_change, ← h owner creator]
  exact hBalance owner creator

/- The indexer keeps the balances settled by itself. -/
theorem Settled.step (h : Settled s) (hUnwritten : Unwritten changes call)
    (hFresh : Fresh s call (some .served)) (hStep : HoldingStep s call s' next) :
    Settled s' := by
  cases hStep with
  | stays hPositions =>
    intro owner creator
    have hOwnership := (Prod.mk.inj hPositions).1
    rw [TradeDb.balance, hOwnership]
    exact h owner creator
  | pays hRow => exact hUnwritten.elim
  | adds hBalance hPaid => exact h.change hBalance
  | @sells trade existing row next hRow =>
    have hRead : s.db.balance trade.actor trade.creatorId =
        existing.balance :=
      hFresh rfl
    apply h.change
    intro owner creator
    rw [balance_recordSell hRow]
    split
    · rename_i hSame
      cases hSame
      rw [hRead, sub_eq_add_neg]
    · rw [add_zero]

theorem changed_changeOf (db : TradeDb) (trades : List TradeFields) (owner creator : String) :
    HoldingDb.changed { db, changes := trades.map changeOf } owner creator =
      onChainBalance trades owner creator := by
  unfold HoldingDb.changed onChainBalance
  rw [List.filter_map, List.map_map]
  rfl

/- An overwrite sets one balance. -/
theorem balance_setBalance {record : KeyOwnership} {newBalance : ℚ} {db' : TradeDb}
    (hSet : setBalance record newBalance db = .ok ((), db')) (owner creator : String) :
    db'.balance owner creator =
      if (owner, creator) = (record.ownerAddress, record.creatorId)
      then newBalance
      else db.balance owner creator := by
  unfold setBalance at hSet
  split at hSet
  · rename_i row hRow
    cases hSet
    exact balance_update_position hRow (KeyOwnership.withBalance newBalance)
      (KeyOwnership.key_withBalance newBalance) rfl owner creator
  · cases hSet

/- A missing balance counts as zero, as the fold does. -/
theorem getD_readerAt (chain : List TradeFields) (ledger : Int) (owner creator : String) :
    (readerAt chain ledger owner creator).getD 0 =
      onChainBalance (tradesUpTo ledger chain) owner creator := by
  unfold readerAt
  dsimp only
  split
  · rfl
  · rename_i hNone
    rw [List.any_eq_true] at hNone
    unfold onChainBalance
    rw [List.filter_eq_nil_iff.mpr]
    · rfl
    · exact fun trade hTrade hSame => hNone ⟨trade, hTrade, hSame⟩

end

-- Balances of a Run
----

open Keys

def ReadFrom (chain : List TradeFields) : SyncWork → Prop
  | .updateBalance record ledger newBalance _ _ =>
    newBalance = onChainBalance (tradesUpTo ledger chain) record.ownerAddress record.creatorId
  | _ => True

/- What every run in step keeps. -/
structure Kept (world : SyncWorld) : Prop where
  settled : Settled world.holdings
  beside : world.current.Beside
  fresh : Fresh world.holdings world.current (some .served)
  unwritten : ∃ left, Unwritten left world.current ∧ world.holdings.changes ++ left ++
    world.pending.map changeOf = world.chain.map changeOf
  read : ∀ work ∈ world.syncs, ReadFrom world.chain work

variable {config : IndexerConfig} {world world' : SyncWorld} {s s' : HoldingDb} {db : TradeDb}

theorem Kept.start {indexed pending : List TradeFields}
    (hIndexed : ∀ owner creator, db.balance owner creator = onChainBalance indexed owner creator)
    (syncs : ℕ) :
    Kept (.start db indexed pending syncs) where
  settled := by
    intro owner creator
    exact (hIndexed owner creator).trans (changed_changeOf db indexed owner creator).symm
  beside := trivial
  fresh := trivial
  unwritten := by
    refine ⟨[], rfl, ?_⟩
    rw [List.append_nil]
    exact List.map_append.symm
  read := by
    intro work hWork
    rw [List.eq_of_mem_replicate hWork]
    trivial

/- The moves of the indexer. -/
inductive Indexed (config : IndexerConfig) (world : SyncWorld) : SyncWorld → Prop where
  | next {trade : TradeFields} {rest : List TradeFields}
    (hCurrent : world.current = .ended (.ok ())) (hPending : world.pending = trade :: rest) :
    Indexed config world { world with
      current := (HoldingRequest.index trade).work config
      pending := rest }
  | statement {holdings : HoldingDb} {current : HoldingWork}
    (hExecute :
      executeHoldingWork config world.current world.holdings = some (holdings, current)) :
    Indexed config world { world with holdings, current }

theorem SyncWorld.index_cases (hIndex : world.index config = some world') :
    Indexed config world world' := by
  unfold SyncWorld.index at hIndex
  split at hIndex
  · rename_i hCurrent hPending
    cases hIndex
    exact .next hCurrent hPending
  · rcases Option.map_eq_some_iff.mp hIndex with ⟨⟨holdings, current⟩, hExecute, rfl⟩
    exact .statement hExecute

theorem Kept.index (hKept : Kept world) (hIndex : world.index config = some world') :
    Kept world' := by
  rcases hKept.unwritten with ⟨left, hLeft, hChain⟩
  cases SyncWorld.index_cases hIndex with
  | next hCurrent hPending =>
    rename_i trade rest
    rw [hCurrent] at hLeft
    cases hLeft
    exact
      { settled := hKept.settled
        beside := beside_work (.index trade)
        fresh := fresh_work trade _
        unwritten :=
          ⟨[changeOf trade], unwritten_work trade, by
            rw [hPending] at hChain
            simpa using hChain⟩
        read := hKept.read }
  | statement hExecute =>
    rcases indexing_step hLeft hExecute with ⟨⟨left', hLeft', hChanges⟩, hFresh⟩
    exact
      { settled :=
          hKept.settled.step hLeft hKept.fresh (holding_step hKept.beside hExecute).1
        beside := (holding_step hKept.beside hExecute).2
        fresh := hFresh
        unwritten :=
          ⟨left', hLeft', by
            rw [hChanges]
            exact hChain⟩
        read := hKept.read }

theorem readFrom_correcting (chain : List TradeFields) (records : List KeyOwnership)
    (corrected : ℕ) :
    ReadFrom chain (correcting records corrected) := by
  cases records with
  | _ => trivial

variable {ledger : Int}

/- A statement of a sync run in step leaves every balance, and what it reads is the chain's. -/
theorem sync_step {chain : List TradeFields} {work next : SyncWork} (hSettled : Settled s)
    (hRead : ReadFrom chain work) (hCurrent :
      ∀ record readAt newBalance rest corrected, work = .updateBalance record readAt newBalance rest
        corrected → onChainBalance (tradesUpTo readAt chain)
        record.ownerAddress record.creatorId = s.changed record.ownerAddress record.creatorId)
    (hExecute : executeSync (readerAt chain ledger) ledger s.db work = some (db, next)) :
    (∀ owner creator, db.balance owner creator = s.db.balance owner creator) ∧
      ReadFrom chain next := by
  cases work with
  | listBalances =>
    cases hExecute
    exact ⟨fun _ _ => rfl, readFrom_correcting _ _ _⟩
  | getOnChainBalance record rest corrected =>
    simp only [executeSync] at hExecute
    split at hExecute
    · cases hExecute
      exact ⟨fun _ _ => rfl, readFrom_correcting _ _ _⟩
    · cases hExecute
      exact ⟨fun _ _ => rfl, getD_readerAt _ _ _ _⟩
  | updateBalance record readAt newBalance rest corrected =>
    simp only [executeSync] at hExecute
    cases hSet : setBalance record newBalance s.db with
    | ok result =>
      simp only [hSet] at hExecute
      cases hExecute
      refine ⟨?_, readFrom_correcting _ _ _⟩
      intro owner creator
      rw [balance_setBalance hSet]
      split
      · rename_i hSame
        cases hSame
        calc
          newBalance = onChainBalance (tradesUpTo readAt chain)
            record.ownerAddress record.creatorId :=
            hRead
          _ = s.changed record.ownerAddress
            record.creatorId :=
            hCurrent _ _ _ _ _ rfl
          _ = s.db.balance record.ownerAddress
            record.creatorId :=
            (hSettled _ _).symm
      · rfl
    | error e =>
      simp only [hSet] at hExecute
      cases hExecute
      exact ⟨fun _ _ => rfl, trivial⟩
  | ended result => cases hExecute

theorem fresh_of_balance {call : HoldingWork} {outcome : Option Outcome} (h : Fresh s call outcome)
    (hBalance : ∀ owner creator, s'.db.balance owner creator = s.db.balance owner creator) :
    Fresh s' call outcome := by
  cases call with
  | pay holderAddress terms =>
    intro hEffect
    rw [hBalance]
    exact h hEffect
  | sell trade existing =>
    intro hEffect
    rw [hBalance]
    exact h hEffect
  | _ => trivial

theorem Kept.sync {i : ℕ} (hKept : Kept world) (hInStep : InStep world (.sync i ledger))
    (hSync : world.sync i ledger = some world') :
    Kept world' := by
  unfold SyncWorld.sync at hSync
  split at hSync
  · rename_i work hWork
    rcases Option.map_eq_some_iff.mp hSync with ⟨⟨db, next⟩, hExecute, rfl⟩
    have hRead := hKept.read work (List.mem_of_getElem? hWork)
    have hCurrent := hInStep work hWork
    rcases sync_step hKept.settled hRead (by
      rintro record readAt newBalance rest corrected rfl
      exact hCurrent)
      hExecute with
      ⟨hBalance, hNext⟩
    exact
      { settled := by
          intro owner creator
          exact (hBalance owner creator).trans (hKept.settled owner creator)
        beside := hKept.beside
        fresh := fresh_of_balance hKept.fresh hBalance
        unwritten := hKept.unwritten
        read := by
          intro other hOther
          rcases List.mem_or_eq_of_mem_set hOther with hOld | rfl
          · exact hKept.read other hOld
          · exact hNext }
  · cases hSync

theorem Kept.step {move : SyncMove} (hKept : Kept world) (hInStep : InStep world move)
    (hStep : world.step config move = some world') :
    Kept world' ∧ world'.chain = world.chain := by
  cases move with
  | index =>
    refine ⟨hKept.index hStep, ?_⟩
    cases SyncWorld.index_cases hStep with
    | _ => rfl
  | sync i ledger =>
    refine ⟨hKept.sync hInStep hStep, ?_⟩
    change world.sync i ledger = some world' at hStep
    unfold SyncWorld.sync at hStep
    split at hStep
    · rcases Option.map_eq_some_iff.mp hStep with ⟨_, -, rfl⟩
      rfl
    · cases hStep

/- Once all trades are indexed, their changes are written. -/
theorem Kept.changed_eq (hKept : Kept world) (hAll : AllIndexed world) (owner creator : String) :
    world.holdings.changed owner creator = onChainBalance world.chain owner creator := by
  rcases hKept.unwritten with ⟨left, hLeft, hChain⟩
  rcases hAll with ⟨hFinished, hNone⟩
  have hWritten : left = [] := by
    unfold Finished at hFinished
    split at hFinished
    · rename_i hCurrent
      rw [hCurrent] at hLeft
      exact hLeft
    · exact hFinished.elim
  rw [hWritten, hNone, List.append_nil, List.map_nil, List.append_nil] at hChain
  rw [← changed_changeOf world.holdings.db world.chain]
  unfold HoldingDb.changed
  rw [hChain]

/- Ten keys of the holder, as the chain has them. -/
def tenOnChain : TradeFields := { fiveBought with amount := 10, ledger := 0 }

/- The key of which they are held, below its first milestone. -/
def heldKey : TradeDb :=
  { tenHeld with
    creatorProfile :=
      tenHeld.creatorProfile.update "K" (CreatorProfile.withSupply 10 0) (key_withSupply 10 0) }

theorem balance_heldKey (owner creator : String) :
    heldKey.balance owner creator = onChainBalance [tenOnChain] owner creator := by
  change (TradeDb.empty.incrementBalance "A" "K" 10).balance owner creator = _
  rw [balance_incrementBalance]
  by_cases hSame : (owner, creator) = ("A", "K")
  · cases hSame
    decide +kernel
  · unfold onChainBalance
    rw [if_neg hSame, add_zero, List.filter_eq_nil_iff.mpr]
    · rfl
    · intro trade hTrade hPlace
      rw [List.mem_singleton.mp hTrade] at hPlace
      exact hSame (of_decide_eq_true hPlace).symm

end Jobs

end AccessLayer
