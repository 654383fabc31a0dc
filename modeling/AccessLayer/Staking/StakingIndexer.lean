import AccessLayer.Indexer.EventFields

/-
  Staking receipt tokens
  (`src/modules/staking/staking-indexer.service.ts`).

  Identifiers that the database generates are left out: a token
  is identified by its token id, and a transfer by its event.
  Dates are in milliseconds.  Caches and logs are left out.

  Main result: `owners_right_iff`
-/

-- Events
----

namespace AccessLayer

namespace Staking

open Indexer

section

open Transactional Program

/- Both events bear the token; either names its own wallets. -/
structure StakeFields where
  tokenId : Option String
  ownerAddress : Option String
  keyId : Option String
  stakedAmount : Option ℚ
  mintTxHash : Option String
  mintedAt : Option Int
  lockExpiryLedger : Option Int
  lockExpiresAt : Option Int
  fromAddress : Option String
  toAddress : Option String
  occurredAt : Option Int
  deriving DecidableEq

abbrev StakeEvent := PipelineEvent StakeFields

def stakeNftMinted : String := "STAKE_NFT_MINTED"

def stakeNftTransferred : String := "STAKE_NFT_TRANSFERRED"

/- A mint whose required fields are all present. -/
structure StakeMint where
  tokenId : String
  ownerAddress : String
  keyId : String
  stakedAmount : ℚ
  mintTxHash : String
  mintedAt : Int
  ledger : Int
  lockExpiryLedger : Option Int
  lockExpiresAt : Option Int
  txHash : String
  eventIndex : Nat
  deriving DecidableEq

/- None where a field is missing. -/
def mintOf (event : StakeEvent) : Option StakeMint :=
  if event.eventType = stakeNftMinted then do
    let tokenId ← present event.payload.tokenId
    let ownerAddress ← present event.payload.ownerAddress
    let keyId ← present event.payload.keyId
    let stakedAmount ← event.payload.stakedAmount
    let mintTxHash ← present event.payload.mintTxHash
    let mintedAt ← event.payload.mintedAt
    let ledger ← event.ledger
    some {
      tokenId
      ownerAddress
      keyId
      stakedAmount
      mintTxHash
      mintedAt
      ledger
      lockExpiryLedger := event.payload.lockExpiryLedger
      lockExpiresAt := event.payload.lockExpiresAt
      txHash := event.txHash
      eventIndex := event.eventIndex }
  else none

/- A transfer whose required fields are all present. -/
structure StakeTransfer where
  tokenId : String
  fromAddress : String
  toAddress : String
  occurredAt : Int
  ledger : Int
  txHash : String
  eventIndex : Nat

/- The same of transfers. -/
def transferOf (event : StakeEvent) : Option StakeTransfer :=
  if event.eventType = stakeNftTransferred then do
    let tokenId ← present event.payload.tokenId
    let fromAddress ← present event.payload.fromAddress
    let toAddress ← present event.payload.toAddress
    let occurredAt ← event.payload.occurredAt
    let ledger ← event.ledger
    let txHash ← present (some event.txHash)
    some {
      tokenId
      fromAddress
      toAddress
      occurredAt
      ledger
      txHash
      eventIndex := event.eventIndex }
  else none

variable {event : StakeEvent} {mint : StakeMint}

/- No event is both. -/
theorem transferOf_of_mintOf (hMint : mintOf event = some mint) : transferOf event = none := by
  unfold mintOf at hMint
  split at hMint
  · rename_i hType
    unfold transferOf
    rw [hType]
    exact if_neg (by decide)
  · cases hMint

variable {transfer : StakeTransfer}

theorem mintOf_of_transferOf (hTransfer : transferOf event = some transfer) :
    mintOf event = none := by
  cases hMint : mintOf event with
  | none => rfl
  | some mint =>
    rw [transferOf_of_mintOf hMint] at hTransfer
    cases hTransfer

/- A mint is logged under its event. -/
theorem key_of_mintOf (hMint : mintOf event = some mint) :
    (mint.txHash, mint.eventIndex) = (event.txHash, event.eventIndex) := by
  unfold mintOf at hMint
  split at hMint
  · simp only [Option.bind_eq_bind, Option.bind_eq_some_iff] at hMint
    rcases hMint with ⟨_, _, _, _, _, _, _, _, _, _, _, _, _, _, hSame⟩
    cases hSame
    rfl
  · cases hMint

theorem key_of_transferOf (hTransfer : transferOf event = some transfer) :
    (transfer.txHash, transfer.eventIndex) = (event.txHash, event.eventIndex) := by
  unfold transferOf at hTransfer
  split at hTransfer
  · simp only [Option.bind_eq_bind, Option.bind_eq_some_iff] at hTransfer
    rcases hTransfer with ⟨_, _, _, _, _, _, _, _, _, _, txHash, hTx, hSame⟩
    cases hSame
    have hHash : event.txHash = txHash := Option.some.inj (Option.filter_eq_some_iff.mp hTx).1
    rw [hHash]
  · cases hTransfer

end

-- Tables
----

section

open Transactional Program

/- A receipt and its present owner. -/
structure StakingNft where
  tokenId : String
  ownerAddress : String
  keyId : String
  stakedAmount : ℚ
  lockExpiryLedger : Option Int
  lockExpiresAt : Option Int
  mintLedger : Int
  mintTxHash : String

instance : Keyed StakingNft String where
  key row := row.tokenId

/- A mint is a transfer from nobody. -/
structure StakingNftTransfer where
  tokenId : String
  fromAddress : Option String
  toAddress : String
  ledger : Int
  txHash : String
  eventIndex : Nat
  occurredAt : Int

instance : Keyed StakingNftTransfer (String × Nat) where
  key row := (row.txHash, row.eventIndex)

structure StakeActivity where
  type : String
  actor : String
  target : Option String
  creatorId : Option String
  tokenId : String
  stakedAmount : Option ℚ
  lockExpiryLedger : Option Int
  ledgerSequence : Int
  createdAt : Int

/- The tables that both handlers write. -/
structure StakingDb where
  stakingNft : Table StakingNft
  stakingNftTransfer : Table StakingNftTransfer
  activity : List StakeActivity

def StakingDb.empty : StakingDb where
  stakingNft := .empty
  stakingNftTransfer := .empty
  activity := []

abbrev StakingM := Program StakingDb IndexerError

/- The transaction hash of a mint is unique. -/
def StakingDb.hasMint (db : StakingDb) (mintTxHash : String) : Bool :=
  db.stakingNft.rows.any (·.mintTxHash = mintTxHash)

/- Only the owner changes. -/
def StakingNft.giveTo (ownerAddress : String) (row : StakingNft) : StakingNft :=
  { row with ownerAddress }

theorem StakingNft.key_giveTo (ownerAddress : String) (row : StakingNft) :
    key (row.giveTo ownerAddress) = key row := rfl

namespace StakeMint

variable (mint : StakeMint)

def row : StakingNft where
  tokenId := mint.tokenId
  ownerAddress := mint.ownerAddress
  keyId := mint.keyId
  stakedAmount := mint.stakedAmount
  lockExpiryLedger := mint.lockExpiryLedger
  lockExpiresAt := mint.lockExpiresAt
  mintLedger := mint.ledger
  mintTxHash := mint.mintTxHash

def transfer : StakingNftTransfer where
  tokenId := mint.tokenId
  fromAddress := none
  toAddress := mint.ownerAddress
  ledger := mint.ledger
  txHash := mint.txHash
  eventIndex := mint.eventIndex
  occurredAt := mint.mintedAt

def activity : StakeActivity where
  type := stakeNftMinted
  actor := mint.ownerAddress
  target := none
  creatorId := some mint.keyId
  tokenId := mint.tokenId
  stakedAmount := some mint.stakedAmount
  lockExpiryLedger := mint.lockExpiryLedger
  ledgerSequence := mint.ledger
  createdAt := mint.mintedAt

end StakeMint

namespace StakeTransfer

variable (transfer : StakeTransfer)

def key : String × Nat := (transfer.txHash, transfer.eventIndex)

def row : StakingNftTransfer where
  tokenId := transfer.tokenId
  fromAddress := some transfer.fromAddress
  toAddress := transfer.toAddress
  ledger := transfer.ledger
  txHash := transfer.txHash
  eventIndex := transfer.eventIndex
  occurredAt := transfer.occurredAt

def activity : StakeActivity where
  type := stakeNftTransferred
  actor := transfer.fromAddress
  target := some transfer.toAddress
  creatorId := none
  tokenId := transfer.tokenId
  stakedAmount := none
  lockExpiryLedger := none
  ledgerSequence := transfer.ledger
  createdAt := transfer.occurredAt

end StakeTransfer

end

-- Handlers
----

section

open Transactional Program

/- The activity types that the generated client knows. -/
variable (accepts : String → Bool)

def createActivity (activity : StakeActivity)
    (db : StakingDb) : Except IndexerError (Unit × StakingDb) :=
  if accepts activity.type then
    .ok ((), { db with activity := db.activity ++ [activity] })
  else .error (.invalidEnumValue activity.type)

/- The receipt, its first transfer and the activity, or none. -/
def createMint (mint : StakeMint) (db : StakingDb) : Except IndexerError (Unit × StakingDb) :=
  if db.hasMint mint.mintTxHash then .error .uniqueViolation
  else
    match db.stakingNft.insert? mint.row, db.stakingNftTransfer.insert? mint.transfer with
    | some stakingNft, some stakingNftTransfer =>
      createActivity accepts mint.activity { db with stakingNft, stakingNftTransfer }
    | _, _ => .error .uniqueViolation

/- An update of the owner, and the transfer that it is due to. -/
def createTransfer (transfer : StakeTransfer)
    (db : StakingDb) : Except IndexerError (Unit × StakingDb) :=
  match db.stakingNft.find? transfer.tokenId, db.stakingNftTransfer.insert? transfer.row with
  | none, _ => .error .recordNotFound
  | some _, none => .error .uniqueViolation
  | some _, some stakingNftTransfer =>
    createActivity accepts transfer.activity { db with
        stakingNft :=
          db.stakingNft.update transfer.tokenId (.giveTo transfer.toAddress)
            (StakingNft.key_giveTo transfer.toAddress)
        stakingNftTransfer }

/- A mint whose transaction was recorded is skipped. -/
def recordMint (mint : StakeMint) : StakingM Unit := do
  let existing ← query .database fun db => db.hasMint mint.mintTxHash
  if existing then pure ()
  else execute .database (createMint accepts mint)

/- So is a transfer that was recorded or has no token. -/
def recordTransfer (transfer : StakeTransfer) : StakingM Unit := do
  let existingTransfer ← query .database fun db => (db.stakingNftTransfer.find? transfer.key).isSome
  if existingTransfer then pure ()
  else do
    let nft ← query .database fun db => (db.stakingNft.find? transfer.tokenId).isSome
    if nft then execute .database (createTransfer accepts transfer)
    else pure ()

/- Events that tell of no mint are skipped. -/
def handleMinted (event : StakeEvent) : StakingM Unit :=
  match mintOf event with
  | none => pure ()
  | some mint => recordMint accepts mint

def handleTransferred (event : StakeEvent) : StakingM Unit :=
  match transferOf event with
  | none => pure ()
  | some transfer => recordTransfer accepts transfer

def processStakeNftMintedEvents (events : List StakeEvent) : StakingM Unit :=
  forEach (handleMinted accepts) (PipelineEvent.dedupe events)

def processStakeNftTransferredEvents (events : List StakeEvent) : StakingM Unit :=
  forEach (handleTransferred accepts) (PipelineEvent.dedupe events)

end

-- What a Handler Leaves
----

section

open Transactional Program

variable (accepts : String → Bool)

/- What a mint leaves, whether or not its transaction fails. -/
def mintEffect (mint : StakeMint) (db : StakingDb) : StakingDb :=
  if db.hasMint mint.mintTxHash then db
  else written (createMint accepts mint) db

/- A transfer of an unknown token is skipped. -/
def transferEffect (transfer : StakeTransfer) (db : StakingDb) : StakingDb :=
  if (db.stakingNftTransfer.find? transfer.key).isSome then db
  else if (db.stakingNft.find? transfer.tokenId).isSome then
    written (createTransfer accepts transfer) db
  else db

/- What its handler does with an event. -/
def effect (event : StakeEvent) (db : StakingDb) : StakingDb :=
  match mintOf event, transferOf event with
  | some mint, _ => mintEffect accepts mint db
  | none, some transfer => transferEffect accepts transfer db
  | none, none => db

variable {accepts} {db : StakingDb}

/- The statements leave just the effect. -/
theorem run_recordMint (mint : StakeMint) :
    ((recordMint accepts mint).run db).2 = mintEffect accepts mint db := by
  unfold recordMint mintEffect
  simp only [run_bind, run_query]
  split
  · rfl
  · rw [run_execute]
    unfold written
    cases createMint accepts mint db with
    | ok result => rfl
    | error e => rfl

theorem run_recordTransfer (transfer : StakeTransfer) :
    ((recordTransfer accepts transfer).run db).2 = transferEffect accepts transfer db := by
  unfold recordTransfer transferEffect
  simp only [run_bind, run_query]
  split
  · rfl
  · simp only [run_bind, run_query]
    split
    · rw [run_execute]
      unfold written
      cases createTransfer accepts transfer db with
      | ok result => rfl
      | error e => rfl
    · rfl

/- A write of an activity of unknown type is rolled back. -/
theorem mintEffect_of_unknown (hUnknown : accepts stakeNftMinted = false) (mint : StakeMint)
    (db : StakingDb) :
    mintEffect accepts mint db = db := by
  unfold mintEffect
  split
  · rfl
  · rename_i hNew
    unfold written createMint
    rw [if_neg hNew]
    split
    · rename_i hOk
      split at hOk
      · unfold createActivity at hOk
        rw [show mint.activity.type = stakeNftMinted from rfl, hUnknown] at hOk
        cases hOk
      · cases hOk
    · rfl

/- An activity that is refused takes the transfer with it. -/
theorem transferEffect_of_unknown (hUnknown : accepts stakeNftTransferred = false)
    (transfer : StakeTransfer) (db : StakingDb) :
    transferEffect accepts transfer db = db := by
  unfold transferEffect
  split
  · rfl
  · split
    · unfold written createTransfer
      split
      · rename_i hOk
        split at hOk
        · cases hOk
        · cases hOk
        · unfold createActivity at hOk
          rw [show transfer.activity.type = stakeNftTransferred from rfl, hUnknown] at hOk
          cases hOk
      · rfl
    · rfl

/- Either nothing happens or the token changes hands. -/
theorem transferEffect_cases (transfer : StakeTransfer) (db : StakingDb) :
    (transferEffect accepts transfer db = db ∧ ((db.stakingNftTransfer.find? transfer.key).isSome ∨
      db.stakingNft.find? transfer.tokenId = none ∨ accepts stakeNftTransferred = false)) ∨
      db.stakingNftTransfer.find? transfer.key = none ∧ accepts stakeNftTransferred ∧ ∃ row,
        db.stakingNft.find? transfer.tokenId = some row ∧
          (transferEffect accepts transfer db).stakingNft = db.stakingNft.update transfer.tokenId
            (.giveTo transfer.toAddress) (StakingNft.key_giveTo transfer.toAddress) ∧
          db.stakingNftTransfer.insert? transfer.row = some (transferEffect accepts transfer
            db).stakingNftTransfer := by
  cases hKnown : accepts stakeNftTransferred with
  | false =>
    left
    exact ⟨transferEffect_of_unknown hKnown transfer db, Or.inr (Or.inr rfl)⟩
  | true =>
    unfold transferEffect
    cases hStored : db.stakingNftTransfer.find? transfer.key with
    | some stored => exact Or.inl ⟨rfl, Or.inl rfl⟩
    | none =>
      cases hRow : db.stakingNft.find? transfer.tokenId with
      | none => exact Or.inl ⟨rfl, Or.inr (Or.inl rfl)⟩
      | some row =>
        right
        have hInsert : db.stakingNftTransfer.insert? transfer.row = some
            (db.stakingNftTransfer.create transfer.row hStored) :=
          Table.insert?_of_fresh hStored
        refine ⟨rfl, rfl, row, rfl, ?_⟩
        simp [written, createTransfer, hRow, hInsert,
          createActivity, StakeTransfer.activity, hKnown]

end

-- Schedules
----

section

open Transactional Program

/- The handlers of the two streams. -/
inductive StakeHandler where
  | minted
  | transferred
  deriving DecidableEq

/- The events that a handler acts on. -/
def StakeHandler.handles : StakeHandler → StakeEvent → Bool
  | .minted, event => (mintOf event).isSome
  | .transferred, event => (transferOf event).isSome

/- Events that one handler is called with. -/
structure StakeBatch where
  handler : StakeHandler
  events : List StakeEvent

def StakeBatch.process (accepts : String → Bool) (batch : StakeBatch) : StakingM Unit :=
  match batch.handler with
  | .minted => processStakeNftMintedEvents accepts batch.events
  | .transferred => processStakeNftTransferredEvents accepts batch.events

/- A batch that fails keeps what it has done. -/
def runBatches (accepts : String → Bool) (batches : List StakeBatch) (db : StakingDb) : StakingDb :=
  batches.foldl (fun db batch => ((batch.process accepts).run db).2) db

/- The events that the handlers act on, in the order of that. -/
def StakeBatch.arrivals (batch : StakeBatch) : List StakeEvent :=
  (PipelineEvent.dedupe batch.events).filter batch.handler.handles

/-
  The events of the receipt tokens in chain order, and batches
  that deliver each of them to its handler, in any order and any
  number of times.  Identifiers are unique, and a token is minted
  once.
-/
structure StakeSchedule where
  accepts : String → Bool
  chain : List StakeEvent
  batches : List StakeBatch
  identified : (chain.map PipelineEvent.id).Nodup
  mintedOnce : ∀ event ∈ chain, ∀ other ∈ chain, ∀ mint mint',
    mintOf event = some mint → mintOf other = some mint' →
      mint.tokenId = mint'.tokenId → event = other
  sound : ∀ batch ∈ batches, ∀ event ∈ batch.events, event ∈ chain
  complete : ∀ event ∈ chain, ∀ handler : StakeHandler, handler.handles event → ∃ batch ∈ batches,
    batch.handler = handler ∧ event ∈ batch.events

namespace StakeSchedule

variable (S : StakeSchedule)

def arrivals : List StakeEvent := S.batches.flatMap StakeBatch.arrivals

/- What all batches leave. -/
def final : StakingDb := runBatches S.accepts S.batches .empty

def transferTo (tokenId : String) (event : StakeEvent) : Option StakeTransfer :=
  (transferOf event).filter (·.tokenId = tokenId)

/- The last transfer decides. -/
def recipient (mint : StakeMint) (transfers : List StakeTransfer) : String :=
  match transfers.getLast? with
  | none => mint.ownerAddress
  | some transfer => transfer.toAddress

/- All transfers of the token on the chain count. -/
def ownerOnChain (mint : StakeMint) : String :=
  recipient mint (S.chain.filterMap (transferTo mint.tokenId))

/- Every minted receipt is with its owner on the chain. -/
def OwnersRight : Prop :=
  ∀ event ∈ S.chain, ∀ mint, mintOf event = some mint → ∃ row,
    S.final.stakingNft.find? mint.tokenId = some row ∧ row.ownerAddress = S.ownerOnChain mint

def afterFirst (event : StakeEvent) (arrivals : List StakeEvent) : List StakeEvent :=
  (arrivals.dropWhile (· ≠ event)).tail

/-
  The transfers of a token that arrive after its mint, each where
  it first does so.  A client that does not know the activity
  type of transfers records none.
-/
def applied (event : StakeEvent) (tokenId : String)
    (arrivals : List StakeEvent) : List StakeTransfer :=
  if S.accepts stakeNftTransferred then
    firsts StakeTransfer.key ((afterFirst event arrivals).filterMap (transferTo tokenId))
  else []

/-
  The client knows the activity type of mints, no other token is
  minted in the same transaction, and of the transfers that
  arrive after the mint, the one that first does so last goes to
  the owner on chain.
-/
def Indexable : Prop :=
  ∀ event ∈ S.chain, ∀ mint, mintOf event = some mint → S.accepts stakeNftMinted ∧
    (∀ other ∈ S.chain, ∀ mint', mintOf other = some mint' →
      mint'.mintTxHash = mint.mintTxHash → other = event) ∧
    recipient mint (S.applied event mint.tokenId S.arrivals) = S.ownerOnChain mint

end StakeSchedule

end

-- Rows Come From Events
----

section

open Transactional Program

/- The look-up is by transaction alone. -/
theorem hasMint_iff {db : StakingDb} {mintTxHash : String} :
    db.hasMint mintTxHash ↔ ∃ row ∈ db.stakingNft.rows, row.mintTxHash = mintTxHash := by
  unfold StakingDb.hasMint
  rw [List.any_eq_true]
  exact exists_congr fun row => and_congr_right fun _ => decide_eq_true_iff

namespace StakeSchedule

/- Every row comes from an event, and no two from one mint. -/
structure Sound (S : StakeSchedule) (db : StakingDb) : Prop where
  nfts : ∀ row ∈ db.stakingNft.rows, ∃ event ∈ S.chain, ∃ mint,
    mintOf event = some mint ∧ row.tokenId = mint.tokenId ∧ row.mintTxHash = mint.mintTxHash
  transfers : ∀ row ∈ db.stakingNftTransfer.rows, ∃ event ∈ S.chain,
    key row = (event.txHash, event.eventIndex) ∧ ∀ mint, mintOf event = some mint →
      db.hasMint mint.mintTxHash
  hashes : ∀ row ∈ db.stakingNft.rows, ∀ other ∈ db.stakingNft.rows,
    row.mintTxHash = other.mintTxHash → row = other
  known : S.accepts stakeNftMinted = false → db.stakingNft.rows = []

variable {S : StakeSchedule} {db : StakingDb} {event other : StakeEvent} {mint : StakeMint}

/- Positions on the chain are distinct. -/
theorem event_eq (hEvent : event ∈ S.chain) (hOther : other ∈ S.chain)
    (hSame : (event.txHash, event.eventIndex) = (other.txHash, other.eventIndex)) :
    event = other := by
  apply List.inj_on_of_nodup_map S.identified hEvent hOther
  rw [Prod.mk.injEq] at hSame
  unfold PipelineEvent.id getChainEventId
  rw [hSame.1, hSame.2]

variable {row : StakingNft}

theorem Sound.hasMint_of_stored (hSound : S.Sound db) (hEvent : event ∈ S.chain)
    (hMint : mintOf event = some mint) (hRow : db.stakingNft.find? mint.tokenId = some row) :
    db.hasMint mint.mintTxHash := by
  have hMem := Table.mem_of_find? hRow
  have hKey : row.tokenId = mint.tokenId := Table.key_of_find? hRow
  rcases hSound.nfts row hMem with ⟨source, hSource, mint', hMint', hToken, hHash⟩
  have hSame :=
    S.mintedOnce event hEvent source hSource mint mint' hMint hMint' (hKey.symm.trans hToken)
  rw [← hSame, hMint] at hMint'
  cases hMint'
  exact hasMint_iff.mpr ⟨row, hMem, hHash⟩

/- No row stands in the way of a new mint. -/
theorem Sound.inserts (hSound : S.Sound db) (hEvent : event ∈ S.chain)
    (hMint : mintOf event = some mint) (hNew : ¬ db.hasMint mint.mintTxHash) :
    ∃ nfts transfers, db.stakingNft.insert? mint.row = some nfts ∧
      db.stakingNftTransfer.insert? mint.transfer = some transfers := by
  have hNft : db.stakingNft.find? (key mint.row) = none := by
    cases hRow : db.stakingNft.find? (key mint.row) with
    | none => rfl
    | some row => exact absurd (hSound.hasMint_of_stored hEvent hMint hRow) hNew
  have hTransfer : db.stakingNftTransfer.find? (key mint.transfer) = none := by
    cases hRow : db.stakingNftTransfer.find? (key mint.transfer) with
    | none => rfl
    | some row =>
      rcases hSound.transfers row (Table.mem_of_find? hRow) with ⟨source, hSource, hKey, hRecorded⟩
      have hSame : event = source := by
        apply event_eq hEvent hSource
        rw [← key_of_mintOf hMint, ← hKey]
        exact (Table.key_of_find? hRow).symm
      rw [← hSame] at hRecorded
      exact absurd (hRecorded mint hMint) hNew
  exact ⟨_, _, Table.insert?_of_fresh hNft, Table.insert?_of_fresh hTransfer⟩

/- Either nothing happens or the receipt is stored. -/
theorem Sound.mintEffect_cases (hSound : S.Sound db) (hEvent : event ∈ S.chain)
    (hMint : mintOf event = some mint) :
    (mintEffect S.accepts mint db = db ∧ (db.hasMint mint.mintTxHash ∨
      S.accepts stakeNftMinted = false)) ∨ ¬ db.hasMint mint.mintTxHash ∧
      S.accepts stakeNftMinted ∧ db.stakingNft.insert? mint.row =
        some (mintEffect S.accepts mint db).stakingNft ∧
      db.stakingNftTransfer.insert? mint.transfer = some
        (mintEffect S.accepts mint db).stakingNftTransfer := by
  cases hKnown : S.accepts stakeNftMinted with
  | false =>
    left
    exact ⟨mintEffect_of_unknown hKnown mint db, Or.inr rfl⟩
  | true =>
    by_cases hOld : db.hasMint mint.mintTxHash
    · left
      exact ⟨if_pos hOld, Or.inl hOld⟩
    · right
      rcases hSound.inserts hEvent hMint hOld with ⟨nfts, transfers, hInsertNft, hInsertTransfer⟩
      refine ⟨hOld, rfl, ?_⟩
      simp [mintEffect, written, createMint, hOld, hInsertNft,
        hInsertTransfer, createActivity, StakeMint.activity, hKnown]

theorem Sound.after_mint (hSound : S.Sound db) (hEvent : event ∈ S.chain)
    (hMint : mintOf event = some mint) :
    S.Sound (mintEffect S.accepts mint db) := by
  rcases hSound.mintEffect_cases hEvent hMint with ⟨hSame, -⟩ | ⟨hNew, hKnown, hNft, hTransfer⟩
  · rw [hSame]
    exact hSound
  have hRows := (Table.insert?_eq_some hNft).2
  have hTransfers := (Table.insert?_eq_some hTransfer).2
  have hGrows : ∀ mintTxHash, db.hasMint mintTxHash →
      (mintEffect S.accepts mint db).hasMint mintTxHash := by
    intro mintTxHash hOld
    rw [hasMint_iff] at hOld ⊢
    rcases hOld with ⟨row, hMem, hHash⟩
    rw [hRows]
    exact ⟨row, List.mem_append_left _ hMem, hHash⟩
  have hOther : ∀ row ∈ db.stakingNft.rows,
      row.mintTxHash ≠ mint.mintTxHash := by
    intro row hMem hHash
    exact hNew (hasMint_iff.mpr ⟨row, hMem, hHash⟩)
  constructor
  · intro row hMem
    rw [hRows] at hMem
    rcases List.mem_append.mp hMem with hOld | hLast
    · exact hSound.nfts row hOld
    · rw [List.mem_singleton.mp hLast]
      exact ⟨event, hEvent, mint, hMint, rfl, rfl⟩
  · intro row hMem
    rw [hTransfers] at hMem
    rcases List.mem_append.mp hMem with hOld | hLast
    · rcases hSound.transfers row hOld with ⟨source, hSource, hKey, hRecorded⟩
      exact ⟨source, hSource, hKey, fun mint' hMint' => hGrows _ (hRecorded mint' hMint')⟩
    · rw [List.mem_singleton.mp hLast]
      refine ⟨event, hEvent, key_of_mintOf hMint, ?_⟩
      intro mint' hMint'
      rw [hMint] at hMint'
      cases hMint'
      rw [hasMint_iff, hRows]
      exact ⟨mint.row, List.mem_append_right _ List.mem_cons_self, rfl⟩
  · intro row hMem other hMem' hHash
    rw [hRows] at hMem hMem'
    rcases List.mem_append.mp hMem with hOld | hLast
    · rcases List.mem_append.mp hMem' with hOld' | hLast'
      · exact hSound.hashes row hOld other hOld' hHash
      · rw [List.mem_singleton.mp hLast'] at hHash
        exact absurd hHash (hOther row hOld)
    · rcases List.mem_append.mp hMem' with hOld' | hLast'
      · rw [List.mem_singleton.mp hLast] at hHash
        exact absurd hHash.symm (hOther other hOld')
      · rw [List.mem_singleton.mp hLast, List.mem_singleton.mp hLast']
  · intro hUnknown
    rw [hUnknown] at hKnown
    cases hKnown

variable {transfer : StakeTransfer}

theorem exists_row_of_giveTo {t : Table StakingNft} {tokenId ownerAddress : String} (hMem :
    row ∈ (t.update tokenId (.giveTo ownerAddress) (StakingNft.key_giveTo ownerAddress)).rows) :
    ∃ before ∈ t.rows, row.tokenId = before.tokenId ∧ row.mintTxHash = before.mintTxHash ∧ row =
      if before.tokenId = tokenId then
        before.giveTo ownerAddress
      else before := by
  rcases List.mem_map.mp hMem with ⟨before, hBefore, rfl⟩
  refine ⟨before, hBefore, ?_⟩
  by_cases hToken : before.tokenId = tokenId
  · have hKey : key before = tokenId := hToken
    rw [if_pos (decide_eq_true hKey), if_pos hToken]
    exact ⟨rfl, rfl, rfl⟩
  · have hKey : ¬ decide (key before = tokenId) = true :=
      fun hSame => hToken (of_decide_eq_true hSame)
    rw [if_neg hKey, if_neg hToken]
    exact ⟨rfl, rfl, rfl⟩

theorem Sound.after_transfer (hSound : S.Sound db) (hEvent : event ∈ S.chain)
    (hTransfer : transferOf event = some transfer) :
    S.Sound (transferEffect S.accepts transfer db) := by
  rcases transferEffect_cases transfer db with ⟨hSame, -⟩ | ⟨-, -, row, hRow, hNft, hInsert⟩
  · rw [hSame]
    exact hSound
  have hTransfers := (Table.insert?_eq_some hInsert).2
  have hKept : ∀ mintTxHash, db.hasMint mintTxHash → (transferEffect S.accepts transfer db).hasMint
      mintTxHash := by
    intro mintTxHash hOld
    rw [hasMint_iff] at hOld ⊢
    rcases hOld with ⟨old, hMem, hHash⟩
    rw [hNft]
    refine ⟨_, List.mem_map_of_mem hMem, ?_⟩
    split
    · exact hHash
    · exact hHash
  constructor
  · intro row' hMem
    rw [hNft] at hMem
    rcases exists_row_of_giveTo hMem with ⟨before, hBefore, hToken, hHash, -⟩
    rcases hSound.nfts before hBefore with ⟨source, hSource, mint, hMint, hToken', hHash'⟩
    exact ⟨source, hSource, mint, hMint, hToken.trans hToken', hHash.trans hHash'⟩
  · intro row' hMem
    rw [hTransfers] at hMem
    rcases List.mem_append.mp hMem with hOld | hLast
    · rcases hSound.transfers row' hOld with ⟨source, hSource, hKey, hRecorded⟩
      exact ⟨source, hSource, hKey, fun mint' hMint' => hKept _ (hRecorded mint' hMint')⟩
    · rw [List.mem_singleton.mp hLast]
      refine ⟨event, hEvent, key_of_transferOf hTransfer, ?_⟩
      intro mint hMint
      rw [transferOf_of_mintOf hMint] at hTransfer
      cases hTransfer
  · intro row' hMem other hMem' hHash
    rw [hNft] at hMem hMem'
    rcases exists_row_of_giveTo hMem with ⟨before, hBefore, -, hHash', hGiven⟩
    rcases exists_row_of_giveTo hMem' with ⟨before', hBefore', -, hHash'', hGiven'⟩
    have hSame :=
      hSound.hashes before hBefore before' hBefore' (hHash'.symm.trans (hHash.trans hHash''))
    rw [hGiven, hGiven', hSame]
  · intro hUnknown
    have hNone := hSound.known hUnknown
    have hMem := Table.mem_of_find? hRow
    rw [hNone] at hMem
    cases hMem

/- Either handler keeps the rows sound. -/
theorem Sound.after_event (hSound : S.Sound db) (hEvent : event ∈ S.chain) :
    S.Sound (effect S.accepts event db) := by
  unfold Staking.effect
  split
  · rename_i hMint
    exact hSound.after_mint hEvent hMint
  · rename_i hTransfer
    exact hSound.after_transfer hEvent hTransfer
  · exact hSound

/- The rows of the empty tables come from no event. -/
theorem sound_empty : S.Sound .empty := by
  constructor
  · exact nofun
  · exact nofun
  · exact nofun
  · exact fun _ => rfl

variable {e : IndexerError}

/- A mint fails only where its activity type is unknown. -/
theorem Sound.known_of_ok (hSound : S.Sound db) (hEvent : event ∈ S.chain)
    (hError : ((handleMinted S.accepts event).run db).1 = .error e) :
    S.accepts stakeNftMinted = false := by
  unfold handleMinted at hError
  cases hMint : mintOf event with
  | none =>
    rw [hMint] at hError
    cases hError
  | some mint =>
    rw [hMint] at hError
    unfold recordMint at hError
    simp only [run_bind, run_query] at hError
    split at hError
    · cases hError
    · rename_i hNew
      rcases hSound.inserts hEvent hMint hNew with ⟨nfts, transfers, hInsertNft, hInsertTransfer⟩
      cases hKnown : S.accepts stakeNftMinted with
      | false => rfl
      | true =>
        simp [createMint, hNew, hInsertNft, hInsertTransfer,
          createActivity, StakeMint.activity, hKnown] at hError

theorem known_of_transferred {accepts : String → Bool}
    (hError : ((handleTransferred accepts event).run db).1 = .error e) :
    accepts stakeNftTransferred = false := by
  unfold handleTransferred at hError
  cases hTransfer : transferOf event with
  | none =>
    rw [hTransfer] at hError
    cases hError
  | some transfer =>
    rw [hTransfer] at hError
    unfold recordTransfer at hError
    simp only [run_bind, run_query] at hError
    split at hError
    · cases hError
    · rename_i hNew
      simp only [run_bind, run_query] at hError
      split at hError
      · rename_i hStored
        rcases Option.isSome_iff_exists.mp hStored with ⟨row, hRow⟩
        have hFresh : db.stakingNftTransfer.find? transfer.key = none := by
          rw [← Option.not_isSome_iff_eq_none]
          exact hNew
        have hInsert : db.stakingNftTransfer.insert? transfer.row = some
            (db.stakingNftTransfer.create transfer.row hFresh) :=
          Table.insert?_of_fresh hFresh
        cases hKnown : accepts stakeNftTransferred with
        | false => rfl
        | true =>
          simp [createTransfer, hRow, hInsert, createActivity,
            StakeTransfer.activity, hKnown] at hError
      · cases hError

theorem run_handleMinted (accepts : String → Bool) (event : StakeEvent) (db : StakingDb) :
    ((handleMinted accepts event).run db).2 =
      if StakeHandler.minted.handles event then
        effect accepts event db
      else db := by
  cases hMint : mintOf event with
  | none => simp [handleMinted, StakeHandler.handles, hMint]
  | some mint => simp [handleMinted, StakeHandler.handles, Staking.effect, hMint, run_recordMint]

theorem run_handleTransferred (accepts : String → Bool) (event : StakeEvent) (db : StakingDb) :
    ((handleTransferred accepts event).run db).2 =
      if StakeHandler.transferred.handles event then
        effect accepts event db
      else db := by
  cases hTransfer : transferOf event with
  | none => simp [handleTransferred, StakeHandler.handles, hTransfer]
  | some transfer =>
    simp [handleTransferred, StakeHandler.handles,
      Staking.effect, mintOf_of_transferOf hTransfer, hTransfer, run_recordTransfer]

theorem effect_of_unknown {accepts : String → Bool} {handler : StakeHandler}
    (hUnknown : match handler with
      | .minted => accepts stakeNftMinted = false
      | .transferred => accepts stakeNftTransferred = false) (event : StakeEvent) (db : StakingDb) :
    (if handler.handles event then effect accepts event db
      else db) = db := by
  split
  · rename_i hHandles
    unfold Staking.effect
    cases handler with
    | minted =>
      rcases Option.isSome_iff_exists.mp hHandles with ⟨mint, hMint⟩
      rw [hMint]
      exact mintEffect_of_unknown hUnknown mint db
    | transferred =>
      rcases Option.isSome_iff_exists.mp hHandles with ⟨transfer, hTransfer⟩
      rw [mintOf_of_transferOf hTransfer, hTransfer]
      exact transferEffect_of_unknown hUnknown transfer db
  · rfl

variable {batch : StakeBatch}

/- A batch is its events, one after another. -/
theorem run_batch (hSound : S.Sound db) (hEvents : ∀ event ∈ batch.events, event ∈ S.chain) :
    ((batch.process S.accepts).run db).2 = batch.arrivals.foldl
      (fun db event => effect S.accepts event db) db := by
  have hChain : ∀ event ∈ PipelineEvent.dedupe batch.events,
      event ∈ S.chain := by
    intro event hMem
    rw [dedupe_eq_firsts] at hMem
    exact hEvents event (mem_of_mem_firstsFrom hMem).1
  have hKeep : ∀ event ∈ PipelineEvent.dedupe batch.events, ∀ db, S.Sound db → S.Sound
      (if batch.handler.handles event then
        effect S.accepts event db
      else db) := by
    intro event hMem db hSound
    split
    · exact hSound.after_event (hChain event hMem)
    · exact hSound
  unfold StakeBatch.process StakeBatch.arrivals
  rw [List.foldl_filter]
  cases hHandler : batch.handler with
  | minted =>
    rw [hHandler] at hKeep
    apply run_forEach_effect (run_handleMinted S.accepts) hKeep _ hSound
    intro event hMem db e hSound hError
    exact @effect_of_unknown S.accepts .minted (hSound.known_of_ok (hChain event hMem) hError)
  | transferred =>
    rw [hHandler] at hKeep
    apply run_forEach_effect (run_handleTransferred S.accepts) hKeep _ hSound
    intro event hMem db e hSound hError
    exact @effect_of_unknown S.accepts .transferred (known_of_transferred hError)

theorem Sound.after_events (hSound : S.Sound db) {events : List StakeEvent}
    (hEvents : ∀ event ∈ events, event ∈ S.chain) :
    S.Sound (events.foldl (fun db event => effect S.accepts event db) db) := by
  induction events generalizing db with
  | nil => exact hSound
  | cons event rest ih =>
    rw [List.foldl_cons]
    apply ih (hSound.after_event (hEvents event List.mem_cons_self))
    intro other hOther
    exact hEvents other (List.mem_cons_of_mem _ hOther)

theorem mem_chain_of_arrivals (hEvents : ∀ event ∈ batch.events, event ∈ S.chain) :
    ∀ event ∈ batch.arrivals, event ∈ S.chain := by
  intro event hMem
  have hDedupe := (List.mem_filter.mp hMem).1
  rw [dedupe_eq_firsts] at hDedupe
  exact hEvents event (mem_of_mem_firstsFrom hDedupe).1

/- By induction on the batches. -/
theorem run_batches (hSound : S.Sound db) {batches : List StakeBatch}
    (hBatches : ∀ batch ∈ batches, ∀ event ∈ batch.events, event ∈ S.chain) :
    runBatches S.accepts batches db = (batches.flatMap StakeBatch.arrivals).foldl
      (fun db event => effect S.accepts event db) db := by
  induction batches generalizing db with
  | nil => rfl
  | cons batch rest ih =>
    have hEvents := hBatches batch List.mem_cons_self
    have hRest : ∀ batch ∈ rest, ∀ event ∈ batch.events,
        event ∈ S.chain := by
      intro other hOther
      exact hBatches other (List.mem_cons_of_mem _ hOther)
    have hNext := hSound.after_events (mem_chain_of_arrivals hEvents)
    unfold runBatches at ih ⊢
    rw [List.foldl_cons, List.flatMap_cons, List.foldl_append, run_batch hSound hEvents]
    exact ih hNext hRest

/- Every event of the chain is delivered. -/
theorem mem_arrivals (hEvent : event ∈ S.chain) {handler : StakeHandler}
    (hHandles : handler.handles event) :
    event ∈ S.arrivals := by
  rcases S.complete event hEvent handler hHandles with ⟨batch, hBatch, rfl, hMem⟩
  apply List.mem_flatMap.mpr
  refine ⟨batch, hBatch, ?_⟩
  apply List.mem_filter.mpr
  refine ⟨?_, hHandles⟩
  exact (mem_dedupe_iff S.identified (S.sound batch hBatch)).mpr hMem

theorem mem_chain_of_mem_arrivals (hMem : event ∈ S.arrivals) : event ∈ S.chain := by
  rcases List.mem_flatMap.mp hMem with ⟨batch, hBatch, hHere⟩
  exact mem_chain_of_arrivals (S.sound batch hBatch) event hHere

end StakeSchedule

end

-- One Token
----

section

open Transactional Program

namespace StakeSchedule

variable {S : StakeSchedule} {arrivals : List StakeEvent} {event other : StakeEvent}
variable {tokenId : String}

theorem dropWhile_of_not_mem (hNew : event ∉ arrivals) :
    arrivals.dropWhile (· ≠ event) = [] := by
  rw [List.dropWhile_eq_nil_iff]
  intro other hOther
  apply decide_eq_true
  rintro rfl
  exact hNew hOther

theorem afterFirst_of_not_mem (hNew : event ∉ arrivals) : afterFirst event arrivals = [] := by
  unfold afterFirst
  rw [dropWhile_of_not_mem hNew]
  rfl

theorem afterFirst_append_of_mem (hOld : event ∈ arrivals) :
    afterFirst event (arrivals ++ [other]) = afterFirst event arrivals ++ [other] := by
  have hSome : arrivals.dropWhile (· ≠ event) ≠ [] := by
    intro hNil
    have hAll := List.dropWhile_eq_nil_iff.mp hNil event hOld
    exact of_decide_eq_true hAll rfl
  unfold afterFirst
  rw [List.dropWhile_append, if_neg (by simpa using hSome), List.tail_append_of_ne_nil hSome]

theorem afterFirst_append_of_not_mem (hNew : event ∉ arrivals) :
    afterFirst event (arrivals ++ [other]) = [] := by
  unfold afterFirst
  rw [List.dropWhile_append, dropWhile_of_not_mem hNew]
  by_cases hSame : other = event
  · simp [hSame]
  · simp [hSame]

theorem applied_of_not_mem (S : StakeSchedule) (tokenId : String) (hNew : event ∉ arrivals) :
    S.applied event tokenId arrivals = [] := by
  unfold applied
  rw [afterFirst_of_not_mem hNew]
  split
  · rfl
  · rfl

theorem applied_append_of_not_mem (S : StakeSchedule) (tokenId : String) (other : StakeEvent)
    (hNew : event ∉ arrivals) :
    S.applied event tokenId (arrivals ++ [other]) = [] := by
  unfold applied
  rw [afterFirst_append_of_not_mem hNew]
  split
  · rfl
  · rfl

theorem applied_of_unknown (hUnknown : S.accepts stakeNftTransferred = false) (event : StakeEvent)
    (tokenId : String) (arrivals : List StakeEvent) :
    S.applied event tokenId arrivals = [] := by
  unfold applied
  rw [hUnknown]
  rfl

theorem applied_skip (S : StakeSchedule) (event : StakeEvent) (arrivals : List StakeEvent)
    (hOther : transferTo tokenId other = none) :
    S.applied event tokenId (arrivals ++ [other]) = S.applied event tokenId arrivals := by
  by_cases hOld : event ∈ arrivals
  · unfold applied
    rw [afterFirst_append_of_mem hOld, List.filterMap_append,
      List.filterMap_cons_none hOther, List.filterMap_nil, List.append_nil]
  · rw [S.applied_append_of_not_mem _ _ hOld, S.applied_of_not_mem _ hOld]

variable {transfer : StakeTransfer}

theorem applied_transfer (hKnown : S.accepts stakeNftTransferred) (hOld : event ∈ arrivals)
    (hOther : transferTo tokenId other = some transfer) :
    S.applied event tokenId (arrivals ++ [other]) = appendNew StakeTransfer.key
      (S.applied event tokenId arrivals) transfer := by
  have hFirsts : ∀ transfers : List StakeTransfer, firsts StakeTransfer.key transfers =
      transfers.foldl (appendNew StakeTransfer.key) [] := by
    intro transfers
    rw [foldl_appendNew, List.nil_append]
    rfl
  unfold applied
  rw [if_pos hKnown, if_pos hKnown, afterFirst_append_of_mem hOld,
    List.filterMap_append, List.filterMap_cons_some hOther,
    List.filterMap_nil, hFirsts, hFirsts, List.foldl_append]
  rfl

/-
  What is known of a token after some arrivals: its row, and which
  of its transfers are recorded.
-/
structure Tracked (S : StakeSchedule) (event : StakeEvent) (mint : StakeMint)
    (arrivals : List StakeEvent) (db : StakingDb) : Prop where
  absent : event ∉ arrivals → db.stakingNft.find? mint.tokenId = none
  stored :
    event ∈ arrivals → ∃ row, db.stakingNft.find? mint.tokenId = some row ∧ row.ownerAddress =
      recipient mint (S.applied event mint.tokenId arrivals)
  logged : ∀ source ∈ S.chain, ∀ transfer, transferOf source = some transfer →
    transfer.tokenId = mint.tokenId → ((db.stakingNftTransfer.find? transfer.key).isSome ↔
      transfer.key ∈ (S.applied event mint.tokenId arrivals).map StakeTransfer.key)

variable {mint : StakeMint} {db : StakingDb}

/- Nothing has arrived. -/
theorem tracked_empty : S.Tracked event mint [] .empty := by
  constructor
  · exact fun _ => rfl
  · exact nofun
  · intro source hSource transfer hTransfer hToken
    rw [S.applied_of_not_mem _ List.not_mem_nil]
    exact ⟨nofun, nofun⟩

/- The event did not concern the receipt. -/
theorem Tracked.same (hTracked : S.Tracked event mint arrivals db)
    (hMem : other = event → event ∈ arrivals) (hApplied :
      S.applied event mint.tokenId (arrivals ++ [other]) = S.applied event mint.tokenId arrivals) :
    S.Tracked event mint (arrivals ++ [other]) db := by
  constructor
  · intro hNew
    apply hTracked.absent
    intro hOld
    exact hNew (List.mem_append_left _ hOld)
  · intro hHere
    rw [hApplied]
    apply hTracked.stored
    rcases List.mem_append.mp hHere with hOld | hLast
    · exact hOld
    · exact hMem (List.mem_singleton.mp hLast).symm
  · rw [hApplied]
    exact hTracked.logged

variable {mint' : StakeMint}

theorem transferTo_of_mintOf (hMint : mintOf other = some mint') (tokenId : String) :
    transferTo tokenId other = none := by
  unfold transferTo
  rw [transferOf_of_mintOf hMint]
  rfl

theorem Sound.stored_of_hasMint (hSound : S.Sound db) (hMint : mintOf event = some mint)
    (hAlone : ∀ other ∈ S.chain, ∀ mint', mintOf other = some mint' →
      mint'.mintTxHash = mint.mintTxHash → other = event) (hStored : db.hasMint mint.mintTxHash) :
    db.stakingNft.find? mint.tokenId ≠ none := by
  rcases hasMint_iff.mp hStored with ⟨row, hMem, hHash⟩
  rcases hSound.nfts row hMem with ⟨source, hSource, mint', hMint', hToken, hHash'⟩
  have hSame := hAlone source hSource mint' hMint' (hHash'.symm.trans hHash)
  rw [hSame, hMint] at hMint'
  cases hMint'
  rw [← hToken]
  rw [show row.tokenId = key row from rfl, Table.find?_of_mem hMem]
  exact Option.some_ne_none row

/- A transfer is never logged as a mint is. -/
theorem key_ne_of_mint {source : StakeEvent} (hSource : source ∈ S.chain)
    (hTransfer : transferOf source = some transfer) (hOther : other ∈ S.chain)
    (hMint : mintOf other = some mint') :
    transfer.key ≠ key mint'.transfer := by
  intro hSame
  have hEvents : source = other := by
    apply event_eq hSource hOther
    rw [← key_of_transferOf hTransfer, ← key_of_mintOf hMint]
    exact hSame
  rw [hEvents, transferOf_of_mintOf hMint] at hTransfer
  cases hTransfer

/- The mint itself, or one of another token. -/
theorem Tracked.after_mint (hTracked : S.Tracked event mint arrivals db) (hSound : S.Sound db)
    (hEvent : event ∈ S.chain) (hMint : mintOf event = some mint)
    (hKnown : S.accepts stakeNftMinted)
    (hAlone : ∀ other ∈ S.chain, ∀ mint', mintOf other = some mint' →
      mint'.mintTxHash = mint.mintTxHash → other = event) {mint' : StakeMint}
    (hOther : other ∈ S.chain) (hMint' : mintOf other = some mint') :
    S.Tracked event mint (arrivals ++ [other]) (mintEffect S.accepts mint' db) := by
  have hSkip := S.applied_skip event arrivals (transferTo_of_mintOf hMint' mint.tokenId)
  rcases hSound.mintEffect_cases hOther hMint' with
    ⟨hSame, hOld | hUnknown⟩ | ⟨hNew, -, hNft, hTransfer⟩
  · rw [hSame]
    apply hTracked.same _ hSkip
    rintro rfl
    rw [hMint] at hMint'
    cases hMint'
    by_contra hNew
    exact hSound.stored_of_hasMint hMint hAlone hOld (hTracked.absent hNew)
  · rw [hUnknown] at hKnown
    cases hKnown
  have hLogged : ∀ source ∈ S.chain, ∀ transfer, transferOf source = some transfer →
      (mintEffect S.accepts mint' db).stakingNftTransfer.find? transfer.key =
        db.stakingNftTransfer.find? transfer.key := by
    intro source hSource transfer hSourceOf
    rw [Table.find?_insert? hTransfer, if_neg (key_ne_of_mint hSource hSourceOf hOther hMint')]
  by_cases hSame : other = event
  · -- The token is created.
    subst hSame
    rw [hMint] at hMint'
    cases hMint'
    have hFirst : other ∉ arrivals := by
      intro hOld
      rcases hTracked.stored hOld with ⟨row, hRow, -⟩
      exact hNew (hSound.hasMint_of_stored hEvent hMint hRow)
    have hNone := S.applied_of_not_mem mint.tokenId hFirst
    constructor
    · intro hAbsent
      exact absurd (List.mem_append_right _ List.mem_cons_self) hAbsent
    · intro _
      rw [hSkip, hNone]
      refine ⟨mint.row, ?_, rfl⟩
      rw [Table.find?_insert? hNft]
      exact if_pos rfl
    · intro source hSource transfer hSourceOf hToken
      rw [hLogged source hSource transfer hSourceOf, hSkip]
      exact hTracked.logged source hSource transfer hSourceOf hToken
  · -- Another token is created.
    have hToken : mint.tokenId ≠ key mint'.row := by
      intro hTokens
      exact hSame (S.mintedOnce event hEvent other hOther mint mint' hMint hMint' hTokens).symm
    have hRow : (mintEffect S.accepts mint' db).stakingNft.find? mint.tokenId =
        db.stakingNft.find? mint.tokenId := by
      rw [Table.find?_insert? hNft, if_neg hToken]
    have hKept := hTracked.same (fun h => absurd h hSame) hSkip
    constructor
    · rw [hRow]
      exact hKept.absent
    · rw [hRow]
      exact hKept.stored
    · intro source hSource transfer hSourceOf hOwn
      rw [hLogged source hSource transfer hSourceOf]
      exact hKept.logged source hSource transfer hSourceOf hOwn

/- The last of the transfers names the owner. -/
theorem recipient_append (mint : StakeMint) (transfers : List StakeTransfer)
    (transfer : StakeTransfer) :
    recipient mint (transfers ++ [transfer]) = transfer.toAddress := by
  unfold recipient
  rw [List.getLast?_concat]

/- A transfer of the token, new or seen before. -/
theorem Tracked.after_own (hTracked : S.Tracked event mint arrivals db) (hNe : other ≠ event)
    (hToken : transfer.tokenId = mint.tokenId)
    (hOwn : transferTo mint.tokenId other = some transfer) (hOther : other ∈ S.chain)
    (hTransfer : transferOf other = some transfer) :
    S.Tracked event mint (arrivals ++ [other]) (transferEffect S.accepts transfer db) := by
  have hLogged := hTracked.logged other hOther transfer hTransfer hToken
  rcases transferEffect_cases transfer db with
    ⟨hSame, hReason⟩ | ⟨hFresh, hKnown, row, hRow, hNft, hInsert⟩
  · rw [hSame]
    apply hTracked.same (fun h => absurd h hNe)
    by_cases hOld : event ∈ arrivals
    · cases hKnown : S.accepts stakeNftTransferred with
      | false => rw [applied_of_unknown hKnown, applied_of_unknown hKnown]
      | true =>
        rw [applied_transfer hKnown hOld hOwn]
        rcases hReason with hStored | hNone | hUnknown
        · exact if_pos (hLogged.mp hStored)
        · rcases hTracked.stored hOld with ⟨row, hRow, -⟩
          rw [hToken, hRow] at hNone
          cases hNone
        · rw [hUnknown] at hKnown
          cases hKnown
    · rw [S.applied_append_of_not_mem _ _ hOld, S.applied_of_not_mem _ hOld]
  · have hOld : event ∈ arrivals := by
      by_contra hNew
      have hNone := hTracked.absent hNew
      rw [← hToken, hRow] at hNone
      cases hNone
    have hNew : transfer.key ∉ (S.applied event mint.tokenId arrivals).map
        StakeTransfer.key := by
      rw [← hLogged, hFresh]
      exact Bool.false_ne_true
    have hApplied : S.applied event mint.tokenId (arrivals ++ [other]) =
        S.applied event mint.tokenId arrivals ++ [transfer] := by
      rw [applied_transfer hKnown hOld hOwn]
      exact if_neg hNew
    rw [hToken] at hRow hNft
    constructor
    · intro hAbsent
      exact absurd (List.mem_append_left _ hOld) hAbsent
    · intro _
      refine ⟨row.giveTo transfer.toAddress, ?_, ?_⟩
      · rw [hNft, Table.find?_update_same, hRow]
        rfl
      · rw [hApplied, recipient_append]
        rfl
    · intro source hSource transfer' hSourceOf hOwn'
      have hBefore := hTracked.logged source hSource transfer' hSourceOf hOwn'
      rw [hApplied, List.map_append, List.mem_append, ← hBefore, Table.find?_insert? hInsert]
      by_cases hKey : transfer'.key = key transfer.row
      · rw [if_pos hKey]
        constructor
        · intro _
          exact Or.inr (List.mem_singleton.mpr hKey)
        · exact fun _ => rfl
      · rw [if_neg hKey]
        constructor
        · exact Or.inl
        · rintro (hStored | hLast)
          · exact hStored
          · exact absurd (List.mem_singleton.mp hLast) hKey

/- A transfer of another token. -/
theorem Tracked.after_other (hTracked : S.Tracked event mint arrivals db) (hNe : other ≠ event)
    (hToken : transfer.tokenId ≠ mint.tokenId) (hOther : other ∈ S.chain)
    (hTransfer : transferOf other = some transfer) :
    S.Tracked event mint (arrivals ++ [other]) (transferEffect S.accepts transfer db) := by
  have hElse : transferTo mint.tokenId other = none := by
    unfold transferTo
    rw [hTransfer]
    exact if_neg fun h => hToken (of_decide_eq_true h)
  have hKept := hTracked.same (fun h => absurd h hNe) (S.applied_skip event arrivals hElse)
  rcases transferEffect_cases transfer db with ⟨hSame, -⟩ | ⟨-, -, row, -, hNft, hInsert⟩
  · rw [hSame]
    exact hKept
  have hRow : (transferEffect S.accepts transfer db).stakingNft.find? mint.tokenId =
      db.stakingNft.find? mint.tokenId := by
    rw [hNft]
    exact Table.find?_update_other _ _ _ (Ne.symm hToken)
  constructor
  · rw [hRow]
    exact hKept.absent
  · rw [hRow]
    exact hKept.stored
  · intro source hSource transfer' hSourceOf hOwn
    have hKey : transfer'.key ≠ key transfer.row := by
      intro hSame
      have hEvents : source = other := by
        apply event_eq hSource hOther
        rw [← key_of_transferOf hSourceOf, ← key_of_transferOf hTransfer]
        exact hSame
      rw [hEvents, hTransfer] at hSourceOf
      cases hSourceOf
      exact hToken hOwn
    rw [Table.find?_insert? hInsert, if_neg hKey]
    exact hKept.logged source hSource transfer' hSourceOf hOwn

/- One case for each type of event. -/
theorem Tracked.after_event (hTracked : S.Tracked event mint arrivals db) (hSound : S.Sound db)
    (hEvent : event ∈ S.chain) (hMint : mintOf event = some mint)
    (hKnown : S.accepts stakeNftMinted)
    (hAlone : ∀ other ∈ S.chain, ∀ mint', mintOf other = some mint' →
      mint'.mintTxHash = mint.mintTxHash → other = event) (hOther : other ∈ S.chain) :
    S.Tracked event mint (arrivals ++ [other]) (effect S.accepts other db) := by
  unfold Staking.effect
  split
  · rename_i hMint'
    exact hTracked.after_mint hSound hEvent hMint hKnown hAlone hOther hMint'
  · rename_i transfer hNoMint hTransfer
    have hNe : other ≠ event := by
      rintro rfl
      rw [hMint] at hNoMint
      cases hNoMint
    by_cases hToken : transfer.tokenId = mint.tokenId
    · have hOwn : transferTo mint.tokenId other = some transfer := by
        unfold transferTo
        rw [hTransfer]
        exact if_pos (decide_eq_true hToken)
      exact hTracked.after_own hNe hToken hOwn hOther hTransfer
    · exact hTracked.after_other hNe hToken hOther hTransfer
  · rename_i hNoMint hNoTransfer
    apply hTracked.same
    · rintro rfl
      rw [hMint] at hNoMint
      cases hNoMint
    · apply S.applied_skip
      unfold transferTo
      rw [hNoTransfer]
      rfl

/- By induction on the arrivals, from the last. -/
theorem tracked_run (hEvent : event ∈ S.chain) (hMint : mintOf event = some mint)
    (hKnown : S.accepts stakeNftMinted)
    (hAlone : ∀ other ∈ S.chain, ∀ mint', mintOf other = some mint' →
      mint'.mintTxHash = mint.mintTxHash → other = event)
    (hArrivals : ∀ other ∈ arrivals, other ∈ S.chain) :
    S.Tracked event mint arrivals (arrivals.foldl (fun db other => effect S.accepts other db)
      .empty) := by
  induction arrivals using List.reverseRecOn with
  | nil => exact tracked_empty
  | append_singleton before other ih =>
    have hBefore : ∀ other ∈ before, other ∈ S.chain := by
      intro old hOld
      exact hArrivals old (List.mem_append_left _ hOld)
    have hOther : other ∈ S.chain := hArrivals other (List.mem_append_right _ List.mem_cons_self)
    rw [List.foldl_append]
    exact (ih hBefore).after_event (sound_empty.after_events hBefore)
      hEvent hMint hKnown hAlone hOther

/- Batches may be cut anywhere. -/
theorem final_eq (S : StakeSchedule) :
    S.final = S.arrivals.foldl (fun db event => effect S.accepts event db) .empty :=
  run_batches sound_empty S.sound

theorem sound_final (S : StakeSchedule) : S.Sound S.final := by
  rw [final_eq]
  exact sound_empty.after_events fun _ => mem_chain_of_mem_arrivals

/- The receipt is with whom the applied transfers gave it to. -/
theorem row_final (hEvent : event ∈ S.chain) (hMint : mintOf event = some mint)
    (hKnown : S.accepts stakeNftMinted)
    (hAlone : ∀ other ∈ S.chain, ∀ mint', mintOf other = some mint' →
      mint'.mintTxHash = mint.mintTxHash → other = event) :
    ∃ row, S.final.stakingNft.find? mint.tokenId = some row ∧ row.ownerAddress = recipient mint
      (S.applied event mint.tokenId S.arrivals) := by
  have hTracked : S.Tracked event mint S.arrivals S.final := by
    rw [final_eq]
    exact tracked_run hEvent hMint hKnown hAlone fun _ => mem_chain_of_mem_arrivals
  apply hTracked.stored
  have hHandles : StakeHandler.minted.handles event := Option.isSome_iff_exists.mpr ⟨mint, hMint⟩
  exact mem_arrivals hEvent hHandles

/- Two tokens of one transaction do not both have rows. -/
theorem alone_of_ownersRight (hRight : S.OwnersRight) (hEvent : event ∈ S.chain)
    (hMint : mintOf event = some mint) (hOther : other ∈ S.chain)
    (hMint' : mintOf other = some mint') (hHash : mint'.mintTxHash = mint.mintTxHash) :
    other = event := by
  have hSound := S.sound_final
  have hHashOf : ∀ source ∈ S.chain, ∀ minted, mintOf source = some minted → ∀ row,
      S.final.stakingNft.find? minted.tokenId = some row →
        row.mintTxHash = minted.mintTxHash := by
    intro source hSource minted hMinted row hRow
    rcases hSound.nfts row (Table.mem_of_find? hRow) with
      ⟨source', hSource', minted', hMinted', hToken, hHash⟩
    have hKey : row.tokenId = minted.tokenId := Table.key_of_find? hRow
    have hSame := S.mintedOnce source hSource source' hSource' minted minted'
        hMinted hMinted' (hKey.symm.trans hToken)
    rw [← hSame, hMinted] at hMinted'
    cases hMinted'
    exact hHash
  rcases hRight event hEvent mint hMint with ⟨row, hRow, -⟩
  rcases hRight other hOther mint' hMint' with ⟨row', hRow', -⟩
  have hRows : row' = row := by
    apply hSound.hashes row' (Table.mem_of_find? hRow') row (Table.mem_of_find? hRow)
    rw [hHashOf other hOther mint' hMint' row' hRow',
      hHashOf event hEvent mint hMint row hRow, hHash]
  apply S.mintedOnce other hOther event hEvent mint' mint hMint' hMint
  rw [← show key row' = mint'.tokenId from Table.key_of_find? hRow', hRows]
  exact Table.key_of_find? hRow

end StakeSchedule

/-
  Every minted token has its row with its owner on chain, if and
  only if the events are indexable as they are delivered.
-/
theorem owners_right_iff (S : StakeSchedule) : S.OwnersRight ↔ S.Indexable := by
  constructor
  · intro hRight event hEvent mint hMint
    have hKnown : S.accepts stakeNftMinted := by
      by_contra hUnknown
      have hNone := S.sound_final.known (Bool.eq_false_iff.mpr hUnknown)
      rcases hRight event hEvent mint hMint with ⟨row, hRow, -⟩
      have hMem := Table.mem_of_find? hRow
      rw [hNone] at hMem
      cases hMem
    have hAlone : ∀ other ∈ S.chain, ∀ mint', mintOf other = some mint' →
        mint'.mintTxHash = mint.mintTxHash → other = event := by
      intro other hOther mint' hMint' hHash
      exact StakeSchedule.alone_of_ownersRight hRight hEvent hMint hOther hMint' hHash
    refine ⟨hKnown, hAlone, ?_⟩
    rcases StakeSchedule.row_final hEvent hMint hKnown hAlone with ⟨row, hRow, hOwner⟩
    rcases hRight event hEvent mint hMint with ⟨row', hRow', hOnChain⟩
    rw [hRow] at hRow'
    cases hRow'
    exact hOwner.symm.trans hOnChain
  · intro hIndexable event hEvent mint hMint
    rcases hIndexable event hEvent mint hMint with ⟨hKnown, hAlone, hOnChain⟩
    rcases StakeSchedule.row_final hEvent hMint hKnown hAlone with ⟨row, hRow, hOwner⟩
    exact ⟨row, hRow, hOwner.trans hOnChain⟩

end

-- A Transfer Ahead of the Mint
----

/- The activity types that the schema lists. -/
def listed (type : String) : Bool := (ActivityType.ofName type).isSome

def sampleStake (eventType txHash : String) (eventIndex : Nat) (tokenId : String) : StakeEvent where
  toIndexerChainEvent := bareEvent eventType txHash eventIndex 1
  payload := {
    tokenId := some tokenId
    ownerAddress := some "alice"
    keyId := some "key"
    stakedAmount := some 5
    mintTxHash := some txHash
    mintedAt := some 0
    lockExpiryLedger := none
    lockExpiresAt := none
    fromAddress := some "alice"
    toAddress := some "bob"
    occurredAt := some 5000 }

def firstMint : StakeEvent := sampleStake "STAKE_NFT_MINTED" "a" 0 "first"

def firstMinted : StakeMint where
  tokenId := "first"
  ownerAddress := "alice"
  keyId := "key"
  stakedAmount := 5
  mintTxHash := "a"
  mintedAt := 0
  ledger := 1
  lockExpiryLedger := none
  lockExpiresAt := none
  txHash := "a"
  eventIndex := 0

def secondMint : StakeEvent := sampleStake "STAKE_NFT_MINTED" "a" 1 "second"

def firstTransfer : StakeEvent := sampleStake "STAKE_NFT_TRANSFERRED" "b" 0 "first"

def sampleChain : List StakeEvent := [firstMint, secondMint, firstTransfer]

/-
  Two tokens are minted in one transaction, and the first of them
  is transferred.  The transfer arrives before the mints.
-/
def earlyTransfer (accepts : String → Bool) : StakeSchedule where
  accepts
  chain := sampleChain
  batches :=
    [{ handler := .transferred, events := [firstTransfer] },
      { handler := .minted, events := [firstMint, secondMint] }]
  identified := by
    decide
  mintedOnce := by
    have hTokens : ∀ event ∈ sampleChain, ∀ other ∈ sampleChain, mintOf event ≠ none →
        (mintOf event).map StakeMint.tokenId = (mintOf other).map StakeMint.tokenId →
          event = other := by decide
    intro event hEvent other hOther mint mint' hMint hMint' hToken
    apply hTokens event hEvent other hOther
    · rw [hMint]
      exact Option.some_ne_none mint
    · rw [hMint, hMint']
      exact congrArg some hToken
  sound := by
    decide
  complete := by
    have hAll : ∀ event ∈ sampleChain, ∀ handler ∈ [StakeHandler.minted, .transferred],
        handler.handles event → ∃ batch ∈
          [{ handler := .transferred
             events := [firstTransfer] },
            { handler := StakeHandler.minted
              events := [firstMint, secondMint] : StakeBatch }], batch.handler = handler ∧
            event ∈ batch.events := by decide
    intro event hEvent handler
    apply hAll event hEvent
    cases handler with
    | minted => exact List.mem_cons_self
    | transferred => exact List.mem_cons_of_mem _ List.mem_cons_self

/-
  The transfer is skipped, and the token stays with the recipient
  of its mint.  With the activity types that the schema lists, no
  token has a row at all.
-/
theorem earlyTransfer_misowned :
    ¬ (earlyTransfer fun _ => true).OwnersRight ∧ ¬ (earlyTransfer listed).OwnersRight := by
  have hMember : firstMint ∈ sampleChain := List.mem_cons_self
  have hMint : mintOf firstMint = some firstMinted := by decide
  constructor
  · intro hRight
    rcases hRight firstMint hMember firstMinted hMint with ⟨row, hRow, hOwner⟩
    have hStored : ((earlyTransfer fun _ => true).final.stakingNft.find?
        firstMinted.tokenId).map StakingNft.ownerAddress = some "alice" := by decide
    have hOnChain : (earlyTransfer fun _ => true).ownerOnChain firstMinted =
        "bob" := by decide
    rw [hRow, Option.map_some, hOwner, hOnChain] at hStored
    exact absurd hStored (by decide)
  · intro hRight
    rcases hRight firstMint hMember firstMinted hMint with ⟨row, hRow, -⟩
    have hNone : (earlyTransfer listed).final.stakingNft.find?
        firstMinted.tokenId = none := by decide
    rw [hNone] at hRow
    cases hRow

end Staking

end AccessLayer
