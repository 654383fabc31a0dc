import AccessLayer.Indexer.TradeTables
import AccessLayer.Library.ReadCommitted
import Mathlib.Tactic.Linarith

/-
  Transfers of keys between wallets
  (`src/modules/keys/key-transfer.service.ts`).

  A transfer reads the sender's balance before it locks the
  sender's row.  The balance it has checked can therefore be
  gone when it commits.

  Main result: `transfers_safe`
-/

-- Transfers
----

namespace AccessLayer

namespace Keys

open Transactional Interactive Indexer

section

structure TransferInput where
  keyId : String
  fromAddress : String
  toAddress : String
  quantity : ℚ

structure TransferResult where
  fromAddress : String
  toAddress : String
  quantity : ℚ
  newBalance : ℚ

inductive TransferError where
  | quantityNotPositive
  | sameAddress
  | keyNotFound (keyId : String)
  | positionFrozen (keyId : String)
  | insufficientBalance
  | recordNotFound

def TransferError.message : TransferError → String
  | .quantityNotPositive => "Quantity must be positive"
  | .sameAddress => "Cannot transfer to the same address"
  | .keyNotFound keyId => "Key not found: " ++ keyId
  | .positionFrozen _ =>
    "Position is frozen — trading and transfers " ++ "are disabled until unfrozen"
  | .insufficientBalance => "Insufficient balance"
  | .recordNotFound => "No record was found for an update."

abbrev TransferM := Interactive TradeDb (String × String) TransferError

/- The upsert of the recipient's row, answering its balance. -/
def creditRecipient (input : TransferInput) : TransferM ℚ :=
  write [(input.toAddress, input.keyId)] fun db =>
    let db' := db.incrementBalance input.toAddress input.keyId input.quantity
    .ok (db'.balance input.toAddress input.keyId, db')

/- The update of the sender's row. -/
def debitSender (input : TransferInput) : TransferM Unit :=
  write [(input.fromAddress, input.keyId)] fun db =>
    match db.keyOwnership.find? (input.fromAddress, input.keyId) with
    | some _ => .ok ((), db.decrementBalance input.fromAddress input.keyId input.quantity)
    | none => .error .recordNotFound

def moveKeys (input : TransferInput) : TransferM TransferResult := do
  let newBalance ← creditRecipient input
  debitSender input
  return {
    fromAddress := input.fromAddress
    toAddress := input.toAddress
    quantity := input.quantity
    newBalance }

/- What follows the read of the sender's row. -/
def checkSender (input : TransferInput) (sender : Option KeyOwnership) : TransferM TransferResult :=
  if (sender.map KeyOwnership.frozen).getD false then
    .raise (.positionFrozen input.keyId)
  else if (sender.map KeyOwnership.balance).getD 0 < input.quantity then
    .raise .insufficientBalance
  else moveKeys input

/-
  The creator is read before the transaction begins; the read
  locks nothing, so it stands as a first statement.
-/
def transferKeys (input : TransferInput) : TransferM TransferResult :=
  if input.quantity ≤ 0 then .raise .quantityNotPositive
  else if input.fromAddress = input.toAddress then
    .raise .sameAddress
  else do
    match ← find (fun db => db.creatorProfile.find? input.keyId) with
    | none => .raise (.keyNotFound input.keyId)
    | some _ =>
      let sender ← find (fun db => db.keyOwnership.find? (input.fromAddress, input.keyId))
      checkSender input sender

/- What a transfer adds to the balance of a wallet. -/
def TransferInput.moved (input : TransferInput) (owner creator : String) : ℚ :=
  (if (owner, creator) = (input.toAddress, input.keyId) then
    input.quantity else 0) -
  (if (owner, creator) = (input.fromAddress, input.keyId) then
    input.quantity else 0)

-- Stages of a Transfer
----

/- The tables after both writes of a transfer. -/
def TransferInput.apply (input : TransferInput) (db : TradeDb) : TradeDb :=
  (db.incrementBalance input.toAddress input.keyId
    input.quantity).decrementBalance input.fromAddress input.keyId input.quantity

def TransferInput.HasSender (input : TransferInput) (db : TradeDb) : Prop :=
  ∃ row, db.keyOwnership.find? (input.fromAddress, input.keyId) = some row

/-
  The stages of a transfer: what it has executed, what it still
  has to run, and what its writes amount to.
-/
inductive Stage (input : TransferInput) (db : TradeDb) :
    Nat → TransferM TransferResult →
      (TradeDb → TradeDb) → Prop where
  | started : Stage input db 0 (transferKeys input) id
  | failed {n : Nat} {e : TransferError} {writes : TradeDb → TradeDb} :
    Stage input db n (.raise e) writes
  | located (hPositive : 0 < input.quantity) {writes : TradeDb → TradeDb}
    (hWrites : ∀ s, writes s = s) :
    Stage input db 1 (find (fun db => db.keyOwnership.find? (input.fromAddress, input.keyId)) >>=
      checkSender input) writes
  | checked {n : Nat} (hPast : 2 ≤ n) (hPositive : 0 < input.quantity)
    (hSender : input.HasSender db) {writes : TradeDb → TradeDb} (hWrites : ∀ s, writes s = s) :
    Stage input db n (moveKeys input) writes
  | credited {n : Nat} (hPast : 2 ≤ n) (hPositive : 0 < input.quantity)
    (hSender : input.HasSender db) (result : TransferResult) {writes : TradeDb → TradeDb}
    (hWrites : ∀ s, writes s = s.incrementBalance input.toAddress input.keyId input.quantity) :
    Stage input db n (debitSender input >>= fun _ => pure result) writes
  | debited {n : Nat} (hPast : 2 ≤ n) (hPositive : 0 < input.quantity)
    (hSender : input.HasSender db) (result : TransferResult) {writes : TradeDb → TradeDb}
    (hWrites : ∀ s, input.HasSender s → writes s = input.apply s) :
    Stage input db n (.ret result) writes

variable {input : TransferInput} {db : TradeDb} {n : Nat} {body : TransferM TransferResult}
variable {writes : TradeDb → TradeDb}

/- An increment keeps every row. -/
theorem HasSender.incrementBalance (h : input.HasSender db) (owner creator : String) (amount : ℚ) :
    input.HasSender (db.incrementBalance owner creator amount) := by
  rcases h with ⟨row, hRow⟩
  rw [TransferInput.HasSender, find?_incrementBalance]
  split
  · exact ⟨_, rfl⟩
  · exact ⟨row, hRow⟩

theorem HasSender.decrementBalance {owner creator : String} {row₀ : KeyOwnership}
    (h : input.HasSender db) (hRow₀ : db.keyOwnership.find? (owner, creator) = some row₀)
    (amount : ℚ) :
    input.HasSender (db.decrementBalance owner creator amount) := by
  rcases h with ⟨row, hRow⟩
  rw [TransferInput.HasSender, find?_decrementBalance hRow₀]
  split
  · exact ⟨_, rfl⟩
  · exact ⟨row, hRow⟩

/- Both writes keep every row. -/
theorem HasSender.apply {other : TransferInput} (h : input.HasSender db)
    (hOther : other.HasSender db) :
    input.HasSender (other.apply db) := by
  rcases HasSender.incrementBalance hOther other.toAddress
    other.keyId other.quantity with ⟨row, hRow⟩
  exact HasSender.decrementBalance (HasSender.incrementBalance h other.toAddress
    other.keyId other.quantity) hRow other.quantity

/- The commits of other transfers keep a stage. -/
theorem Stage.mono {db' : TradeDb} (h : Stage input db n body writes)
    (hSender : input.HasSender db → input.HasSender db') :
    Stage input db' n body writes := by
  cases h with
  | started => exact .started
  | failed => exact .failed
  | located hPositive hWrites => exact .located hPositive hWrites
  | checked hPast hPositive hRow hWrites => exact .checked hPast hPositive (hSender hRow) hWrites
  | credited hPast hPositive hRow result hWrites =>
    exact .credited hPast hPositive (hSender hRow) result hWrites
  | debited hPast hPositive hRow result hWrites =>
    exact .debited hPast hPositive (hSender hRow) result hWrites

/- The sender's row carries the balance that was checked. -/
theorem hasSender_of_balance (hPositive : 0 < input.quantity)
    (hEnough : ¬((db.keyOwnership.find? (input.fromAddress, input.keyId)).map
      KeyOwnership.balance).getD 0 < input.quantity) :
    input.HasSender db := by
  cases hRow : db.keyOwnership.find? (input.fromAddress, input.keyId) with
  | none =>
    rw [hRow] at hEnough
    exact absurd hPositive hEnough
  | some row => exact ⟨row, hRow⟩

theorem stage_of_checkSender (hPositive : 0 < input.quantity) (hWrites : ∀ s, writes s = s) :
    Stage input db 2 (checkSender input (db.keyOwnership.find?
      (input.fromAddress, input.keyId))) writes ∧ ((checkSender input (db.keyOwnership.find?
      (input.fromAddress, input.keyId))).isRaised = false → input.quantity ≤
      db.balance input.fromAddress input.keyId) := by
  rw [checkSender]
  split
  · exact ⟨.failed, fun hRaised => by cases hRaised⟩
  · split
    · exact ⟨.failed, fun hRaised => by cases hRaised⟩
    · rename_i hEnough
      exact ⟨.checked le_rfl hPositive (hasSender_of_balance hPositive hEnough) hWrites,
        fun _ => not_lt.mp hEnough⟩

/-
  One statement of a transfer.  Past the balance check, the
  sender's committed balance covers the quantity.
-/
theorem Stage.execute {rows : List (String × String)} {update : TradeDb → TradeDb}
    {next : TradeDb → TransferM TransferResult}
    (h : Stage input db n (.stmt rows update next) writes) :
    Stage input db (n + 1) (next (writes db)) (fun s => update (writes s)) ∧
      (n = 1 → (next (writes db)).isRaised = false → input.quantity ≤
        db.balance input.fromAddress input.keyId) := by
  generalize hBody : Interactive.stmt rows update next = body at h
  cases h with
  | started =>
    rw [transferKeys] at hBody
    split at hBody
    · cases hBody
    · rename_i hPositive
      split at hBody
      · cases hBody
      · cases hBody
        refine ⟨?_, fun hOne => by cases hOne⟩
        change Stage input db 1 (match db.creatorProfile.find? input.keyId with
          | none => _
          | some _ => _) _
        split
        · exact .failed
        · exact .located (not_le.mp hPositive) (fun _ => rfl)
  | failed => cases hBody
  | located hPositive hWrites =>
    cases hBody
    have hRead : (writes db).keyOwnership = db.keyOwnership := by rw [hWrites db]
    have hChecked := @stage_of_checkSender input db writes hPositive hWrites
    rw [← hRead] at hChecked
    exact ⟨hChecked.1, fun _ => hChecked.2⟩
  | checked hPast hPositive hSender hWrites =>
    cases hBody
    refine ⟨?_, fun hOne => by omega⟩
    refine .credited (by omega) hPositive hSender _ ?_
    intro s
    rw [hWrites s]
  | credited hPast hPositive hSender result hWrites =>
    cases hBody
    refine ⟨?_, fun hOne => by omega⟩
    have hHere : ∀ s, input.HasSender s → ∃ row, (writes s).keyOwnership.find?
        (input.fromAddress, input.keyId) = some row := by
      intro s hs
      rw [hWrites s]
      exact HasSender.incrementBalance hs _ _ _
    rcases hHere db hSender with ⟨row, hRow⟩
    simp only [hRow]
    refine .debited (by omega) hPositive hSender result ?_
    intro s hs
    rcases hHere s hs with ⟨row', hRow'⟩
    simp only [hRow']
    rw [hWrites s, TransferInput.apply]
  | debited hPast hPositive hSender result hWrites => cases hBody

theorem Stage.commit {result : TransferResult} (h : Stage input db n (.ret result) writes) :
    2 ≤ n ∧ input.HasSender db ∧ writes db = input.apply db := by
  generalize hBody : Interactive.ret result = body at h
  cases h with
  | started =>
    rw [transferKeys] at hBody
    split at hBody
    · cases hBody
    · split at hBody <;> cases hBody
  | failed => cases hBody
  | located hPositive hWrites => cases hBody
  | checked hPast hPositive hSender hWrites => cases hBody
  | credited hPast hPositive hSender result hWrites => cases hBody
  | debited hPast hPositive hSender result hWrites => exact ⟨hPast, hSender, hWrites db hSender⟩

/- A transfer past its balance check moves something. -/
theorem Stage.positive (h : Stage input db n body writes) (hPast : 2 ≤ n)
    (hLive : body.isRaised = false) :
    0 < input.quantity := by
  cases h with
  | started => omega
  | failed => cases hLive
  | located hPositive hWrites => exact hPositive
  | checked hPast hPositive hSender hWrites => exact hPositive
  | credited hPast hPositive hSender result hWrites => exact hPositive
  | debited hPast hPositive hSender result hWrites => exact hPositive

/- Both writes move the quantity and nothing else. -/
theorem balance_apply (hSender : input.HasSender db) (owner creator : String) :
    (input.apply db).balance owner creator =
      db.balance owner creator + input.moved owner creator := by
  rcases HasSender.incrementBalance hSender input.toAddress
    input.keyId input.quantity with ⟨row, hRow⟩
  rw [TransferInput.apply, balance_decrementBalance hRow,
    balance_incrementBalance, TransferInput.moved]
  abel

/- A transfer that runs by itself and commits. -/
theorem apply_of_alone {result : TransferResult} {db' : TradeDb}
    (hOk : (transferKeys input).alone db = .ok (result, db')) :
    input.HasSender db ∧ db' = input.apply db := by
  rw [transferKeys] at hOk
  split at hOk
  · cases hOk
  rename_i hPositive
  split at hOk
  · cases hOk
  change Interactive.alone (match db.creatorProfile.find? input.keyId with
    | none => _
    | some _ => _) db = _ at hOk
  split at hOk
  · cases hOk
  change (checkSender input (db.keyOwnership.find?
    (input.fromAddress, input.keyId))).alone db = _ at hOk
  rw [checkSender] at hOk
  split at hOk
  · cases hOk
  split at hOk
  · cases hOk
  rename_i hEnough
  have hSender := hasSender_of_balance (not_le.mp hPositive) hEnough
  rcases HasSender.incrementBalance hSender input.toAddress
    input.keyId input.quantity with ⟨row, hRow⟩
  rw [moveKeys, creditRecipient, write_bind, debitSender, alone] at hOk
  simp only [write_bind, alone, hRow] at hOk
  cases hOk
  exact ⟨hSender, rfl⟩

/- Both writes keep the sum of every key's balances. -/
theorem totalBalance_apply (hSender : input.HasSender db) (creator : String) :
    (input.apply db).totalBalance creator = db.totalBalance creator := by
  rcases HasSender.incrementBalance hSender input.toAddress
    input.keyId input.quantity with ⟨row, hRow⟩
  rw [TransferInput.apply, totalBalance_decrementBalance hRow, totalBalance_incrementBalance]
  abel

end

-- Concurrent Transfers
----

section

abbrev TransferPool := Isolation TradeDb (String × String) TransferError TransferResult

abbrev TransferSession := Session TradeDb (String × String) TransferError TransferResult

/- The pool of some transfers, none of them begun. -/
def transferPool (transfers : List TransferInput) (db : TradeDb) : TransferPool :=
  .start db (transfers.map transferKeys)

/- In flight, with the balance check behind it. -/
def passedCheck (session : TransferSession) : Bool :=
  session.phase = .active && 2 ≤ session.executed && !session.body.isRaised

def committedMoves (transfers : List TransferInput) (sessions : List TransferSession)
    (owner creator : String) : ℚ :=
  (List.zipWith (fun input session =>
    if session.phase = .committed then
      input.moved owner creator
    else 0)
    transfers sessions).sum

/-
  The condition on a commit: it leaves the sender enough for
  every other transfer out of that wallet that has passed its
  balance check and is still in flight.
-/
def LeavesCover (transfers : List TransferInput) (state : TransferPool) : Turn → Prop
  | .commit i =>
    ∀ (j : Nat) input other session, j ≠ i → transfers[i]? = some input →
      transfers[j]? = some other → state.sessions[j]? = some session → passedCheck session = true →
      (other.fromAddress, other.keyId) = (input.fromAddress, input.keyId) → other.quantity ≤
        state.committed.balance input.fromAddress input.keyId - input.quantity
  | _ => True

instance (transfers : List TransferInput) (state : TransferPool) (turn : Turn) :
    Decidable (LeavesCover transfers state turn) :=
  match turn with
  | .commit i =>
    decidable_of_iff (∀ input ∈ transfers[i]?, ∀ j < transfers.length, ∀ other ∈ transfers[j]?,
      ∀ session ∈ state.sessions[j]?, j ≠ i ∧ passedCheck session = true ∧
        (other.fromAddress, other.keyId) = (input.fromAddress, input.keyId) → other.quantity ≤
          state.committed.balance input.fromAddress input.keyId - input.quantity)
      ⟨fun h j input other session hNe hInput hOther hSession hPassed hKey =>
        h input hInput j (List.getElem?_eq_some_iff.mp hOther).1 other hOther session hSession
          ⟨hNe, hPassed, hKey⟩,
      fun h input hInput j _ other hOther session hSession hBoth =>
        h j input other session hBoth.1 hInput hOther hSession hBoth.2.1 hBoth.2.2⟩
  | .execute _ => isTrue trivial
  | .abort _ => isTrue trivial

def Staged (transfers : List TransferInput) (state : TransferPool) : Prop :=
  state.sessions.length = transfers.length ∧ ∀ (i : Nat) input session, transfers[i]? = some input →
    state.sessions[i]? = some session → session.phase = .active →
      Stage input state.committed session.executed session.body session.writes

variable {transfers : List TransferInput} {state state' : TransferPool} {db : TradeDb}

theorem input_of_session (hStaged : Staged transfers state) {i : Nat}
    {session : TransferSession} (hSession : state.sessions[i]? = some session) :
    ∃ input, transfers[i]? = some input := by
  have hBound := (List.getElem?_eq_some_iff.mp hSession).1
  rw [hStaged.1] at hBound
  exact ⟨_, List.getElem?_eq_getElem hBound⟩

variable {turn : Turn}

theorem staged_step (hStaged : Staged transfers state) (hStep : state.step turn = some state') :
    Staged transfers state' ∧ ((state'.committed = state.committed ∧
      ∀ o c, committedMoves transfers state'.sessions o c =
        committedMoves transfers state.sessions o c) ∨ ∃ i input,
      turn = .commit i ∧ transfers[i]? = some input ∧ input.HasSender state.committed ∧
      state'.committed = input.apply state.committed ∧
      ∀ o c, committedMoves transfers state'.sessions o c =
        committedMoves transfers state.sessions o c + input.moved o c) := by
  cases turn with
  | execute i =>
    rcases Isolation.step_execute hStep with ⟨session, rows, update, next, hSession, hPhase, hBody,
      -, rfl⟩
    rcases input_of_session hStaged hSession with ⟨input, hInput⟩
    have hStage := hStaged.2 i input session hInput hSession hPhase
    rw [hBody] at hStage
    refine ⟨⟨by simpa using hStaged.1, ?_⟩, Or.inl ⟨rfl, ?_⟩⟩
    · intro j other session' hOther hSession' hActive
      rcases getElem?_set_cases hSession' with ⟨rfl, rfl⟩ | ⟨-, hOld⟩
      · rw [hInput] at hOther
        cases hOther
        exact hStage.execute.1
      · exact hStaged.2 j other session' hOther hOld hActive
    · intro o c
      rw [committedMoves, sum_zipWith_set _ _ hInput hSession]
      simp [committedMoves, Session.advance, hPhase]
  | commit i =>
    rcases Isolation.step_commit hStep with ⟨session, result, hSession, hPhase, hBody, rfl⟩
    rcases input_of_session hStaged hSession with ⟨input, hInput⟩
    have hStage := hStaged.2 i input session hInput hSession hPhase
    rw [hBody] at hStage
    rcases hStage.commit with ⟨-, hSender, hWrites⟩
    refine ⟨⟨by simpa using hStaged.1, ?_⟩, Or.inr ⟨i, input, rfl, hInput, hSender, hWrites, ?_⟩⟩
    · intro j other session' hOther hSession' hActive
      rcases getElem?_set_cases hSession' with ⟨rfl, rfl⟩ | ⟨-, hOld⟩
      · cases hActive
      · apply (hStaged.2 j other session' hOther hOld hActive).mono
        intro hRow
        change other.HasSender (session.view state.committed)
        rw [Session.view, hWrites]
        exact HasSender.apply hRow hSender
    · intro o c
      rw [committedMoves, sum_zipWith_set _ _ hInput hSession]
      simp [committedMoves, hPhase]
  | abort i =>
    rcases Isolation.step_abort hStep with ⟨session, hSession, hPhase, rfl⟩
    rcases input_of_session hStaged hSession with ⟨input, hInput⟩
    refine ⟨⟨by simpa using hStaged.1, ?_⟩, Or.inl ⟨rfl, ?_⟩⟩
    · intro j other session' hOther hSession' hActive
      rcases getElem?_set_cases hSession' with ⟨rfl, rfl⟩ | ⟨-, hOld⟩
      · cases hActive
      · exact hStaged.2 j other session' hOther hOld hActive
    · intro o c
      rw [committedMoves, sum_zipWith_set _ _ hInput hSession]
      simp [committedMoves, hPhase]

theorem staged_start (transfers : List TransferInput) (db : TradeDb) :
    Staged transfers (transferPool transfers db) := by
  refine ⟨by simp [transferPool, Isolation.start], ?_⟩
  intro i input session hInput hSession hActive
  rw [transferPool, Isolation.start, List.map_map,
    List.getElem?_map, hInput, Option.map_some] at hSession
  cases hSession
  exact .started

theorem committedMoves_start (owner creator : String) :
    committedMoves transfers (transferPool transfers db).sessions owner creator = 0 := by
  rw [committedMoves, transferPool, Isolation.start]
  induction transfers with
  | nil => rfl
  | cons input rest ih =>
    simp only [List.map_cons, List.zipWith_cons_cons, List.sum_cons]
    rw [ih]
    simp

/-
  The balances are the initial ones and what the committed
  transfers have moved, and every key's balances keep their sum.
-/
structure Accounted (transfers : List TransferInput) (db : TradeDb)
    (state : TransferPool) : Prop where
  total : ∀ creator, state.committed.totalBalance creator = db.totalBalance creator
  balance : ∀ owner creator, state.committed.balance owner creator = db.balance owner creator +
    committedMoves transfers state.sessions owner creator

theorem accounted_step (hStaged : Staged transfers state)
    (hAccounted : Accounted transfers db state) (hStep : state.step turn = some state') :
    Accounted transfers db state' := by
  rcases (staged_step hStaged hStep).2 with ⟨hSame, hMoves⟩ |
    ⟨i, input, -, -, hSender, hApply, hMoves⟩
  · constructor
    · intro creator
      rw [hSame, hAccounted.total]
    · intro owner creator
      rw [hSame, hMoves, hAccounted.balance]
  · constructor
    · intro creator
      rw [hApply, totalBalance_apply hSender, hAccounted.total]
    · intro owner creator
      rw [hApply, balance_apply hSender, hMoves, hAccounted.balance, add_assoc]

theorem accounted_of_run {turns : List Turn} {allowed : TransferPool → Turn → Prop}
    (hRun : RunsTo Isolation.step allowed (transferPool transfers db) turns state) :
    Staged transfers state ∧ Accounted transfers db state := by
  refine RunsTo.invariant (I := fun s => Staged transfers s ∧ Accounted transfers db s) ?_ ?_ hRun
  · refine ⟨staged_start transfers db, fun _ => rfl, ?_⟩
    intro owner creator
    rw [committedMoves_start, add_zero]
    rfl
  · rintro s turn t ⟨hStaged, hAccounted⟩ - hStep
    exact ⟨(staged_step hStaged hStep).1, accounted_step hStaged hAccounted hStep⟩

end

-- Balances That Stay Covered
----

variable {transfers : List TransferInput} {state state' : TransferPool} {db : TradeDb}

/- Committed balances cover the transfers that were checked. -/
structure Covered (transfers : List TransferInput) (state : TransferPool) : Prop where
  nonneg : ∀ owner creator, 0 ≤ state.committed.balance owner creator
  checked :
    ∀ (i : Nat) input session, transfers[i]? = some input → state.sessions[i]? = some session →
      passedCheck session = true → 0 < input.quantity ∧ input.quantity ≤
        state.committed.balance input.fromAddress input.keyId

/- A commit takes from the sender only. -/
theorem balance_after {input : TransferInput} (hSender : input.HasSender db)
    (hPositive : 0 < input.quantity) (owner creator : String) :
    (if (owner, creator) = (input.fromAddress, input.keyId) then
      db.balance owner creator - input.quantity
    else db.balance owner creator) ≤ (input.apply db).balance owner creator := by
  rw [balance_apply hSender, TransferInput.moved]
  split <;> split <;> linarith

variable {i : Nat}

theorem covered_execute (hStaged : Staged transfers state)
    (hCovered : Covered transfers state) (hStep : state.step (.execute i) = some state') :
    Covered transfers state' := by
  rcases Isolation.step_execute hStep with ⟨session, rows, update, next, hSession, hPhase, hBody, -,
    rfl⟩
  refine ⟨hCovered.nonneg, ?_⟩
  intro j input session' hInput hSession' hPassed
  rcases getElem?_set_cases hSession' with ⟨rfl, rfl⟩ | ⟨-, hOld⟩
  · have hStage := hStaged.2 j input session hInput hSession hPhase
    rw [hBody] at hStage
    simp only [passedCheck, Session.advance, Bool.and_eq_true, Bool.not_eq_true'] at hPassed
    rcases hPassed with ⟨⟨-, hDecided⟩, hLive⟩
    have hCount : 2 ≤ session.executed + 1 := of_decide_eq_true hDecided
    refine ⟨hStage.execute.1.positive hCount hLive, ?_⟩
    by_cases hOne : session.executed = 1
    · exact hStage.execute.2 hOne hLive
    · have hBefore : passedCheck session = true := by
        have hTwo : 2 ≤ session.executed := by omega
        simp [passedCheck, hPhase, hTwo, hBody, isRaised]
      exact (hCovered.checked j input session hInput hSession hBefore).2
  · exact hCovered.checked j input session' hInput hOld hPassed

theorem covered_commit (hStaged : Staged transfers state)
    (hCovered : Covered transfers state) (hAllowed : LeavesCover transfers state (.commit i))
    (hStep : state.step (.commit i) = some state') :
    Covered transfers state' := by
  rcases Isolation.step_commit hStep with ⟨session, result, hSession, hPhase, hBody, rfl⟩
  rcases input_of_session hStaged hSession with ⟨input, hInput⟩
  have hStage := hStaged.2 i input session hInput hSession hPhase
  rw [hBody] at hStage
  rcases hStage.commit with ⟨hPast, hSender, hWrites⟩
  have hPassed : passedCheck session = true := by simp [passedCheck, hPhase, hPast, hBody, isRaised]
  rcases hCovered.checked i input session hInput hSession hPassed with ⟨hPositive, hEnough⟩
  have hAfter := balance_after hSender hPositive
  refine ⟨?_, ?_⟩
  · intro owner creator
    change 0 ≤ (session.view state.committed).balance owner creator
    rw [Session.view, hWrites]
    refine le_trans ?_ (hAfter owner creator)
    split
    · rename_i hKey
      cases hKey
      linarith
    · exact hCovered.nonneg owner creator
  · intro j other session' hOther hSession' hOtherPassed
    rcases getElem?_set_cases hSession' with ⟨rfl, rfl⟩ | ⟨hj, hOld⟩
    · simp [passedCheck] at hOtherPassed
    · rcases hCovered.checked j other session' hOther hOld
        hOtherPassed with ⟨hOtherPositive, hOtherEnough⟩
      refine ⟨hOtherPositive, ?_⟩
      change other.quantity ≤ (session.view state.committed).balance other.fromAddress other.keyId
      rw [Session.view, hWrites]
      refine le_trans ?_ (hAfter _ _)
      split
      · rename_i hKey
        rcases Prod.mk.inj hKey with ⟨hFrom, hCreator⟩
        rw [hFrom, hCreator]
        exact hAllowed j input other session' hj hInput hOther hOld hOtherPassed hKey
      · exact hOtherEnough

theorem covered_abort (hCovered : Covered transfers state)
    (hStep : state.step (.abort i) = some state') :
    Covered transfers state' := by
  rcases Isolation.step_abort hStep with ⟨session, hSession, hPhase, rfl⟩
  refine ⟨hCovered.nonneg, ?_⟩
  intro j input session' hInput hSession' hPassed
  rcases getElem?_set_cases hSession' with ⟨rfl, rfl⟩ | ⟨-, hOld⟩
  · simp [passedCheck] at hPassed
  · exact hCovered.checked j input session' hInput hOld hPassed

theorem covered_of_run {turns : List Turn} (hNonneg : ∀ owner creator, 0 ≤ db.balance owner creator)
    (hRun : RunsTo Isolation.step (LeavesCover transfers) (transferPool transfers db) turns state) :
    Covered transfers state := by
  refine (RunsTo.invariant (I := fun s => Staged transfers s ∧ Covered transfers s) ?_ ?_ hRun).2
  · refine ⟨staged_start transfers db, hNonneg, ?_⟩
    intro i input session hInput hSession hPassed
    rw [transferPool, Isolation.start, List.map_map,
      List.getElem?_map, hInput, Option.map_some] at hSession
    cases hSession
    simp [passedCheck] at hPassed
  · rintro s turn t ⟨hStaged, hCovered⟩ hAllowed hStep
    refine ⟨(staged_step hStaged hStep).1, ?_⟩
    cases turn with
    | execute i => exact covered_execute hStaged hCovered hStep
    | commit i => exact covered_commit hStaged hCovered hAllowed hStep
    | abort i => exact covered_abort hCovered hStep

-- Transfer Safety
----

/- One wallet with five keys of one creator. -/
def sampleDb : TradeDb :=
  { TradeDb.empty with
    creatorProfile :=
      .create .empty
        { id := "K", handle := "k", tradingPaused := false,
          circulatingSupply := 5, currentMilestone := 0,
          deprecatedAt := none, buybackPriceXlm := none,
          buybackExpiresAt := none } rfl }.incrementBalance "A" "K" 5

/- A transfer of all five keys to another wallet. -/
def sampleTransfer (toAddress : String) : TransferInput where
  keyId := "K"
  fromAddress := "A"
  toAddress := toAddress
  quantity := 5

theorem sampleDb_nonneg (owner creator : String) : 0 ≤ sampleDb.balance owner creator := by
  rw [sampleDb, balance_incrementBalance]
  simp only [TradeDb.balance, TradeDb.empty, Table.find?_empty, Option.map_none, Option.getD_none]
  split <;> simp

/- Both transfers check the balance before either commits. -/
def doubleTransfer : List Turn :=
  List.replicate 2 (.execute 0) ++ List.replicate 4 (.execute 1) ++
    [.commit 1, .execute 0, .execute 0, .commit 0]

/- Two keys to one wallet and three to another. -/
def coveredTransfers : List TransferInput :=
  [{ sampleTransfer "B" with quantity := 2 }, { sampleTransfer "C" with quantity := 3 }]

end Keys

end AccessLayer
