import AccessLayer.Indexer.InvoiceProtocol

/-
  Convergence of the read models of the invoice contracts.

  A row is a function of the set of events: what opens it is the
  latest submission or proposal, what closes it the latest
  resolution or completion, wherever they stand in the chain.

  Main result: `invoice_rows_converge`
-/

-- Rows as Functions of the Events
----

namespace AccessLayer

namespace Indexer

open Transactional Interactive

section

/- An event that sets the score of a wallet. -/
def isScoreOf (wallet : String) (event : InvoiceEvent) : Bool :=
  match event.payload with
  | .issuerScoreUpdated update => update.wallet = wallet
  | _ => false

/- An event that opens a report. -/
def isSubmissionOf (ids : ChainId × ChainId) (event : InvoiceEvent) : Bool :=
  match event.payload with
  | .reportSubmitted report => (report.invoiceId, report.reportId) = ids
  | _ => false

/- An event that closes it. -/
def isResolutionOf (ids : ChainId × ChainId) (event : InvoiceEvent) : Bool :=
  match event.payload with
  | .reportResolved report => (report.invoiceId, report.reportId) = ids
  | _ => false

/- An event that opens a change. -/
def isProposalOf (proposalId : ChainId) (event : InvoiceEvent) : Bool :=
  match event.payload with
  | .changeProposed proposal => proposal.proposalId = proposalId
  | _ => false

/- An event that closes it, either way. -/
def isCompletionOf (proposalId : ChainId) (event : InvoiceEvent) : Bool :=
  match event.payload with
  | .changeExecuted completion => completion.proposalId = proposalId
  | .changeCancelled completion => completion.proposalId = proposalId
  | _ => false

/- A score shows the latest update of its wallet. -/
def scores : Projection InvoiceEvent String IssuerScore where
  opens := isScoreOf
  closes := fun _ _ => false
  row := fun event _ => IssuerScore.ofEvent event
  row_of_opens := by
    intro wallet event closed hKind
    unfold isScoreOf at hKind
    unfold IssuerScore.ofEvent
    cases hPayload : event.payload with
    | issuerScoreUpdated update =>
      rw [hPayload] at hKind
      exact ⟨_, rfl, of_decide_eq_true hKind⟩
    | _ =>
      rw [hPayload] at hKind
      cases hKind

/- A report shows its latest submission and resolution. -/
def reports : Projection InvoiceEvent (ChainId × ChainId) FraudReport where
  opens := isSubmissionOf
  closes := isResolutionOf
  row := FraudReport.ofEvents
  row_of_opens := by
    intro ids event resolved hKind
    unfold isSubmissionOf at hKind
    unfold FraudReport.ofEvents
    cases hPayload : event.payload with
    | reportSubmitted report =>
      rw [hPayload] at hKind
      exact ⟨_, rfl, of_decide_eq_true hKind⟩
    | _ =>
      rw [hPayload] at hKind
      cases hKind

/- A change shows its latest proposal and completion. -/
def changes : Projection InvoiceEvent ChainId TimelockChange where
  opens := isProposalOf
  closes := isCompletionOf
  row := TimelockChange.ofEvents
  row_of_opens := by
    intro proposalId event terminal hKind
    unfold isProposalOf at hKind
    unfold TimelockChange.ofEvents
    cases hPayload : event.payload with
    | changeProposed proposal =>
      rw [hPayload] at hKind
      exact ⟨_, rfl, of_decide_eq_true hKind⟩
    | _ =>
      rw [hPayload] at hKind
      cases hKind

/- The rows of a store are those of the events. -/
structure RowsOf (events : List InvoiceEvent) (db : InvoiceDb) : Prop where
  score : ∀ wallet, db.issuerScore.find? wallet = scores.of InvoiceEvent.position events wallet
  report : ∀ ids, db.fraudReport.find? ids = reports.of InvoiceEvent.position events ids
  change : ∀ proposalId, db.timelockChange.find? proposalId =
    changes.of InvoiceEvent.position events proposalId

/- What is written of an entity, if anything is. -/
def InvoiceDb.newScore (db : InvoiceDb) (event : InvoiceEvent) : Option IssuerScore :=
  (db.latest event [.issuerScoreUpdated]).bind IssuerScore.ofEvent

def InvoiceDb.newReport (db : InvoiceDb) (event : InvoiceEvent) : Option FraudReport :=
  (db.latest event [.reportSubmitted]).bind fun submitted => FraudReport.ofEvents submitted
    (db.latest event [.reportResolved])

def InvoiceDb.newChange (db : InvoiceDb) (event : InvoiceEvent) : Option TimelockChange :=
  (db.latest event [.changeProposed]).bind fun proposed => TimelockChange.ofEvents proposed
    (db.latest event [.changeExecuted, .changeCancelled])

/- The row that an event concerns is rebuilt from the journal. -/
def InvoiceDb.rebuild (db : InvoiceDb) (event : InvoiceEvent) : InvoiceDb :=
  let report : InvoiceDb :=
    { db with
      fraudReport :=
        (db.newReport event).elim db.fraudReport
          db.fraudReport.put }
  let change : InvoiceDb :=
    { db with
      timelockChange :=
        (db.newChange event).elim db.timelockChange
          db.timelockChange.put }
  match event.payload with
  | .issuerScoreUpdated _ =>
    { db with
      issuerScore :=
        (db.newScore event).elim db.issuerScore
          db.issuerScore.put }
  | .reportSubmitted _ => report
  | .reportResolved _ => report
  | .changeProposed _ => change
  | .changeExecuted _ => change
  | .changeCancelled _ => change
  | .transferBlocked block => db.restrict (block.row event)

variable {env : InvoiceEnv} {event : InvoiceEvent} {db db' : InvoiceDb}

theorem serial_projectScore (env : InvoiceEnv) (event : InvoiceEvent) (db : InvoiceDb) :
    ∃ value, (projectScore env event).serial db = .ok (value, { db with
              issuerScore :=
                (db.newScore event).elim db.issuerScore
                  db.issuerScore.put }) := by
  rw [projectScore, serial_find_bind, InvoiceDb.newScore]
  cases (db.latest event [.issuerScoreUpdated]).bind IssuerScore.ofEvent with
  | none => exact ⟨_, rfl⟩
  | some row => exact ⟨_, rfl⟩

theorem serial_projectReport (event : InvoiceEvent) (db : InvoiceDb) :
    ∃ value, (projectReport event).serial db = .ok (value, { db with
              fraudReport :=
                (db.newReport event).elim db.fraudReport
                  db.fraudReport.put }) := by
  rw [projectReport, serial_find_bind, InvoiceDb.newReport]
  cases db.latest event [.reportSubmitted] with
  | none => exact ⟨_, rfl⟩
  | some submitted =>
    simp only [serial_find_bind, Option.bind_some]
    cases FraudReport.ofEvents submitted (db.latest event [.reportResolved]) with
    | none => exact ⟨_, rfl⟩
    | some row => exact ⟨_, rfl⟩

theorem serial_projectChange (event : InvoiceEvent) (db : InvoiceDb) :
    ∃ value, (projectChange event).serial db = .ok (value, { db with
              timelockChange :=
                (db.newChange event).elim db.timelockChange
                  db.timelockChange.put }) := by
  rw [projectChange, serial_find_bind, InvoiceDb.newChange]
  cases db.latest event [.changeProposed] with
  | none => exact ⟨_, rfl⟩
  | some proposed =>
    simp only [serial_find_bind, Option.bind_some]
    cases TimelockChange.ofEvents proposed (db.latest event
      [.changeExecuted, .changeCancelled]) with
    | none => exact ⟨_, rfl⟩
    | some row => exact ⟨_, rfl⟩

/- One call: the event is recorded, then projected. -/
theorem serial_process {raw : RawInvoiceEvent} {value : Option String}
    (hSerial : (processInvoiceProtocolEvent env raw).serial db = .ok (value, db')) :
    ∃ event, acceptInvoiceEvent env raw = some event ∧ db' = (db.record event).rebuild event := by
  unfold processInvoiceProtocolEvent at hSerial
  unfold acceptInvoiceEvent
  cases hCheck : checkInvoiceEvent env raw with
  | error e =>
    rw [hCheck] at hSerial
    cases hSerial
  | ok event =>
    rw [hCheck] at hSerial
    refine ⟨event, rfl, ?_⟩
    change (project env event).serial (db.record event) = .ok (value, db') at hSerial
    generalize db.record event = recorded at hSerial ⊢
    have hProject : ∃ value, (project env event).serial recorded =
        .ok (value, recorded.rebuild event) := by
      rw [project, InvoiceDb.rebuild]
      cases event.payload with
      | issuerScoreUpdated update => exact serial_projectScore env event recorded
      | transferBlocked block => exact ⟨_, rfl⟩
      | reportSubmitted report => exact serial_projectReport event recorded
      | reportResolved report => exact serial_projectReport event recorded
      | changeProposed proposal => exact serial_projectChange event recorded
      | changeExecuted completion => exact serial_projectChange event recorded
      | changeCancelled completion => exact serial_projectChange event recorded
    rcases hProject with ⟨answer, hAnswer⟩
    rw [hAnswer] at hSerial
    cases hSerial
    rfl

end

-- Convergence
----

section

variable {env : InvoiceEnv} {raws : List RawInvoiceEvent} {event : InvoiceEvent} {db : InvoiceDb}

theorem contract_of_accepted (hEvent : event ∈ accepted env raws) :
    expectedContract env event.eventType = some event.contractId := by
  rcases List.mem_filterMap.mp hEvent with ⟨raw, -, hAccept⟩
  unfold acceptInvoiceEvent checkInvoiceEvent at hAccept
  cases hParse : parseInvoiceProtocolEvent env raw with
  | error e =>
    rw [hParse] at hAccept
    cases hAccept
  | ok parsed =>
    rw [hParse] at hAccept
    by_cases hContract : expectedContract env parsed.eventType = some parsed.contractId
    · simp only [if_pos hContract] at hAccept
      cases hAccept
      exact hContract
    · simp only [if_neg hContract] at hAccept
      cases hAccept

variable {p : InvoiceEvent → Bool}

theorem latest_eq {eventTypes : List InvoiceEventType}
    (hRows : ∀ row ∈ db.invoiceProtocolEvent.rows, row ∈ accepted env raws)
    (hEvent : event ∈ accepted env raws)
    (hContract : ∀ eventType ∈ eventTypes, expectedContract env eventType =
      expectedContract env event.eventType)
    (hKind : ∀ row, p row = true ↔ row.entityKey = event.entityKey ∧ row.eventType ∈ eventTypes) :
    db.latest event eventTypes = latestOf InvoiceEvent.position
      (db.invoiceProtocolEvent.rows.filter p) := by
  unfold InvoiceDb.latest InvoiceDb.eventsOf
  rw [List.filter_filter]
  congr 1
  apply List.filter_congr
  intro row hRow
  rw [Bool.eq_iff_iff, hKind]
  simp only [Bool.and_eq_true, decide_eq_true_eq]
  constructor
  · rintro ⟨⟨hType, -⟩, hKey⟩
    exact ⟨hKey, hType⟩
  · rintro ⟨hKey, hType⟩
    refine ⟨⟨hType, ?_⟩, hKey⟩
    have hSame := hContract _ hType
    rw [contract_of_accepted (hRows row hRow), contract_of_accepted hEvent] at hSame
    exact Option.some.inj hSame

variable {row : InvoiceEvent}

theorem isScoreOf_iff {wallet : String} :
    isScoreOf wallet row = true ↔ row.entityKey = scoreKey wallet ∧
      row.eventType ∈ [InvoiceEventType.issuerScoreUpdated] := by
  unfold isScoreOf InvoiceEvent.entityKey InvoiceEvent.eventType
  cases row.payload with
  | issuerScoreUpdated update =>
    simp only [decide_eq_true_eq, InvoicePayload.entityKey,
      InvoicePayload.eventType, List.mem_singleton, and_true]
    exact ⟨congrArg scoreKey, scoreKey_inj⟩
  | _ => simp [InvoicePayload.eventType]

variable {invoiceId reportId : ChainId}

theorem isSubmissionOf_iff :
    isSubmissionOf (invoiceId, reportId) row = true ↔ row.entityKey = reportKey invoiceId reportId ∧
      row.eventType ∈ [InvoiceEventType.reportSubmitted] := by
  unfold isSubmissionOf InvoiceEvent.entityKey InvoiceEvent.eventType
  cases row.payload with
  | reportSubmitted report =>
    simp only [decide_eq_true_eq, InvoicePayload.entityKey,
      InvoicePayload.eventType, List.mem_singleton, and_true]
    exact ⟨fun h => by cases h; rfl, reportKey_inj⟩
  | _ => simp [InvoicePayload.eventType]

theorem isResolutionOf_iff :
    isResolutionOf (invoiceId, reportId) row = true ↔ row.entityKey = reportKey invoiceId reportId ∧
      row.eventType ∈ [InvoiceEventType.reportResolved] := by
  unfold isResolutionOf InvoiceEvent.entityKey InvoiceEvent.eventType
  cases row.payload with
  | reportResolved report =>
    simp only [decide_eq_true_eq, InvoicePayload.entityKey,
      InvoicePayload.eventType, List.mem_singleton, and_true]
    exact ⟨fun h => by cases h; rfl, reportKey_inj⟩
  | _ => simp [InvoicePayload.eventType]

variable {proposalId : ChainId}

theorem isProposalOf_iff :
    isProposalOf proposalId row = true ↔ row.entityKey = changeKey proposalId ∧
      row.eventType ∈ [InvoiceEventType.changeProposed] := by
  unfold isProposalOf InvoiceEvent.entityKey InvoiceEvent.eventType
  cases row.payload with
  | changeProposed proposal =>
    simp only [decide_eq_true_eq, InvoicePayload.entityKey,
      InvoicePayload.eventType, List.mem_singleton, and_true]
    exact ⟨congrArg changeKey, changeKey_inj⟩
  | _ => simp [InvoicePayload.eventType]

theorem isCompletionOf_iff :
    isCompletionOf proposalId row = true ↔ row.entityKey = changeKey proposalId ∧ row.eventType ∈
      [InvoiceEventType.changeExecuted, .changeCancelled] := by
  unfold isCompletionOf InvoiceEvent.entityKey InvoiceEvent.eventType
  cases row.payload with
  | changeExecuted completion =>
    simp only [decide_eq_true_eq, InvoicePayload.entityKey,
      InvoicePayload.eventType, List.mem_cons, true_or, and_true]
    exact ⟨congrArg changeKey, changeKey_inj⟩
  | changeCancelled completion =>
    simp only [decide_eq_true_eq, InvoicePayload.entityKey,
      InvoicePayload.eventType, List.mem_cons, true_or, or_true, and_true]
    exact ⟨congrArg changeKey, changeKey_inj⟩
  | _ => simp [InvoicePayload.eventType]

/- The journal gains the event, or has it already. -/
theorem mem_record_iff (hChain : OneChain (accepted env raws))
    (hRows : ∀ row ∈ db.invoiceProtocolEvent.rows, row ∈ accepted env raws)
    (hEvent : event ∈ accepted env raws) {row : InvoiceEvent} :
    row ∈ (db.record event).invoiceProtocolEvent.rows ↔
      row ∈ db.invoiceProtocolEvent.rows ∨ row = event := by
  rw [rows_record]
  split
  · rename_i hStored
    rcases List.any_eq_true.mp hStored with ⟨stored, hMem, hSame⟩
    have hEq := hChain.eq_of_recorded (hRows stored hMem) hEvent hSame
    subst hEq
    exact ⟨.inl, Or.rec id fun h => h ▸ hMem⟩
  · rw [List.mem_append, List.mem_singleton]

theorem filter_record (hOther : p event = false) :
    (db.record event).invoiceProtocolEvent.rows.filter p =
      db.invoiceProtocolEvent.rows.filter p := by
  rw [rows_record]
  split
  · rfl
  · rw [List.filter_append, List.filter_singleton, hOther]
    simp

theorem of_record {κ ρ : Type} [Keyed ρ κ] {P : Projection InvoiceEvent κ ρ} {k : κ}
    (hOpens : P.opens k event = false) (hCloses : P.closes k event = false) :
    P.of InvoiceEvent.position (db.record event).invoiceProtocolEvent.rows k =
      P.of InvoiceEvent.position db.invoiceProtocolEvent.rows k :=
  Projection.of_congr_filter (filter_record hOpens) (filter_record hCloses)

@[simp] theorem issuerScore_record (db : InvoiceDb) (event : InvoiceEvent) :
    (db.record event).issuerScore = db.issuerScore := by
  unfold InvoiceDb.record
  split <;> rfl

@[simp] theorem fraudReport_record (db : InvoiceDb) (event : InvoiceEvent) :
    (db.record event).fraudReport = db.fraudReport := by
  unfold InvoiceDb.record
  split <;> rfl

@[simp] theorem timelockChange_record (db : InvoiceDb) (event : InvoiceEvent) :
    (db.record event).timelockChange = db.timelockChange := by
  unfold InvoiceDb.record
  split <;> rfl

section

variable (hChain : OneChain (accepted env raws))
variable (hRows : ∀ row ∈ db.invoiceProtocolEvent.rows, row ∈ accepted env raws)
variable (hEvent : event ∈ accepted env raws)

include hChain hRows hEvent

theorem accepted_record :
    ∀ row ∈ (db.record event).invoiceProtocolEvent.rows, row ∈ accepted env raws := by
  intro row hRow
  rcases (mem_record_iff hChain hRows hEvent).mp hRow with hStored | rfl
  · exact hRows row hStored
  · exact hEvent

/- The row that a transaction writes is that of the journal. -/
theorem newScore_eq {wallet : String} (hKey : event.entityKey = scoreKey wallet)
    (hContract : expectedContract env event.eventType = env.ISSUER_REPUTATION_CONTRACT_ID) :
    (db.record event).newScore event = scores.of InvoiceEvent.position
      (db.record event).invoiceProtocolEvent.rows wallet := by
  have hRecorded := accepted_record hChain hRows hEvent
  rw [InvoiceDb.newScore, latest_eq hRecorded hEvent _ (p := isScoreOf wallet)]
  · rfl
  · intro row
    rw [hKey]
    exact isScoreOf_iff
  · intro eventType hType
    cases List.mem_singleton.mp hType
    exact hContract.symm

theorem newReport_eq {ids : ChainId × ChainId} (hKey : event.entityKey = reportKey ids.1 ids.2)
    (hContract : expectedContract env event.eventType = env.INVOICE_FRAUD_CONTRACT_ID) :
    (db.record event).newReport event = reports.of InvoiceEvent.position
      (db.record event).invoiceProtocolEvent.rows ids := by
  have hRecorded := accepted_record hChain hRows hEvent
  rw [InvoiceDb.newReport, latest_eq hRecorded hEvent _ (p := isSubmissionOf ids),
    latest_eq hRecorded hEvent _ (p := isResolutionOf ids)]
  · rfl
  · intro row
    rw [hKey]
    exact isResolutionOf_iff
  · intro eventType hType
    cases List.mem_singleton.mp hType
    exact hContract.symm
  · intro row
    rw [hKey]
    exact isSubmissionOf_iff
  · intro eventType hType
    cases List.mem_singleton.mp hType
    exact hContract.symm

theorem newChange_eq {proposalId : ChainId} (hKey : event.entityKey = changeKey proposalId)
    (hContract : expectedContract env event.eventType = env.INVOICE_TIMELOCK_CONTRACT_ID) :
    (db.record event).newChange event = changes.of InvoiceEvent.position
      (db.record event).invoiceProtocolEvent.rows proposalId := by
  have hRecorded := accepted_record hChain hRows hEvent
  rw [InvoiceDb.newChange, latest_eq hRecorded hEvent _ (p := isProposalOf proposalId),
    latest_eq hRecorded hEvent _ (p := isCompletionOf proposalId)]
  · rfl
  · intro row
    rw [hKey]
    exact isCompletionOf_iff
  · intro eventType hType
    simp only [List.mem_cons, List.not_mem_nil, or_false] at hType
    rcases hType with rfl | rfl
    · exact hContract.symm
    · exact hContract.symm
  · intro row
    rw [hKey]
    exact isProposalOf_iff
  · intro eventType hType
    cases List.mem_singleton.mp hType
    exact hContract.symm

/- A table follows the journal, if events concern one key. -/
theorem find?_record {κ ρ : Type} [Keyed ρ κ] [DecidableEq κ] {P : Projection InvoiceEvent κ ρ}
    {t : Table ρ}
    (hStored : ∀ k, t.find? k = P.of InvoiceEvent.position db.invoiceProtocolEvent.rows k) {own : κ}
    (hOther : ∀ k, k ≠ own → P.opens k event = false ∧ P.closes k event = false) (k : κ) :
    ((P.of InvoiceEvent.position (db.record event).invoiceProtocolEvent.rows own).elim t
      t.put).find? k = P.of InvoiceEvent.position
      (db.record event).invoiceProtocolEvent.rows k := by
  apply Projection.find?_step hStored
  · intro row hRow
    exact (mem_record_iff hChain hRows hEvent).mpr (.inl hRow)
  · intro other hNe
    rcases hOther other hNe with ⟨hOpens, hCloses⟩
    exact of_record hOpens hCloses

variable (hOld : RowsOf db.invoiceProtocolEvent.rows db)

include hOld

/- The score is that of the journal. -/
theorem score_rebuild (k : String) :
    ((db.record event).rebuild event).issuerScore.find? k = scores.of InvoiceEvent.position
      (db.record event).invoiceProtocolEvent.rows k := by
  cases hPayload : event.payload with
  | issuerScoreUpdated update =>
    have hKey : event.entityKey = scoreKey update.wallet := by
      rw [InvoiceEvent.entityKey, hPayload]
      rfl
    have hContract : expectedContract env event.eventType =
        env.ISSUER_REPUTATION_CONTRACT_ID := by
      rw [InvoiceEvent.eventType, hPayload]
      rfl
    simp only [InvoiceDb.rebuild, hPayload, issuerScore_record,
      newScore_eq hChain hRows hEvent hKey hContract]
    apply find?_record hChain hRows hEvent hOld.score
    intro other hOther
    simp [scores, isScoreOf, hPayload, Ne.symm hOther]
  | _ =>
    rw [of_record (by simp [scores, isScoreOf, hPayload]) rfl]
    simpa [InvoiceDb.rebuild, hPayload, InvoiceDb.restrict] using hOld.score k

theorem report_written (ids : ChainId × ChainId) (hConcerned :
    isSubmissionOf ids event = true ∨ isResolutionOf ids event = true) (k : ChainId × ChainId) :
    (((db.record event).newReport event).elim db.fraudReport db.fraudReport.put).find? k =
      reports.of InvoiceEvent.position (db.record event).invoiceProtocolEvent.rows k := by
  have hEntity : event.entityKey = reportKey ids.1 ids.2 ∧ expectedContract env event.eventType =
      env.INVOICE_FRAUD_CONTRACT_ID := by
    rcases hConcerned with hSubmitted | hResolved
    · rcases isSubmissionOf_iff.mp hSubmitted with ⟨hKey, hType⟩
      exact ⟨hKey, by rw [List.mem_singleton.mp hType]; rfl⟩
    · rcases isResolutionOf_iff.mp hResolved with ⟨hKey, hType⟩
      exact ⟨hKey, by rw [List.mem_singleton.mp hType]; rfl⟩
  rcases hEntity with ⟨hKey, hContract⟩
  rw [newReport_eq hChain hRows hEvent hKey hContract]
  apply find?_record hChain hRows hEvent hOld.report
  intro other hOther
  constructor
  · by_contra hKind
    have hSame := (isSubmissionOf_iff.mp (Bool.eq_true_of_not_eq_false hKind)).1
    exact hOther (reportKey_inj (hSame.symm.trans hKey))
  · by_contra hKind
    have hSame := (isResolutionOf_iff.mp (Bool.eq_true_of_not_eq_false hKind)).1
    exact hOther (reportKey_inj (hSame.symm.trans hKey))

/- So is the report. -/
theorem report_rebuild (k : ChainId × ChainId) :
    ((db.record event).rebuild event).fraudReport.find? k = reports.of InvoiceEvent.position
      (db.record event).invoiceProtocolEvent.rows k := by
  have hWritten := report_written hChain hRows hEvent hOld
  cases hPayload : event.payload with
  | reportSubmitted report =>
    simp only [InvoiceDb.rebuild, hPayload, fraudReport_record]
    apply hWritten (report.invoiceId, report.reportId)
    simp [isSubmissionOf, hPayload]
  | reportResolved report =>
    simp only [InvoiceDb.rebuild, hPayload, fraudReport_record]
    apply hWritten (report.invoiceId, report.reportId)
    simp [isResolutionOf, hPayload]
  | _ =>
    rw [of_record (by simp [reports, isSubmissionOf, hPayload])
      (by simp [reports, isResolutionOf, hPayload])]
    simpa [InvoiceDb.rebuild, hPayload, InvoiceDb.restrict] using hOld.report k

theorem change_written (proposalId : ChainId) (hConcerned :
    isProposalOf proposalId event = true ∨ isCompletionOf proposalId event = true) (k : ChainId) :
    (((db.record event).newChange event).elim db.timelockChange db.timelockChange.put).find? k =
      changes.of InvoiceEvent.position (db.record event).invoiceProtocolEvent.rows k := by
  have hEntity : event.entityKey = changeKey proposalId ∧ expectedContract env event.eventType =
      env.INVOICE_TIMELOCK_CONTRACT_ID := by
    rcases hConcerned with hProposed | hCompleted
    · rcases isProposalOf_iff.mp hProposed with ⟨hKey, hType⟩
      exact ⟨hKey, by rw [List.mem_singleton.mp hType]; rfl⟩
    · rcases isCompletionOf_iff.mp hCompleted with ⟨hKey, hType⟩
      refine ⟨hKey, ?_⟩
      simp only [List.mem_cons, List.not_mem_nil, or_false] at hType
      rcases hType with hType | hType
      · rw [hType]
        rfl
      · rw [hType]
        rfl
  rcases hEntity with ⟨hKey, hContract⟩
  rw [newChange_eq hChain hRows hEvent hKey hContract]
  apply find?_record hChain hRows hEvent hOld.change
  intro other hOther
  constructor
  · by_contra hKind
    have hSame := (isProposalOf_iff.mp (Bool.eq_true_of_not_eq_false hKind)).1
    exact hOther (changeKey_inj (hSame.symm.trans hKey))
  · by_contra hKind
    have hSame := (isCompletionOf_iff.mp (Bool.eq_true_of_not_eq_false hKind)).1
    exact hOther (changeKey_inj (hSame.symm.trans hKey))

/- And so is the change. -/
theorem change_rebuild (k : ChainId) :
    ((db.record event).rebuild event).timelockChange.find? k = changes.of InvoiceEvent.position
      (db.record event).invoiceProtocolEvent.rows k := by
  have hWritten := change_written hChain hRows hEvent hOld
  cases hPayload : event.payload with
  | changeProposed proposal =>
    simp only [InvoiceDb.rebuild, hPayload, timelockChange_record]
    apply hWritten proposal.proposalId
    simp [isProposalOf, hPayload]
  | changeExecuted completion =>
    simp only [InvoiceDb.rebuild, hPayload, timelockChange_record]
    apply hWritten completion.proposalId
    simp [isCompletionOf, hPayload]
  | changeCancelled completion =>
    simp only [InvoiceDb.rebuild, hPayload, timelockChange_record]
    apply hWritten completion.proposalId
    simp [isCompletionOf, hPayload]
  | _ =>
    rw [of_record (by simp [changes, isProposalOf, hPayload])
      (by simp [changes, isCompletionOf, hPayload])]
    simpa [InvoiceDb.rebuild, hPayload, InvoiceDb.restrict] using hOld.change k

end

theorem journal_rebuild (db : InvoiceDb) (event : InvoiceEvent) :
    (db.rebuild event).invoiceProtocolEvent = db.invoiceProtocolEvent := by
  unfold InvoiceDb.rebuild
  split <;> rfl

variable {batches : List (List RawInvoiceEvent)} {raw : RawInvoiceEvent}

theorem mem_of_delivered (hDelivered : ∀ batch ∈ batches, ∀ raw ∈ batch, raw ∈ raws)
    (hRaw : raw ∈ delivered batches) :
    raw ∈ raws := by
  rcases List.mem_flatMap.mp hRaw with ⟨batch, hBatch, hDedupe⟩
  rw [dedupe_eq_firsts] at hDedupe
  exact hDelivered batch hBatch raw (mem_of_mem_firstsFrom hDedupe).1

theorem mem_accepted (hRaw : raw ∈ raws) (hAccept : acceptInvoiceEvent env raw = some event) :
    event ∈ accepted env raws := List.mem_filterMap.mpr ⟨raw, hRaw, hAccept⟩

/- The journal holds accepted events, and the rows are its own. -/
def FollowsJournal (env : InvoiceEnv) (raws : List RawInvoiceEvent) (db : InvoiceDb) : Prop :=
  (∀ row ∈ db.invoiceProtocolEvent.rows, row ∈ accepted env raws) ∧
  RowsOf db.invoiceProtocolEvent.rows db

variable {order : List Nat}

/- What has been committed keeps the rows those of the journal. -/
theorem followsJournal_serial (hChain : OneChain (accepted env raws))
    (hDelivered : ∀ batch ∈ batches, ∀ raw ∈ batch, raw ∈ raws)
    (hSerial : SerialRun ((delivered batches).map (processInvoiceProtocolEvent env))
      InvoiceDb.empty order db) :
    FollowsJournal env raws db := by
  refine SerialRun.invariant (I := FollowsJournal env raws)
    ⟨fun _ hRow => (List.not_mem_nil hRow).elim, ?_⟩ ?_ hSerial
  · exact
      { score := fun _ => rfl
        report := fun _ => rfl
        change := fun _ => rfl }
  · rintro body hBody db value db' ⟨hRows, hOld⟩ hStep
    rcases List.mem_map.mp hBody with ⟨raw, hRaw, rfl⟩
    rcases serial_process hStep with ⟨event, hAccept, rfl⟩
    have hEvent := mem_accepted (mem_of_delivered hDelivered hRaw) hAccept
    rw [FollowsJournal, journal_rebuild]
    exact ⟨accepted_record hChain hRows hEvent,
      { score := score_rebuild hChain hRows hEvent hOld
        report := report_rebuild hChain hRows hEvent hOld
        change := change_rebuild hChain hRows hEvent hOld }⟩

/- The committed calls leave just the events delivered. -/
theorem journal_of_committed (hChain : OneChain (accepted env raws))
    (hDelivered : ∀ batch ∈ batches, ∀ raw ∈ batch, raw ∈ raws)
    (hSerial : SerialRun ((delivered batches).map (processInvoiceProtocolEvent env))
      InvoiceDb.empty order db) {i : Nat} {raw : RawInvoiceEvent}
    (hRaw : (delivered batches)[i]? = some raw) (hAccept : acceptInvoiceEvent env raw = some event)
    (hOrder : i ∈ order) :
    event ∈ db.invoiceProtocolEvent.rows := by
  have hBody : ((delivered batches).map (processInvoiceProtocolEvent env))[i]? =
      some (processInvoiceProtocolEvent env raw) := by
    rw [List.getElem?_map, hRaw]
    rfl
  refine SerialRun.effect (Q := fun db => event ∈ db.invoiceProtocolEvent.rows)
    hBody ?_ ?_ hSerial hOrder
  · intro order db value db' hRun hStep
    have hRows := (followsJournal_serial hChain hDelivered hRun).1
    rcases serial_process hStep with ⟨own, hOwn, rfl⟩
    rw [hAccept] at hOwn
    cases hOwn
    have hEvent := mem_accepted (mem_of_delivered hDelivered (List.mem_of_getElem? hRaw)) hAccept
    rw [journal_rebuild]
    exact (mem_record_iff hChain hRows hEvent).mpr (.inr rfl)
  · intro body hOther db value db' hStored hStep
    rcases List.mem_map.mp hOther with ⟨raw', -, rfl⟩
    rcases serial_process hStep with ⟨other, -, rfl⟩
    rw [journal_rebuild, rows_record]
    split
    · exact hStored
    · exact List.mem_append_left _ hStored

end

-- The Latest Status
----

def concernsReport (ids : ChainId × ChainId) (event : InvoiceEvent) : Bool :=
  isSubmissionOf ids event || isResolutionOf ids event

def concernsChange (proposalId : ChainId) (event : InvoiceEvent) : Bool :=
  isProposalOf proposalId event || isCompletionOf proposalId event

/- The status that an event stands for. -/
def ReportStatus.after (event : InvoiceEvent) : ReportStatus :=
  if event.eventType = .reportResolved then .resolved else .opened

def ChangeStatus.after (event : InvoiceEvent) : ChangeStatus :=
  if event.eventType = .changeProposed then .pending
  else .ofTerminal (some event)

/- The status of a row is what its latest event says. -/
structure StatusOfLatest (events : List InvoiceEvent) (db : InvoiceDb) : Prop where
  report :
    ∀ ids row, db.fraudReport.find? ids = some row → ∀ latest ∈ latestOf InvoiceEvent.position
      (events.filter (concernsReport ids)), row.status = .after latest
  change : ∀ proposalId row, db.timelockChange.find? proposalId = some row →
    ∀ latest ∈ latestOf InvoiceEvent.position (events.filter (concernsChange proposalId)),
      row.status = .after latest

/- What is resolved or completed is not begun again. -/
structure NothingReopened (events : List InvoiceEvent) : Prop where
  report : ∀ ids, ∀ event ∈ events, ∀ other ∈ events, isSubmissionOf ids event = true →
    isResolutionOf ids other = true → event.position < other.position
  change : ∀ proposalId, ∀ event ∈ events, ∀ other ∈ events, isProposalOf proposalId event = true →
    isCompletionOf proposalId other = true → event.position < other.position

variable {events : List InvoiceEvent} {event : InvoiceEvent} {db : InvoiceDb}

theorem status_of_report (hDistinct : DistinctPositions InvoiceEvent.position events)
    (hOrder : NothingReopened events) {ids : ChainId × ChainId} {row : FraudReport}
    (hRow : reports.of InvoiceEvent.position events ids = some row) {latest : InvoiceEvent}
    (hLatest : latestOf InvoiceEvent.position (events.filter (concernsReport ids)) = some latest) :
    row.status = .after latest := by
  rcases Option.bind_eq_some_iff.mp hRow with ⟨submitted, hSubmitted, hOf⟩
  have hOpens := (List.mem_filter.mp (mem_of_latestOf hSubmitted)).2
  have hSubmission := (isSubmissionOf_iff.mp hOpens).2
  have hStatus : row.status =
      if (latestOf InvoiceEvent.position (events.filter (isResolutionOf ids))).isSome then
        .resolved
      else .opened := by
    change FraudReport.ofEvents submitted _ = some row at hOf
    unfold FraudReport.ofEvents at hOf
    split at hOf
    · cases hOf
      rfl
    · cases hOf
  have hEither := latestOf_filter_or hDistinct (hOrder.report ids)
  cases hResolved : latestOf InvoiceEvent.position (events.filter (isResolutionOf ids)) with
  | none =>
    have hSame : submitted = latest := by
      rw [hResolved] at hEither
      exact Option.some.inj (hSubmitted.symm.trans (hEither.symm.trans hLatest))
    rw [hStatus, hResolved, ReportStatus.after, ← hSame, List.mem_singleton.mp hSubmission]
    rfl
  | some resolved =>
    have hSame : resolved = latest := by
      rw [hResolved] at hEither
      exact Option.some.inj (hEither.symm.trans hLatest)
    have hCloses := (List.mem_filter.mp (mem_of_latestOf hResolved)).2
    have hResolution := (isResolutionOf_iff.mp hCloses).2
    rw [hStatus, hResolved, ReportStatus.after, ← hSame, List.mem_singleton.mp hResolution]
    rfl

theorem status_of_change (hDistinct : DistinctPositions InvoiceEvent.position events)
    (hOrder : NothingReopened events) {proposalId : ChainId} {row : TimelockChange}
    (hRow : changes.of InvoiceEvent.position events proposalId = some row) {latest : InvoiceEvent}
    (hLatest :
      latestOf InvoiceEvent.position (events.filter (concernsChange proposalId)) = some latest) :
    row.status = .after latest := by
  rcases Option.bind_eq_some_iff.mp hRow with ⟨proposed, hProposed, hOf⟩
  have hOpens := (List.mem_filter.mp (mem_of_latestOf hProposed)).2
  have hProposal := (isProposalOf_iff.mp hOpens).2
  have hStatus : row.status = ChangeStatus.ofTerminal (latestOf InvoiceEvent.position
      (events.filter (isCompletionOf proposalId))) := by
    change TimelockChange.ofEvents proposed _ = some row at hOf
    unfold TimelockChange.ofEvents at hOf
    split at hOf
    · cases hOf
      rfl
    · cases hOf
  have hEither := latestOf_filter_or hDistinct (hOrder.change proposalId)
  cases hCompleted : latestOf InvoiceEvent.position (events.filter (isCompletionOf proposalId)) with
  | none =>
    have hSame : proposed = latest := by
      rw [hCompleted] at hEither
      exact Option.some.inj (hProposed.symm.trans (hEither.symm.trans hLatest))
    rw [hStatus, hCompleted, ChangeStatus.after, ← hSame, if_pos (List.mem_singleton.mp hProposal)]
    rfl
  | some completed =>
    have hSame : completed = latest := by
      rw [hCompleted] at hEither
      exact Option.some.inj (hEither.symm.trans hLatest)
    have hCloses := (List.mem_filter.mp (mem_of_latestOf hCompleted)).2
    have hCompletion := (isCompletionOf_iff.mp hCloses).2
    rw [hStatus, hCompleted, ChangeStatus.after, ← hSame, if_neg]
    intro hType
    rw [hType] at hCompletion
    simp at hCompletion

/-
  Once every event is committed, the rows are those of the set of
  events, and if nothing is reopened their statuses are those of
  the latest events.
-/
theorem invoice_rows_converge {env : InvoiceEnv} {raws : List RawInvoiceEvent}
    {batches : List (List RawInvoiceEvent)} {turns : List Turn}
    {state : Isolation InvoiceDb ℤ InvoiceError (Option String)}
    (hChain : OneChain (accepted env raws))
    (hDelivered : ∀ batch ∈ batches, ∀ raw ∈ batch, raw ∈ raws)
    (hRun : RunsTo Isolation.step (fun _ _ => True) (invoiceHandlers env batches) turns state)
    (hDone : ∀ raw ∈ raws, acceptInvoiceEvent env raw ≠ none → ∃ i : Nat,
      (delivered batches)[i]? = some raw ∧ state.sessions[i]?.map Session.phase =
        some .committed) :
    RowsOf (accepted env raws) state.committed ∧ (NothingReopened (accepted env raws) →
      StatusOfLatest (accepted env raws) state.committed) := by
  have hLocked : ∀ body ∈ (delivered batches).map (processInvoiceProtocolEvent env),
      body.Locked (AgreeOn env (accepted env raws)) := by
    intro body hBody
    rcases List.mem_map.mp hBody with ⟨raw, hRaw, rfl⟩
    exact locked_process hChain (mem_of_delivered hDelivered hRaw)
  rcases serialRun_of_locked (agreeOn_equivalence env (accepted env raws)) hLocked hRun with
    ⟨order, hSerial, hCommitted⟩
  have hJournal := followsJournal_serial hChain hDelivered hSerial
  have hSame : ∀ event, event ∈ state.committed.invoiceProtocolEvent.rows ↔
      event ∈ accepted env raws := by
    intro event
    constructor
    · exact hJournal.1 event
    · intro hEvent
      rcases List.mem_filterMap.mp hEvent with ⟨raw, hRaw, hAccept⟩
      rcases hDone raw hRaw (by simp [hAccept]) with ⟨i, hGet, hPhase⟩
      rcases Option.map_eq_some_iff.mp hPhase with ⟨session, hSession, hPhase⟩
      exact journal_of_committed hChain hDelivered hSerial hGet hAccept
        ((hCommitted i session hSession).mp hPhase)
  have hRows : RowsOf (accepted env raws) state.committed :=
    { score := fun wallet => (hJournal.2.score wallet).trans
          (Projection.of_congr hChain.positions hSame wallet)
      report := fun ids => (hJournal.2.report ids).trans
        (Projection.of_congr hChain.positions hSame ids)
      change := fun proposalId => (hJournal.2.change proposalId).trans
        (Projection.of_congr hChain.positions hSame proposalId) }
  refine ⟨hRows, fun hOrder => ?_⟩
  exact
    { report := fun ids row hRow latest hLatest => status_of_report hChain.positions hOrder
          ((hRows.report ids).symm.trans hRow) hLatest
      change := fun proposalId row hRow latest hLatest => status_of_change hChain.positions hOrder
        ((hRows.change proposalId).symm.trans hRow) hLatest }

/- The digests of the events below and of the key they share. -/
def timelockEnv : InvoiceEnv where
  STELLAR_NETWORK := "testnet"
  ISSUER_REPUTATION_CONTRACT_ID := none
  INVOICE_FRAUD_CONTRACT_ID := none
  INVOICE_TIMELOCK_CONTRACT_ID := some "C"
  INVOICE_TRANSFER_CONTRACT_ID := none
  sha256 := fun text =>
    match text.toList[6]? with
    | some 't' => "30f3359d8589cb8f28ceb45b1472f0cf" ++ "c11ac9dc238bc9e88325efddf3d35049"
    | some 'u' => "a85dc0ede98d64e1c270850129acbcf9" ++ "60a71d77cb9f552368e43e697270ebca"
    | _ => "0352b2d76200892969d71a24d103ecce" ++ "dfe412aa795fa5db6039107c5c3a4ec0"
  hashtext := fun _ => -182220975
  dateOf := fun _ => none

def timelockEvent (eventType txHash : String) (ledger : ℤ)
    (fields : List (String × Json)) : RawInvoiceEvent where
  toIndexerChainEvent := bareEvent eventType txHash 0 ledger
  payload :=
    { contractId := some "C"
      transactionIndex := some 1
      timestamp := some (.number ledger 0)
      ledgerClosedAt := none
      payload := .object (("proposal_id", .string "7") :: fields) }

def proposedIn (txHash target : String) (ledger : ℤ) : RawInvoiceEvent :=
  timelockEvent "ChangeProposed" txHash ledger
    [("target", .string target), ("function", .string "set_fee"),
      ("params", .array []), ("eta", .number 9 0)]

def cancelledIn (txHash : String) (ledger : ℤ) : RawInvoiceEvent :=
  timelockEvent "CHANGE_CANCELLED" txHash ledger []

/- Serve a number of statements of one transaction; commit it. -/
def committedTurns (i count : Nat) : List Turn := List.replicate count (.execute i) ++ [.commit i]

theorem oneChain_of_columns (hPositions : (events.map InvoiceEvent.position).Nodup)
    (hHashes : (events.map InvoiceEvent.txHash).Nodup) (hIds : (events.map InvoiceEvent.id).Nodup) :
    OneChain events where
  positions := fun _ hEvent _ hOther hSame =>
    List.inj_on_of_nodup_map hPositions hEvent hOther hSame
  transactions := by
    intro event hEvent other hOther hSame
    rw [List.inj_on_of_nodup_map hHashes hEvent hOther hSame]
    exact ⟨rfl, rfl⟩
  digests := by
    intro event hEvent other hOther hSame
    rw [List.inj_on_of_nodup_map hIds hEvent hOther hSame]

theorem invoice_rows_converge_sample :
    ∃ state, RunsTo Isolation.step (fun _ _ => True) (invoiceHandlers timelockEnv
      [[cancelledIn "u" 2], [proposedIn "t" "T" 1]])
      (committedTurns 0 3 ++ committedTurns 1 5) state ∧
      (state.committed.timelockChange.find? 7).map TimelockChange.status = some .cancelled ∧ RowsOf
        (accepted timelockEnv [proposedIn "t" "T" 1, cancelledIn "u" 2]) state.committed := by
  have hRun := runsTo_of_runLabels (Option.some_get (show (runLabels Isolation.step
      (invoiceHandlers timelockEnv [[cancelledIn "u" 2], [proposedIn "t" "T" 1]])
      (committedTurns 0 3 ++ committedTurns 1 5)).isSome =
        true by
      decide +kernel)).symm
  have hRows := @invoice_rows_converge timelockEnv [proposedIn "t" "T" 1, cancelledIn "u" 2]
      [[cancelledIn "u" 2], [proposedIn "t" "T" 1]] _ _
      (oneChain_of_columns (by decide +kernel) (by decide +kernel) (by decide +kernel))
      (by simp) hRun (by
        intro raw hRaw _
        simp only [List.mem_cons, List.not_mem_nil, or_false] at hRaw
        rcases hRaw with rfl | rfl
        · exact ⟨1, rfl, by decide +kernel⟩
        · exact ⟨0, rfl, by decide +kernel⟩)
  exact ⟨_, hRun, by decide +kernel, hRows.1⟩

theorem not_statusOfLatest {k : ChainId}
    (hStored : (db.timelockChange.find? k).map TimelockChange.status = some .cancelled)
    (hLatest : (latestOf InvoiceEvent.position (events.filter (concernsChange k))).map
      ChangeStatus.after = some .pending) :
    ¬StatusOfLatest events db := by
  intro hStatus
  rcases Option.map_eq_some_iff.mp hStored with ⟨row, hRow, hCancelled⟩
  rcases Option.map_eq_some_iff.mp hLatest with ⟨latest, hFound, hPending⟩
  have hSame := hStatus.change k row hRow latest hFound
  rw [hPending, hCancelled] at hSame
  cases hSame

/- A proposal that is cancelled and made again. -/
def reproposed : List RawInvoiceEvent :=
  [proposedIn "t" "T" 1, cancelledIn "u" 2, proposedIn "v" "U" 3]

/- A change that is proposed again stays cancelled. -/
theorem reproposed_change_stays_cancelled :
    OneChain (accepted timelockEnv reproposed) ∧ ∃ turns state,
      RunsTo Isolation.step (fun _ _ => True)
        (invoiceHandlers timelockEnv [reproposed]) turns state ∧
      (state.sessions.all fun session => session.phase = .committed) ∧
      ¬StatusOfLatest (accepted timelockEnv reproposed) state.committed := by
  refine ⟨oneChain_of_columns (by decide +kernel) (by decide +kernel) (by decide +kernel),
    committedTurns 0 5 ++ committedTurns 1 5 ++ committedTurns 2 5, _, runsTo_of_runLabels
      (Option.some_get (show (runLabels _ _ _).isSome = true by
        decide +kernel)).symm,
    by decide +kernel, ?_⟩
  exact not_statusOfLatest (k := 7) (by decide +kernel) (by decide +kernel)

end Indexer

end AccessLayer
