import AccessLayer.Indexer.InvoiceEvents
import AccessLayer.Library.Attempts
import AccessLayer.Library.Machines

/-
  Social profiles of creators
  (`src/modules/indexer/social-metadata-indexer.service.ts`,
  `src/utils/pinata-gateway.utils.ts`,
  `prisma/schema/social-metadata.prisma`).

  How `Date` reads a text and what `normalizeSocialLinkUrl` makes
  of a URL are left open; it answers `none` where it throws.  The
  raw payload of an event's record, caches and logs of the
  process are left out.

  Main result: `social_fields_keep_newest`
-/

-- Events
----

namespace AccessLayer

namespace Indexer

open Transactional Program

section

structure SocialEnv where
  PINATA_GATEWAY_URL : String
  normalizeSocialLinkUrl : String → Option String
  dateOf : String → Option ℤ

/- A field that is no text is `none`. -/
structure RawSocialLink where
  label : Option String
  url : Option String

structure SocialMetadataLink where
  label : String
  url : String
  deriving DecidableEq

inductive SocialDate where
  | text (value : String)
  | number (value : ℚ)

/- A missing field is `none`, a field that is null `some none`. -/
structure SocialFields where
  displayName : Option (Option String)
  bio : Option (Option String)
  avatarCid : Option (Option String)
  avatarUrl : Option (Option String)
  socialLinks : Option (Option (List RawSocialLink))
  socialUpdatedAt : Option SocialDate

abbrev SocialMetadataUpdatedEvent := PipelineEvent SocialFields

def socialMetadataUpdatedEventType : String := "SOCIAL_METADATA_UPDATED"

def parseEventDate (env : SocialEnv) : Option SocialDate → Option ℤ
  | none => none
  | some (.text value) =>
    if value = "" then none else env.dateOf value
  | some (.number value) => timeClip value

/- A link whose label and URL are not blank, trimmed. -/
def presentLink (link : RawSocialLink) : Option SocialMetadataLink := do
  let label ← textField link.label
  let url ← textField link.url
  some { label, url }

/- `none` where a URL is invalid. -/
def normalizeSocialLinks (env : SocialEnv) (links : Option (List RawSocialLink)) :
    Option (Option (List SocialMetadataLink)) := do
  let normalized ← ((links.getD []).filterMap presentLink).mapM fun link => do
    let url ← env.normalizeSocialLinkUrl link.url
    some { link with url }
  some (if normalized = [] then none else some normalized)

/- What follows the first occurrence of a text. -/
def afterFirst (mark : List Char) : List Char → Option (List Char)
  | [] => none
  | c :: cs =>
    if mark.isPrefixOf (c :: cs) then
      some ((c :: cs).drop mark.length)
    else afterFirst mark cs

def ipfsUriScheme : List Char := "ipfs://".toList

def ipfsGatewayPath : List Char := "/ipfs/".toList

def normalizeIpfsCid (input : Option String) : Option String :=
  (textField input).bind fun text =>
    let value := text.toList
    let bare :=
      if ipfsUriScheme.isPrefixOf value then
        value.drop ipfsUriScheme.length
      else value
    let path := (afterFirst ipfsGatewayPath bare).getD bare
    textField (some (String.ofList (path.takeWhile (· ∉ ['/', '?', '#']))))

def resolvePinataGatewayUrl (env : SocialEnv) (cid : Option String) : Option String :=
  (normalizeIpfsCid cid).map fun normalizedCid =>
    let gatewayBase := String.ofList (env.PINATA_GATEWAY_URL.toList.rdropWhile (· = '/'))
    gatewayBase ++ "/" ++ normalizedCid

/- The URL of an avatar, from its identifier if there is one. -/
def avatarUrlOf (env : SocialEnv) (event : SocialMetadataUpdatedEvent) : Option String :=
  (resolvePinataGatewayUrl env event.payload.avatarCid.join).or
    (textField event.payload.avatarUrl.join)

-- Profiles
----

structure SocialMetadataEvent where
  creatorId : String
  txHash : String
  eventIndex : Nat
  ledger : Option ℤ
  actor : Option String
  displayName : Option String
  bio : Option String
  avatarCid : Option String
  avatarUrl : Option String
  socialLinks : Option (List SocialMetadataLink)
  socialUpdatedAt : Option ℤ

instance : Keyed SocialMetadataEvent (String × Nat) where
  key row := (row.txHash, row.eventIndex)

structure CreatorSocialMetadata where
  creatorId : String
  displayName : Option String
  bio : Option String
  avatarCid : Option String
  avatarUrl : Option String
  socialLinks : Option (List SocialMetadataLink)
  sourceLedger : Option ℤ
  sourceTxHash : Option String
  sourceEventIndex : Option Nat
  socialUpdatedAt : Option ℤ

instance : Keyed CreatorSocialMetadata String where
  key row := row.creatorId

structure SocialDb where
  socialMetadataEvent : Table SocialMetadataEvent
  creatorSocialMetadata : Table CreatorSocialMetadata

def SocialDb.empty : SocialDb where
  socialMetadataEvent := .empty
  creatorSocialMetadata := .empty

inductive SocialError where
  | database
  | uniqueViolation
  | invalidUrl
  deriving DecidableEq

abbrev SocialM := Program SocialDb SocialError

def isStaleRelativeToSnapshot (snapshot : CreatorSocialMetadata)
    (incomingLedger incomingSocialUpdatedAt : Option ℤ) : Bool :=
  (∃ incoming ∈ incomingSocialUpdatedAt, ∃ synced ∈ snapshot.socialUpdatedAt, incoming < synced) ∨
    ∃ incoming ∈ incomingLedger, ∃ synced ∈ snapshot.sourceLedger, incoming < synced

/- Append the event to the history. -/
def recordSocialEvent (env : SocialEnv) (event : SocialMetadataUpdatedEvent) (creatorId : String)
    (socialLinks : Option (List SocialMetadataLink))
    (db : SocialDb) : Except SocialError (Unit × SocialDb) :=
  match db.socialMetadataEvent.insert?
    { creatorId
      txHash := event.txHash
      eventIndex := event.eventIndex
      ledger := event.ledger
      actor := event.actor
      displayName := event.payload.displayName.join
      bio := event.payload.bio.join
      avatarCid := normalizeIpfsCid event.payload.avatarCid.join
      avatarUrl := avatarUrlOf env event
      socialLinks
      socialUpdatedAt := parseEventDate env event.payload.socialUpdatedAt } with
  | none => .error .uniqueViolation
  | some socialMetadataEvent => .ok ((), { db with socialMetadataEvent })

def firstProfile (env : SocialEnv) (event : SocialMetadataUpdatedEvent) (creatorId : String)
    (socialLinks : Option (List SocialMetadataLink)) :
    CreatorSocialMetadata where
  creatorId := creatorId
  displayName := event.payload.displayName.join
  bio := event.payload.bio.join
  avatarCid := normalizeIpfsCid event.payload.avatarCid.join
  avatarUrl := avatarUrlOf env event
  socialLinks := socialLinks
  sourceLedger := event.ledger
  sourceTxHash := some event.txHash
  sourceEventIndex := some event.eventIndex
  socialUpdatedAt := parseEventDate env event.payload.socialUpdatedAt

/- Only the fields that the event carries are overwritten. -/
def updateProfile (env : SocialEnv) (event : SocialMetadataUpdatedEvent)
    (socialLinks : Option (List SocialMetadataLink))
    (row : CreatorSocialMetadata) : CreatorSocialMetadata :=
  { row with
    displayName := event.payload.displayName.getD row.displayName
    bio := event.payload.bio.getD row.bio
    avatarCid :=
      if event.payload.avatarCid.isSome then
        normalizeIpfsCid event.payload.avatarCid.join
      else row.avatarCid
    avatarUrl :=
      if event.payload.avatarUrl.isSome ∨ event.payload.avatarCid.isSome then
        avatarUrlOf env event
      else row.avatarUrl
    socialLinks :=
      if event.payload.socialLinks.isSome then socialLinks
      else row.socialLinks
    sourceLedger := event.ledger
    sourceTxHash := some event.txHash
    sourceEventIndex := some event.eventIndex
    socialUpdatedAt :=
      (parseEventDate env event.payload.socialUpdatedAt).or
        row.socialUpdatedAt }

def syncProfile (env : SocialEnv) (event : SocialMetadataUpdatedEvent) (creatorId : String)
    (socialLinks : Option (List SocialMetadataLink))
    (db : SocialDb) : Except SocialError (Unit × SocialDb) :=
  .ok ((), { db with
        creatorSocialMetadata :=
          db.creatorSocialMetadata.upsert (firstProfile env event creatorId socialLinks)
            (updateProfile env event socialLinks) (fun _ => rfl) })

/- The event is older than what the profile shows. -/
def isStale (env : SocialEnv) (event : SocialMetadataUpdatedEvent) (creatorId : String)
    (db : SocialDb) : Bool :=
  (db.creatorSocialMetadata.find? creatorId).any fun snapshot =>
    isStaleRelativeToSnapshot snapshot event.ledger
      (parseEventDate env event.payload.socialUpdatedAt)

def isRecorded (event : SocialMetadataUpdatedEvent) (db : SocialDb) : Bool :=
  (db.socialMetadataEvent.find? (event.txHash, event.eventIndex)).isSome

/- Answers whether the event was new. -/
def processSocialMetadataUpdatedEvent (env : SocialEnv)
    (event : SocialMetadataUpdatedEvent) : SocialM Bool :=
  match present event.creatorId with
  | none => pure false
  | some creatorId => do
    let existing ← query .database (isRecorded event)
    if existing then pure false
    else
      match normalizeSocialLinks env event.payload.socialLinks.join with
      | none => throw .invalidUrl
      | some socialLinks => do
        let recorded ← tryCatch (do
          execute .database (recordSocialEvent env event creatorId socialLinks)
          pure true)
          (fun error =>
            if error = .uniqueViolation then pure false
            else throw error)
        if recorded then do
          let stale ← query .database (isStale env event creatorId)
          if stale then pure true
          else do
            execute .database (syncProfile env event creatorId socialLinks)
            pure true
        else pure false

def handleSocialMetadataEvent (env : SocialEnv)
    (event : SocialMetadataUpdatedEvent) : SocialM Unit :=
  if event.eventType = socialMetadataUpdatedEventType then do
    let _ ← processSocialMetadataUpdatedEvent env event
  else pure ()

-- Deliveries
----

inductive SocialField where
  | displayName
  | bio
  | avatarCid
  | avatarUrl
  | socialLinks

inductive SocialValue where
  | null
  | text (value : String)
  | links (value : List SocialMetadataLink)
  deriving DecidableEq

def SocialValue.ofText : Option String → SocialValue
  | none => .null
  | some value => .text value

def SocialValue.ofLinks : Option (List SocialMetadataLink) → SocialValue
  | none => .null
  | some value => .links value

namespace SocialField

def sets (event : SocialMetadataUpdatedEvent) : SocialField → Bool
  | .displayName => event.payload.displayName.isSome
  | .bio => event.payload.bio.isSome
  | .avatarCid => event.payload.avatarCid.isSome
  | .avatarUrl => event.payload.avatarUrl.isSome ∨ event.payload.avatarCid.isSome
  | .socialLinks => event.payload.socialLinks.isSome

def carried (env : SocialEnv) (event : SocialMetadataUpdatedEvent) : SocialField → SocialValue
  | .displayName => .ofText event.payload.displayName.join
  | .bio => .ofText event.payload.bio.join
  | .avatarCid => .ofText (normalizeIpfsCid event.payload.avatarCid.join)
  | .avatarUrl => .ofText (avatarUrlOf env event)
  | .socialLinks => .ofLinks (normalizeSocialLinks env event.payload.socialLinks.join).join

def stored (row : CreatorSocialMetadata) : SocialField → SocialValue
  | .displayName => .ofText row.displayName
  | .bio => .ofText row.bio
  | .avatarCid => .ofText row.avatarCid
  | .avatarUrl => .ofText row.avatarUrl
  | .socialLinks => .ofLinks row.socialLinks

end SocialField

/-
  A delivery of an event, which ends when the handler does or
  the outcomes of its statements are exhausted.
-/
structure SocialDelivery where
  event : SocialMetadataUpdatedEvent
  outcomes : List Outcome

def socialStep (env : SocialEnv) (db : SocialDb) (delivery : SocialDelivery) : Option SocialDb :=
  some ((handleSocialMetadataEvent env delivery.event).attempt delivery.outcomes db)

/- The creator whose profile an event concerns. -/
def socialCreator (event : SocialMetadataUpdatedEvent) : Option String :=
  if event.eventType = socialMetadataUpdatedEventType then
    present event.creatorId
  else none

namespace SocialDelivery

variable (env : SocialEnv) (delivery : SocialDelivery) (db : SocialDb)

/- The delivery appends its event to the history. -/
def records : Bool :=
  (socialCreator delivery.event).isSome ∧ isRecorded delivery.event db = false ∧
    (normalizeSocialLinks env delivery.event.payload.socialLinks.join).isSome ∧
    delivery.outcomes[0]? = some .served ∧ takesEffect delivery.outcomes[1]? = true

/- A delivery that records its event also writes the profile. -/
def syncs : Bool :=
  delivery.outcomes[1]? = some .served ∧ delivery.outcomes[2]? = some .served ∧
    takesEffect delivery.outcomes[3]? = true ∧ (socialCreator delivery.event).any
      (isStale env delivery.event · db) = false

end SocialDelivery

structure RecordedSetter (events : List SocialMetadataUpdatedEvent) (db : SocialDb)
    (creatorId : String) (field : SocialField) (event : SocialMetadataUpdatedEvent) : Prop where
  mem : event ∈ events
  creator : socialCreator event = some creatorId
  recorded : isRecorded event db = true
  sets : field.sets event = true

/-
  Each field shows what the newest recorded event that sets it
  carries; `place` is the order of the chain.
-/
def ShowsNewest {π : Type} [LinearOrder π] (env : SocialEnv)
    (place : SocialMetadataUpdatedEvent → π) (events : List SocialMetadataUpdatedEvent)
    (db : SocialDb) : Prop :=
  ∀ creatorId field newest, RecordedSetter events db creatorId field newest →
    (∀ other, RecordedSetter events db creatorId field other → place other ≤ place newest) →
    ∃ row, db.creatorSocialMetadata.find? creatorId = some row ∧
      field.stored row = field.carried env newest

/-
  A delivery that writes the profile sets no field that a later
  event has set; one that only records its event sets no other.
-/
def Keeps {π : Type} [LinearOrder π] (env : SocialEnv) (place : SocialMetadataUpdatedEvent → π)
    (events : List SocialMetadataUpdatedEvent) (db : SocialDb) (delivery : SocialDelivery) : Prop :=
  delivery.records env db = true → ∀ creatorId ∈ socialCreator delivery.event, ∀ field,
    field.sets delivery.event = true →
      if delivery.syncs env db then
        ∀ other, RecordedSetter events db creatorId field other →
          place other < place delivery.event
      else
        ∃ other, RecordedSetter events db creatorId field other ∧
          place delivery.event < place other

/- The events have identifiers of their own. -/
def DistinctIds (events : List SocialMetadataUpdatedEvent) : Prop :=
  ∀ event ∈ events, ∀ other ∈ events, (event.txHash, event.eventIndex) =
    (other.txHash, other.eventIndex) → event = other

/- Deliveries of events, which their identifiers tell apart. -/
structure DeliveriesOf (events : List SocialMetadataUpdatedEvent)
    (deliveries : List SocialDelivery) : Prop where
  distinct : DistinctIds events
  sound : ∀ delivery ∈ deliveries, delivery.event ∈ events

/-
  However the events are delivered, each field of a profile ends
  with the value of the newest event that sets it.
-/
def SocialConverges {π : Type} [LinearOrder π] (env : SocialEnv)
    (place : SocialMetadataUpdatedEvent → π) (events : List SocialMetadataUpdatedEvent) : Prop :=
  ∀ deliveries db, DeliveriesOf events deliveries →
    RunsTo (socialStep env) (fun _ _ => True) .empty deliveries db →
    (∀ event ∈ events, isRecorded event db = true) → ShowsNewest env place events db

end

-- What a Delivery Writes
----

section

variable {env : SocialEnv} {event : SocialMetadataUpdatedEvent} {creatorId : String}
variable {links : Option (List SocialMetadataLink)} {db db' : SocialDb}

theorem exists_recordSocialEvent (hNew : isRecorded event db = false) :
    ∃ db', recordSocialEvent env event creatorId links db = .ok ((), db') ∧
      db'.creatorSocialMetadata = db.creatorSocialMetadata ∧ ∀ other, isRecorded other db' = true ↔
        isRecorded other db = true ∨ (other.txHash, other.eventIndex) =
          (event.txHash, event.eventIndex) := by
  unfold isRecorded at hNew
  rw [Option.isSome_eq_false_iff, Option.isNone_iff_eq_none] at hNew
  unfold recordSocialEvent
  rw [Table.insert?_of_fresh hNew]
  refine ⟨_, rfl, rfl, ?_⟩
  intro other
  unfold isRecorded
  rw [Table.find?_create]
  split
  · rename_i hSame
    simp only [Option.isSome_some, true_iff]
    exact .inr hSame
  · rename_i hOther
    constructor
    · exact .inl
    · rintro (hOld | hSame)
      · exact hOld
      · exact absurd hSame hOther

variable {row : CreatorSocialMetadata}

theorem stored_updateProfile_set {field : SocialField}
    (hLinks : normalizeSocialLinks env event.payload.socialLinks.join = some links)
    (hSets : field.sets event = true) :
    field.stored (updateProfile env event links row) = field.carried env event := by
  cases field with
  | displayName =>
    rcases Option.isSome_iff_exists.mp hSets with ⟨value, h⟩
    simp [SocialField.stored, SocialField.carried, updateProfile, h]
  | bio =>
    rcases Option.isSome_iff_exists.mp hSets with ⟨value, h⟩
    simp [SocialField.stored, SocialField.carried, updateProfile, h]
  | avatarCid => exact congrArg SocialValue.ofText (if_pos hSets)
  | avatarUrl => exact congrArg SocialValue.ofText (if_pos (of_decide_eq_true hSets))
  | socialLinks =>
    have hStored : (updateProfile env event links row).socialLinks =
        links := if_pos hSets
    rw [SocialField.stored, hStored, SocialField.carried, hLinks]
    rfl

theorem stored_updateProfile_unset {field : SocialField} (hUnset : field.sets event = false) :
    field.stored (updateProfile env event links row) = field.stored row := by
  cases field with
  | displayName =>
    have hNone := Option.isNone_iff_eq_none.mp (Option.isSome_eq_false_iff.mp hUnset)
    simp [SocialField.stored, updateProfile, hNone]
  | bio =>
    have hNone := Option.isNone_iff_eq_none.mp (Option.isSome_eq_false_iff.mp hUnset)
    simp [SocialField.stored, updateProfile, hNone]
  | avatarCid => exact congrArg SocialValue.ofText (if_neg (Bool.eq_false_iff.mp hUnset))
  | avatarUrl => exact congrArg SocialValue.ofText (if_neg (of_decide_eq_false hUnset))
  | socialLinks => exact congrArg SocialValue.ofLinks (if_neg (Bool.eq_false_iff.mp hUnset))

theorem stored_syncProfile
    (hLinks : normalizeSocialLinks env event.payload.socialLinks.join = some links)
    (h : syncProfile env event creatorId links db = .ok ((), db')) :
    db'.socialMetadataEvent = db.socialMetadataEvent ∧ (∀ other, other ≠ creatorId →
      db'.creatorSocialMetadata.find? other = db.creatorSocialMetadata.find? other) ∧ ∃ row,
      db'.creatorSocialMetadata.find? creatorId = some row ∧ ∀ field : SocialField,
        (field.sets event = true → field.stored row = field.carried env event) ∧
        (field.sets event = false → ∀ old, db.creatorSocialMetadata.find? creatorId = some old →
          field.stored row = field.stored old) := by
  cases h
  refine ⟨rfl, ?_, ?_⟩
  · intro other hOther
    exact (Table.find?_upsert _ _ _ _ other).trans (if_neg hOther)
  · refine ⟨_, (Table.find?_upsert _ _ _ _ _).trans (if_pos rfl), ?_⟩
    intro field
    cases hOld : db.creatorSocialMetadata.find? creatorId with
    | none =>
      refine ⟨fun _ => ?_, fun _ _ h => nomatch h⟩
      cases field with
      | socialLinks =>
        change SocialValue.ofLinks links = _
        rw [SocialField.carried, hLinks]
        rfl
      | _ => rfl
    | some old =>
      rw [Option.elim_some]
      constructor
      · intro hSets
        exact stored_updateProfile_set hLinks hSets
      · intro hUnset _ hFound
        cases hFound
        exact stored_updateProfile_unset hUnset

theorem fault_ne_unique : SocialError.database ≠ .uniqueViolation := nofun

/- What comes after the record of an event. -/
def syncing (env : SocialEnv) (event : SocialMetadataUpdatedEvent) (creatorId : String)
    (links : Option (List SocialMetadataLink)) : SocialM Unit :=
  query .database (isStale env event creatorId) >>= fun stale =>
    if stale then pure ()
    else
      execute .database (syncProfile env event creatorId links) >>= fun _ => pure ()

theorem handle_eq (hType : event.eventType = socialMetadataUpdatedEventType)
    (hCreator : present event.creatorId = some creatorId) :
    handleSocialMetadataEvent env event = query .database (isRecorded event) >>= fun existing =>
      if existing then pure ()
      else
        match normalizeSocialLinks env event.payload.socialLinks.join with
        | none => throw .invalidUrl
        | some links =>
          createOnce .database .uniqueViolation (recordSocialEvent env event creatorId links) >>=
            fun recorded =>
              if recorded then syncing env event creatorId links
              else pure () := by
  unfold handleSocialMetadataEvent processSocialMetadataUpdatedEvent
  rw [if_pos hType, hCreator]
  symm
  apply query_bind_congr
  intro db
  split
  · rfl
  · split
    · rfl
    · rw [createOnce, bind_bind]
      congr 1
      funext recorded
      cases recorded with
      | false => rfl
      | true =>
        apply query_bind_congr
        intro db'
        split
        · rfl
        · rw [bind_bind]
          rfl

theorem attempt_sync
    (hSync : syncProfile env event creatorId links db = .ok ((), db')) (rest : List Outcome) :
    (syncing env event creatorId links).attempt rest db =
      if rest[0]? = some .served ∧ takesEffect rest[1]? = true ∧
        isStale env event creatorId db = false then db'
      else db := by
  rw [syncing, attempt_query_bind]
  cases isStale env event creatorId db with
  | true => simp [pure]
  | false =>
    simp only [Bool.false_eq_true, if_false, attempt_execute_bind hSync]
    cases rest with
    | nil => rfl
    | cons third rest =>
      cases rest with
      | nil => simp [takesEffect]
      | cons fourth rest => cases fourth <;> simp [takesEffect, pure]

variable {delivery : SocialDelivery}

theorem attempt_of_records (hRecords : delivery.records env db = true)
    (hCreator : socialCreator delivery.event = some creatorId) :
    ∃ links recorded synced, normalizeSocialLinks env
      delivery.event.payload.socialLinks.join = some links ∧
      recordSocialEvent env delivery.event creatorId links db = .ok ((), recorded) ∧
      syncProfile env delivery.event creatorId links recorded = .ok ((), synced) ∧
      (handleSocialMetadataEvent env delivery.event).attempt delivery.outcomes db =
        if delivery.syncs env db then synced else recorded := by
  unfold SocialDelivery.records at hRecords
  rw [decide_eq_true_iff] at hRecords
  rcases hRecords with ⟨-, hNew, hLinks, hRead, hWrite⟩
  rcases Option.isSome_iff_exists.mp hLinks with ⟨links, hLinks⟩
  rcases @exists_recordSocialEvent env delivery.event creatorId
    links db hNew with ⟨recorded, hRecord, hSame, -⟩
  refine ⟨links, recorded, _, hLinks, hRecord, rfl, ?_⟩
  have hStale : isStale env delivery.event creatorId recorded =
      isStale env delivery.event creatorId db := by
    unfold isStale
    rw [hSame]
  unfold socialCreator at hCreator
  split at hCreator
  · rename_i hType
    unfold SocialDelivery.syncs socialCreator
    rw [if_pos hType, hCreator, Option.any_some]
    rw [handle_eq hType hCreator, attempt_query_bind, if_pos hRead,
      hNew, if_neg Bool.false_ne_true, hLinks]
    rw [attempt_createOnce_bind fault_ne_unique hRecord]
    rcases delivery with ⟨event, outcomes⟩
    cases outcomes with
    | nil => cases hRead
    | cons first rest =>
      cases rest with
      | nil => cases hWrite
      | cons second rest =>
        cases second with
        | rejected => cases hWrite
        | lost => simp
        | served =>
          have hRest := @attempt_sync env event creatorId links recorded _ rfl rest
          rw [hStale] at hRest
          simpa using hRest
  · cases hCreator

/- Any other delivery changes nothing. -/
theorem attempt_of_not_records (hIdle : delivery.records env db = false) :
    (handleSocialMetadataEvent env delivery.event).attempt delivery.outcomes db = db := by
  rcases delivery with ⟨event, outcomes⟩
  unfold SocialDelivery.records socialCreator at hIdle
  by_cases hType : event.eventType = socialMetadataUpdatedEventType
  · rw [if_pos hType] at hIdle
    cases hCreator : present event.creatorId with
    | none =>
      unfold handleSocialMetadataEvent processSocialMetadataUpdatedEvent
      rw [if_pos hType, hCreator]
      exact attempt_ret () outcomes db
    | some creatorId =>
      rw [hCreator] at hIdle
      rw [handle_eq hType hCreator, attempt_query_bind]
      split
      · rename_i hRead
        cases hNew : isRecorded event db with
        | true => exact attempt_ret () outcomes.tail db
        | false =>
          rw [if_neg Bool.false_ne_true]
          cases hLinks : normalizeSocialLinks env event.payload.socialLinks.join with
          | none => exact attempt_raise _ outcomes.tail db
          | some links =>
            rcases @exists_recordSocialEvent env event creatorId links db hNew with
              ⟨recorded, hRecord, -, -⟩
            rw [attempt_createOnce_bind fault_ne_unique hRecord]
            cases outcomes with
            | nil => rfl
            | cons first rest =>
              cases rest with
              | nil => rfl
              | cons second rest =>
                cases second with
                | rejected => rfl
                | _ =>
                  cases hRead
                  simp [hNew, hLinks, takesEffect] at hIdle
      · rfl
  · unfold handleSocialMetadataEvent
    rw [if_neg hType]
    exact attempt_ret () outcomes db

end

-- Profiles That Follow the Chain
----

variable {π : Type} [LinearOrder π] {env : SocialEnv} {place : SocialMetadataUpdatedEvent → π}
variable {events : List SocialMetadataUpdatedEvent} {creatorId : String} {field : SocialField}

/- The history after an event has been appended to it. -/
structure Appended (event : SocialMetadataUpdatedEvent) (db db' : SocialDb) : Prop where
  recorded : ∀ other, isRecorded other db' = true ↔ isRecorded other db = true ∨
    (other.txHash, other.eventIndex) = (event.txHash, event.eventIndex)

section

variable {event other : SocialMetadataUpdatedEvent} {db db' : SocialDb}

theorem Appended.setter (hAppended : Appended event db db')
    (hSetter : RecordedSetter events db creatorId field other) :
    RecordedSetter events db' creatorId field other :=
  { hSetter with
    recorded := (hAppended.recorded other).mpr (.inl hSetter.recorded) }

theorem Appended.self (hAppended : Appended event db db') (hEvent : event ∈ events)
    (hCreator : socialCreator event = some creatorId) (hSets : field.sets event = true) :
    RecordedSetter events db' creatorId field event where
  mem := hEvent
  creator := hCreator
  recorded := (hAppended.recorded event).mpr (.inr rfl)
  sets := hSets

theorem Appended.cases (hAppended : Appended event db db') (hDistinct : DistinctIds events)
    (hEvent : event ∈ events) (hSetter : RecordedSetter events db' creatorId field other) :
    RecordedSetter events db creatorId field other ∨ other = event := by
  rcases hSetter with ⟨hMem, hCreator, hIs, hSets⟩
  rcases (hAppended.recorded other).mp hIs with hOld | hSame
  · exact .inl ⟨hMem, hCreator, hOld, hSets⟩
  · exact .inr (hDistinct other hMem event hEvent hSame)

theorem showsNewest_of_superseded (hDistinct : DistinctIds events) (hEvent : event ∈ events)
    (hAppended : Appended event db db')
    (hSame : db'.creatorSocialMetadata = db.creatorSocialMetadata) (hSuperseded :
      ∀ creatorId ∈ socialCreator event, ∀ field : SocialField, field.sets event = true → ∃ other,
        RecordedSetter events db creatorId field other ∧ place event < place other)
    (hShows : ShowsNewest env place events db) :
    ShowsNewest env place events db' := by
  intro creatorId field newest hNewest hMax
  rw [hSame]
  rcases hAppended.cases hDistinct hEvent hNewest with hOld | rfl
  · exact hShows creatorId field newest hOld fun other hOther =>
      hMax other (hAppended.setter hOther)
  · rcases hSuperseded creatorId hNewest.creator field hNewest.sets with ⟨other, hOther, hLater⟩
    exact absurd (hMax other (hAppended.setter hOther)) (not_le.mpr hLater)

/- An event that was written comes after all it overwrites. -/
theorem showsNewest_of_supersedes {recorded : SocialDb} {own : String}
    {links : Option (List SocialMetadataLink)} (hDistinct : DistinctIds events)
    (hEvent : event ∈ events) (hCreator : socialCreator event = some own)
    (hAppended : Appended event db recorded)
    (hSame : recorded.creatorSocialMetadata = db.creatorSocialMetadata)
    (hLinks : normalizeSocialLinks env event.payload.socialLinks.join = some links)
    (hSync : syncProfile env event own links recorded = .ok ((), db'))
    (hSupersedes : ∀ field : SocialField, field.sets event = true →
      ∀ other, RecordedSetter events db own field other → place other < place event)
    (hShows : ShowsNewest env place events db) :
    ShowsNewest env place events db' := by
  rcases stored_syncProfile hLinks hSync with ⟨hHistory, hOthers, row, hRow, hFields⟩
  rw [hSame] at hOthers hFields
  have hAppended' : Appended event db db' := by
    constructor
    intro other
    rw [← hAppended.recorded other, isRecorded, isRecorded, hHistory]
  intro creatorId field newest hNewest hMax
  rcases hAppended'.cases hDistinct hEvent hNewest with hOld | rfl
  · have hShown :=
      hShows creatorId field newest hOld fun other hOther => hMax other (hAppended'.setter hOther)
    by_cases hOwn : creatorId = own
    · subst hOwn
      cases hSets : field.sets event with
      | true =>
        have hLater := hSupersedes field hSets newest hOld
        have hSelf := hMax event (hAppended'.self hEvent hCreator hSets)
        exact absurd hLater (not_lt.mpr hSelf)
      | false =>
        rcases hShown with ⟨old, hFound, hValue⟩
        have hKept := (hFields field).2 hSets old hFound
        exact ⟨row, hRow, hKept.trans hValue⟩
    · rw [hOthers creatorId hOwn]
      exact hShown
  · rw [hNewest.creator] at hCreator
    cases hCreator
    exact ⟨row, hRow, (hFields field).1 hNewest.sets⟩

end

/- A delivery that meets the condition keeps all profiles. -/
theorem showsNewest_step {db db' : SocialDb} {delivery : SocialDelivery}
    (hDistinct : DistinctIds events) (hEvent : delivery.event ∈ events)
    (hShows : ShowsNewest env place events db) (hKeeps : Keeps env place events db delivery)
    (hStep : socialStep env db delivery = some db') :
    ShowsNewest env place events db' := by
  cases hStep
  cases hRecords : delivery.records env db with
  | false =>
    rw [attempt_of_not_records hRecords]
    exact hShows
  | true =>
    have hCondition := hKeeps hRecords
    rcases of_decide_eq_true hRecords with ⟨hOwn, hNew, -⟩
    rcases Option.isSome_iff_exists.mp hOwn with ⟨own, hCreator⟩
    rcases attempt_of_records (decide_eq_true (of_decide_eq_true hRecords)) hCreator with
      ⟨links, recorded, synced, hLinks, hRecord, hSync, hAttempt⟩
    rcases @exists_recordSocialEvent env delivery.event own
      links db hNew with ⟨db', hRecord', hSame, hAppended⟩
    rw [hRecord] at hRecord'
    cases hRecord'
    rw [hAttempt]
    split
    · rename_i hSyncs
      simp only [hSyncs, if_true] at hCondition
      exact showsNewest_of_supersedes hDistinct hEvent hCreator ⟨hAppended⟩ hSame hLinks hSync
        (hCondition own hCreator) hShows
    · rename_i hSkips
      simp only [hSkips] at hCondition
      exact showsNewest_of_superseded hDistinct hEvent ⟨hAppended⟩ hSame hCondition hShows

/-
  In every run whose deliveries meet the condition, each field of
  a profile shows the newest recorded event that sets it.
-/
theorem social_fields_keep_newest {deliveries : List SocialDelivery} {db : SocialDb}
    (hDeliveries : DeliveriesOf events deliveries)
    (hRun : RunsTo (socialStep env) (Keeps env place events) .empty deliveries db) :
    ShowsNewest env place events db := by
  rcases hDeliveries with ⟨hDistinct, hSound⟩
  induction hRun with
  | start =>
    intro creatorId field newest hNewest
    cases hNewest.recorded
  | step hBefore hKeeps hStep ih =>
    have hShows := ih fun delivery hMem => hSound delivery (List.mem_append_left _ hMem)
    exact showsNewest_step hDistinct (hSound _
      (List.mem_append_right _ (List.mem_singleton_self _))) hShows hKeeps hStep

def plainSocialEnv : SocialEnv where
  PINATA_GATEWAY_URL := "https://gateway/ipfs/"
  normalizeSocialLinkUrl url := some url
  dateOf _ := none

def socialEvent (txHash : String) (ledger : ℤ) (displayName bio : Option (Option String)) :
    SocialMetadataUpdatedEvent where
  toIndexerChainEvent :=
    { bareEvent "SOCIAL_METADATA_UPDATED" txHash 0 ledger with creatorId := some "c" }
  payload :=
    { displayName := displayName
      bio := bio
      avatarCid := none
      avatarUrl := none
      socialLinks := none
      socialUpdatedAt := none }

def nameEvent : SocialMetadataUpdatedEvent := socialEvent "t" 1 (some (some "Ann")) none

def bioEvent : SocialMetadataUpdatedEvent := socialEvent "u" 2 none (some (some "Hello"))

def ledgerOf (event : SocialMetadataUpdatedEvent) : ℤ := event.ledger.getD 0

def servedDelivery (event : SocialMetadataUpdatedEvent) : SocialDelivery where
  event := event
  outcomes := [.served, .served, .served, .served]

theorem distinctIds_of_nodup
    (hNodup : (events.map fun event => (event.txHash, event.eventIndex)).Nodup) :
    DistinctIds events :=
  fun _ hEvent _ hOther hSame => List.inj_on_of_nodup_map hNodup hEvent hOther hSame

/- In the order of the chain, both fields are shown. -/
theorem social_fields_keep_newest_sample :
    ∃ db, RunsTo (socialStep plainSocialEnv) (Keeps plainSocialEnv ledgerOf [nameEvent, bioEvent])
      .empty [servedDelivery nameEvent, servedDelivery bioEvent] db ∧
      isRecorded nameEvent db = true ∧ isRecorded bioEvent db = true ∧
      ShowsNewest plainSocialEnv ledgerOf [nameEvent, bioEvent] db := by
  have hFirst : Keeps plainSocialEnv ledgerOf [nameEvent, bioEvent] .empty
      (servedDelivery nameEvent) := by
    intro _ creatorId _ field _
    rw [if_pos (by decide)]
    intro other hOther
    cases hOther.recorded
  have hSecond :
      Keeps plainSocialEnv ledgerOf [nameEvent, bioEvent] ((socialStep plainSocialEnv .empty
        (servedDelivery nameEvent)).get (by decide))
        (servedDelivery bioEvent) := by
    intro _ creatorId _ field hSets
    rw [if_pos (by decide)]
    intro other hOther
    rcases hOther with ⟨hMem, -, hRecorded, -⟩
    rcases List.mem_cons.mp hMem with rfl | hMem
    · decide
    · cases List.mem_singleton.mp hMem
      exact absurd hRecorded (by decide)
  have hRun :
      RunsTo (socialStep plainSocialEnv) (Keeps plainSocialEnv ledgerOf [nameEvent, bioEvent])
        .empty [servedDelivery nameEvent, servedDelivery bioEvent]
        _ :=
    (RunsTo.start.step hFirst (Option.some_get (by decide)).symm).step hSecond (Option.some_get
      (show (socialStep plainSocialEnv ((socialStep plainSocialEnv .empty
        (servedDelivery nameEvent)).get (by decide))
        (servedDelivery bioEvent)).isSome = true by
        decide)).symm
  refine ⟨_, hRun, by decide, by decide, ?_⟩
  exact social_fields_keep_newest ⟨distinctIds_of_nodup (by decide), by simp [servedDelivery]⟩ hRun

/- A name that an older event sets is skipped for good. -/
theorem older_name_lost :
    ¬ SocialConverges plainSocialEnv ledgerOf [nameEvent, bioEvent] := by
  intro hConverges
  have hSeen : (runLabels (socialStep plainSocialEnv) .empty
      [servedDelivery bioEvent, servedDelivery nameEvent]).map (fun db =>
        (isRecorded nameEvent db && isRecorded bioEvent db,
          (db.creatorSocialMetadata.find? "c").map SocialField.displayName.stored)) =
      some (true, some .null) := by decide
  rcases Option.map_eq_some_iff.mp hSeen with ⟨db, hDb, hFacts⟩
  rcases Prod.mk.inj hFacts with ⟨hBoth, hStored⟩
  rw [Bool.and_eq_true] at hBoth
  have hShows := hConverges _ db ⟨distinctIds_of_nodup (by decide), by simp [servedDelivery]⟩
      (runsTo_of_runLabels hDb) (by simpa using hBoth)
  have hNewest : ∀ other, RecordedSetter [nameEvent, bioEvent] db "c" .displayName other →
      ledgerOf other ≤ ledgerOf nameEvent := by
    intro other hOther
    rcases List.mem_cons.mp hOther.mem with rfl | hMem
    · exact le_rfl
    · cases List.mem_singleton.mp hMem
      exact absurd hOther.sets (by decide)
  rcases hShows "c" .displayName nameEvent ⟨List.mem_cons_self, by decide, hBoth.1, rfl⟩ hNewest
    with ⟨row, hRow, hValue⟩
  rw [hRow, Option.map_some, hValue] at hStored
  exact absurd hStored (by decide)

end Indexer

end AccessLayer
