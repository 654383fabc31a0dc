import AccessLayer.Governance.Proposals
import AccessLayer.Indexer.Dispatch
import AccessLayer.Library.Deliveries
import Mathlib.Tactic.Linarith
import Mathlib.Tactic.Positivity

/-
  Fields of raw events that services read in the same way, and
  where they put malformed ones
  (`src/modules/indexer/reserve-indexer.service.ts`,
  `src/modules/indexer/key-depth-indexer.service.ts`,
  `src/modules/indexer/revenue-share-indexer.service.ts`,
  `src/utils/indexer-dlq.utils.ts`).

  Main declaration: `dedupe_eq_firsts`
-/

-- Fields
----

namespace AccessLayer

namespace Indexer

/- A field of any type; `other` is neither text nor number. -/
inductive RawField where
  | text (value : String)
  | number (value : ℚ)
  | bigint (value : ℤ)
  | other
  deriving DecidableEq

/- `none` for a blank text and wherever `BigInt` throws. -/
def parseBigInt : RawField → Option ℤ
  | .text value =>
    if Governance.trim value = "" then none
    else Governance.parseBigInt value
  | .number value => if value.isInt then some value.num else none
  | .bigint value => some value
  | .other => none

/- A text that is not blank, trimmed. -/
def textField (field : Option String) : Option String := (field.map Governance.trim).filter (· ≠ "")

def stroopsPerXlm : ℤ := 10000000

/- The number that `stroopsToXlmDecimalString` writes down. -/
def stroopsToXlm (stroops : ℤ) : ℚ :=
  let whole := |stroops| / stroopsPerXlm
  let fraction := |stroops| % stroopsPerXlm
  let amount : ℚ := whole + fraction / stroopsPerXlm
  if stroops < 0 then -amount else amount

/- No stroop is lost between the whole and the fraction. -/
theorem stroopsToXlm_eq (stroops : ℤ) : stroopsToXlm stroops = stroops / 10000000 := by
  have hSplit : ((stroopsPerXlm * (|stroops| / stroopsPerXlm) +
      |stroops| % stroopsPerXlm : ℤ) : ℚ) = (|stroops| : ℤ) :=
    congrArg Int.cast (Int.mul_ediv_add_emod _ _)
  have hAmount : ((|stroops| / stroopsPerXlm : ℤ) : ℚ) + ((|stroops| % stroopsPerXlm : ℤ) : ℚ) /
      ((stroopsPerXlm : ℤ) : ℚ) =
      ((|stroops| : ℤ) : ℚ) / 10000000 := by
    push_cast [stroopsPerXlm] at hSplit ⊢
    linarith
  simp only [stroopsToXlm, hAmount]
  split
  · rename_i hNegative
    rw [abs_of_neg hNegative]
    push_cast
    ring
  · rename_i hNonneg
    rw [abs_of_nonneg (not_lt.mp hNonneg)]

theorem stroopsToXlm_pos {stroops : ℤ} (hStroops : 0 < stroops) : 0 < stroopsToXlm stroops := by
  rw [stroopsToXlm_eq]
  positivity

/- The element of a list that has no other. -/
def onlyOne {α : Type} : List α → Option α
  | [x] => some x
  | _ => none

variable {α : Type} {xs : List α} {x : α}

theorem onlyOne_eq_some_iff : onlyOne xs = some x ↔ xs = [x] := by
  unfold onlyOne
  split
  · simp
  · rename_i hMany
    constructor
    · intro h
      cases h
    · intro h
      exact absurd h (hMany x)

theorem mem_of_onlyOne (h : onlyOne xs = some x) : x ∈ xs := by
  rw [onlyOne_eq_some_iff.mp h]
  exact List.mem_singleton_self x

-- Malformed Events
----

structure IndexerDLQ (π : Type) where
  jobType : String
  payload : PipelineEvent π
  retryCount : Nat
  failureReason : String

/- Put an event aside that no retry can help. -/
def moveToDLQ
    {π : Type} (jobType : String)
    (event : PipelineEvent π) (failureReason : String)
    (rows : List (IndexerDLQ π)) : List (IndexerDLQ π) :=
  rows ++
    [{ jobType
       payload := event
       retryCount := 0
       failureReason }]

-- Identifiers
----

theorem split_at_last_colon {x y z w : List Char} (hz : ':' ∉ z) (hw : ':' ∉ w)
    (h : x ++ ':' :: z = y ++ ':' :: w) :
    x = y := by
  rcases List.append_eq_append_iff.mp h with ⟨c, rfl, hc⟩ | ⟨c, rfl, hc⟩
  · cases c with
    | nil => exact (List.append_nil x).symm
    | cons d c =>
      cases hc
      exact absurd (by simp) hz
  · cases c with
    | nil => exact List.append_nil y
    | cons d c =>
      cases hc
      exact absurd (by simp) hw

/- Identifiers `txHash:eventIndex` tell transactions apart. -/
theorem txHash_of_id {txHash txHash' : String} {eventIndex eventIndex' : Nat}
    (h : txHash ++ ":" ++ toString eventIndex = txHash' ++ ":" ++ toString eventIndex') :
    txHash = txHash' := by
  have hDigits (n : Nat) : ':' ∉ (toString n).toList := by
    intro hMem
    have hRepr : (toString n).toList = Nat.toDigits 10 n := Nat.toList_repr
    rw [hRepr] at hMem
    have hDigit := Nat.isDigit_of_mem_toDigits (by decide) (by decide) hMem
    simp at hDigit
  have hList := congrArg String.toList h
  rw [String.toList_append, String.toList_append, String.toList_append, String.toList_append,
    List.append_assoc, List.append_assoc] at hList
  apply String.toList_inj.mp
  exact split_at_last_colon (hDigits eventIndex) (hDigits eventIndex') hList

-- Batches
----

open Transactional

variable {π : Type}

theorem dedupeFrom_eq_firstsFrom (seen : List String) (events : List (PipelineEvent π)) :
    PipelineEvent.dedupeFrom seen events = firstsFrom PipelineEvent.id seen events := by
  induction events generalizing seen with
  | nil => rfl
  | cons event rest ih =>
    unfold PipelineEvent.dedupeFrom firstsFrom
    rw [ih, ih]

theorem dedupe_eq_firsts (events : List (PipelineEvent π)) :
    PipelineEvent.dedupe events = firsts PipelineEvent.id events :=
  dedupeFrom_eq_firstsFrom [] events

variable {events : List (PipelineEvent π)} {event : PipelineEvent π}

theorem PipelineEvent.mem_of_mem_dedupe (hMem : event ∈ dedupe events) : event ∈ events := by
  rw [dedupe_eq_firsts] at hMem
  exact (mem_of_mem_firstsFrom hMem).1

/- Where an identifier names one event, only repetitions go. -/
theorem PipelineEvent.mem_dedupe_of_identified (hIdentified :
    ∀ one ∈ events, ∀ other ∈ events, one.id = other.id → one = other) {event : PipelineEvent π}
    (hMem : event ∈ events) :
    event ∈ dedupe events := by
  have hFirst : ∃ other ∈ firstsFrom PipelineEvent.id [] events, other.id = event.id :=
    exists_mem_firstsFrom hMem List.not_mem_nil
  rcases hFirst with ⟨other, hOther, hSame⟩
  have hEq : other = event := hIdentified other (mem_of_mem_firstsFrom hOther).1 event hMem hSame
  rw [dedupe_eq_firsts, ← hEq]
  exact hOther

/- Among distinct events, a batch loses only repetitions. -/
theorem mem_dedupe_iff {all : List (PipelineEvent π)} (hDistinct : (all.map PipelineEvent.id).Nodup)
    (hSound : ∀ event ∈ events, event ∈ all) :
    event ∈ PipelineEvent.dedupe events ↔ event ∈ events := by
  refine ⟨PipelineEvent.mem_of_mem_dedupe, PipelineEvent.mem_dedupe_of_identified ?_⟩
  intro one hOne other hOther hSame
  exact List.inj_on_of_nodup_map hDistinct (hSound one hOne) (hSound other hOther) hSame

end Indexer

end AccessLayer
