import AccessLayer.Library.Table
import Mathlib.Data.List.MinMax

/-
  The latest of a set of events, and tables of rows that each
  show the latest events of their key.

  Main declarations: `latestOf`, `Projection`
-/

-- The Latest Event
----

namespace Transactional

section

variable {E π : Type} [LinearOrder π]

/- The event of the highest position. -/
def latestOf (position : E → π) (events : List E) : Option E := events.argmax position

/- Events of different positions. -/
def DistinctPositions (position : E → π) (events : List E) : Prop :=
  ∀ event ∈ events, ∀ other ∈ events, position event = position other → event = other

variable {position : E → π} {events : List E}

omit [LinearOrder π] in
theorem DistinctPositions.filter (hDistinct : DistinctPositions position events) (p : E → Bool) :
    DistinctPositions position (events.filter p) := by
  intro event hEvent other hOther hSame
  exact hDistinct event (List.mem_of_mem_filter hEvent) other (List.mem_of_mem_filter hOther) hSame

omit [LinearOrder π] in
theorem distinctPositions_of_nodup (hNodup : (events.map position).Nodup) :
    DistinctPositions position events :=
  fun _ hEvent _ hOther hSame => List.inj_on_of_nodup_map hNodup hEvent hOther hSame

variable {event : E}

theorem mem_of_latestOf (h : latestOf position events = some event) : event ∈ events :=
  List.argmax_mem h

variable {latest : E}

theorem position_le_of_latestOf (h : latestOf position events = some latest)
    (hEvent : event ∈ events) : position event ≤ position latest := List.le_of_mem_argmax hEvent h

theorem latestOf_eq_none_iff : latestOf position events = none ↔ events = [] := List.argmax_eq_none

theorem latestOf_eq_some_iff (hDistinct : DistinctPositions position events) :
    latestOf position events = some latest ↔ latest ∈ events ∧
      ∀ event ∈ events, position event ≤ position latest := by
  constructor
  · intro h
    exact ⟨mem_of_latestOf h, fun _ => position_le_of_latestOf h⟩
  · rintro ⟨hMem, hMax⟩
    cases hLatest : latestOf position events with
    | none =>
      rw [latestOf_eq_none_iff.mp hLatest] at hMem
      cases hMem
    | some other =>
      have hOther := mem_of_latestOf hLatest
      have hSame : position other = position latest :=
        (hMax other hOther).antisymm (position_le_of_latestOf hLatest hMem)
      rw [hDistinct other hOther latest hMem hSame]

theorem latestOf_congr {events' : List E} (hDistinct : DistinctPositions position events)
    (hSame : ∀ event, event ∈ events' ↔ event ∈ events) :
    latestOf position events' = latestOf position events := by
  have hDistinct' : DistinctPositions position events' := by
    intro event hEvent other hOther
    exact hDistinct event ((hSame event).mp hEvent) other ((hSame other).mp hOther)
  apply Option.ext
  intro latest
  rw [latestOf_eq_some_iff hDistinct, latestOf_eq_some_iff hDistinct']
  simp only [hSame]

/- Of two kinds that do not mix, the later one counts. -/
theorem latestOf_filter_or (hDistinct : DistinctPositions position events) {p q : E → Bool}
    (hOrder : ∀ event ∈ events, ∀ other ∈ events, p event = true → q other = true →
      position event < position other) :
    latestOf position (events.filter fun event => p event || q event) =
      (latestOf position (events.filter q) <|> latestOf position (events.filter p)) := by
  cases hLater : latestOf position (events.filter q) with
  | none =>
    have hEmpty := latestOf_eq_none_iff.mp hLater
    have hEarlier : events.filter (fun event => p event || q event) =
        events.filter p := by
      apply List.filter_congr
      intro event hEvent
      have hOut : q event = false := by
        by_contra hIn
        have hMem := List.mem_filter.mpr ⟨hEvent, Bool.eq_true_of_not_eq_false hIn⟩
        rw [hEmpty] at hMem
        cases hMem
      rw [hOut, Bool.or_false]
    rw [hEarlier]
    rfl
  | some latest =>
    have hLatest := List.mem_filter.mp (mem_of_latestOf hLater)
    change _ = some latest
    rw [latestOf_eq_some_iff (hDistinct.filter _)]
    constructor
    · rw [List.mem_filter]
      exact ⟨hLatest.1, by simp [hLatest.2]⟩
    · intro event hMem
      rcases List.mem_filter.mp hMem with ⟨hEvent, hKind⟩
      rcases (Bool.or_eq_true _ _).mp hKind with hFirst | hSecond
      · exact (hOrder event hEvent latest hLatest.1 hFirst hLatest.2).le
      · exact position_le_of_latestOf hLater (List.mem_filter.mpr ⟨hEvent, hSecond⟩)

end

-- Projections
----

/- A row shows the latest event that opens it and the latest that closes it, if there is one. -/
structure Projection (E κ ρ : Type) [Keyed ρ κ] where
  opens : κ → E → Bool
  closes : κ → E → Bool
  row : E → Option E → Option ρ
  row_of_opens : ∀ k event closed, opens k event = true → ∃ r, row event closed = some r ∧ key r = k

namespace Projection

variable {E π κ ρ : Type} [LinearOrder π] [Keyed ρ κ] (P : Projection E κ ρ) (position : E → π)

/- The row of a key after some events. -/
def of (events : List E) (k : κ) : Option ρ :=
  (latestOf position (events.filter (P.opens k))).bind fun event =>
    P.row event (latestOf position (events.filter (P.closes k)))

variable {P : Projection E κ ρ} {position : E → π} {events events' : List E} {k : κ}

theorem of_eq_none_iff :
    P.of position events k = none ↔ ∀ event ∈ events, P.opens k event = false := by
  constructor
  · intro hNone event hEvent
    by_contra hOpens
    rw [Bool.not_eq_false] at hOpens
    cases hLatest : latestOf position (events.filter (P.opens k)) with
    | none =>
      have hEmpty := latestOf_eq_none_iff.mp hLatest
      have hMem := List.mem_filter.mpr ⟨hEvent, hOpens⟩
      rw [hEmpty] at hMem
      cases hMem
    | some latest =>
      have hKind := (List.mem_filter.mp (mem_of_latestOf hLatest)).2
      rw [of, hLatest, Option.bind_some] at hNone
      rcases P.row_of_opens k latest _ hKind with ⟨r, hRow, -⟩
      rw [hRow] at hNone
      cases hNone
  · intro hNone
    have hEmpty : events.filter (P.opens k) = [] := by
      rw [List.filter_eq_nil_iff]
      intro event hEvent
      simp [hNone event hEvent]
    rw [of, hEmpty]
    rfl

theorem key_of {r : ρ} (hRow : P.of position events k = some r) : key r = k := by
  rcases Option.bind_eq_some_iff.mp hRow with ⟨latest, hLatest, hOf⟩
  have hKind := (List.mem_filter.mp (mem_of_latestOf hLatest)).2
  rcases P.row_of_opens k latest _ hKind with ⟨r', hRow', hKey⟩
  rw [hOf] at hRow'
  cases hRow'
  exact hKey

/- Events of other keys do not change a row. -/
theorem of_congr_filter (hOpens : events'.filter (P.opens k) = events.filter (P.opens k))
    (hCloses : events'.filter (P.closes k) = events.filter (P.closes k)) :
    P.of position events' k = P.of position events k := by
  rw [of, of, hOpens, hCloses]

theorem of_congr (hDistinct : DistinctPositions position events)
    (hSame : ∀ event, event ∈ events' ↔ event ∈ events) (k : κ) :
    P.of position events' k = P.of position events k := by
  have hLatest : ∀ p : E → Bool, latestOf position (events'.filter p) =
      latestOf position (events.filter p) := by
    intro p
    apply latestOf_congr (hDistinct.filter p)
    intro event
    rw [List.mem_filter, List.mem_filter, hSame]
  rw [of, of, hLatest, hLatest]

variable [DecidableEq κ]

/- A table follows the events by writing the row of one key. -/
theorem find?_step {t : Table ρ} {own : κ} (hStored : ∀ k, t.find? k = P.of position events k)
    (hGrow : ∀ event ∈ events, event ∈ events')
    (hOther : ∀ k, k ≠ own → P.of position events' k = P.of position events k) (k : κ) :
    ((P.of position events' own).elim t t.put).find? k = P.of position events' k := by
  apply Table.find?_elim_put hStored hOther
  · intro r hRow
    exact key_of hRow
  · intro hNone
    rw [of_eq_none_iff] at hNone ⊢
    intro event hEvent
    exact hNone event (hGrow event hEvent)

end Projection

end Transactional
