import AccessLayer.Library.Program
import Mathlib.Data.List.Basic
import Mathlib.Data.List.Nodup

/-
  Elements that are delivered at least once.

  A list may hold an element many times; `firsts` keeps the first
  delivery of each identifier.  A store that logs what it applies
  and applies nothing twice ends where the first deliveries alone
  lead it.  A batch may be cut off or fail at any statement;
  `reached` are the elements whose statement took effect.

  Main declarations: `foldl_effect`, `deliver_eq_foldl`
-/

-- First Deliveries
----

namespace Transactional

variable {α κ : Type} [DecidableEq κ] (ident : α → κ)

/- The elements whose identifier has not been seen before. -/
def firstsFrom (seen : List κ) : List α → List α
  | [] => []
  | x :: rest =>
    if ident x ∈ seen then firstsFrom seen rest
    else x :: firstsFrom (ident x :: seen) rest

/- The first element of each identifier. -/
def firsts (xs : List α) : List α := firstsFrom ident [] xs

variable {ident : α → κ} {seen : List κ}

/- Only what has been seen matters, not in which order. -/
theorem firstsFrom_congr {seen' : List κ} (hSeen : ∀ k, k ∈ seen ↔ k ∈ seen') (xs : List α) :
    firstsFrom ident seen xs = firstsFrom ident seen' xs := by
  induction xs generalizing seen seen' with
  | nil => rfl
  | cons x rest ih =>
    simp only [firstsFrom, hSeen]
    split
    · exact ih hSeen
    · rw [ih]
      intro k
      simp [hSeen]

variable {xs : List α} {x : α}

theorem mem_of_mem_firstsFrom (h : x ∈ firstsFrom ident seen xs) : x ∈ xs ∧ ident x ∉ seen := by
  induction xs generalizing seen with
  | nil => cases h
  | cons head rest ih =>
    rw [firstsFrom] at h
    split at h
    · exact ⟨List.mem_cons_of_mem _ (ih h).1, (ih h).2⟩
    · rename_i hNew
      rcases List.mem_cons.mp h with rfl | hRest
      · exact ⟨List.mem_cons_self, hNew⟩
      · rcases ih hRest with ⟨hMem, hOut⟩
        exact ⟨List.mem_cons_of_mem _ hMem, fun hOld => hOut (List.mem_cons_of_mem _ hOld)⟩

theorem nodup_firstsFrom (seen : List κ) (xs : List α) :
    ((firstsFrom ident seen xs).map ident).Nodup := by
  induction xs generalizing seen with
  | nil => exact List.nodup_nil
  | cons x rest ih =>
    rw [firstsFrom]
    split
    · exact ih seen
    · rw [List.map_cons, List.nodup_cons]
      refine ⟨?_, ih _⟩
      intro hMem
      rcases List.mem_map.mp hMem with ⟨y, hy, hSame⟩
      apply (mem_of_mem_firstsFrom hy).2
      rw [hSame]
      exact List.mem_cons_self

theorem exists_mem_firstsFrom (hx : x ∈ xs) (hNew : ident x ∉ seen) :
    ∃ y ∈ firstsFrom ident seen xs, ident y = ident x := by
  induction xs generalizing seen with
  | nil => cases hx
  | cons head rest ih =>
    by_cases hSame : ident head = ident x
    · refine ⟨head, ?_, hSame⟩
      rw [firstsFrom, hSame, if_neg hNew]
      exact List.mem_cons_self
    · have hRest : x ∈ rest := by
        rcases List.mem_cons.mp hx with rfl | h
        · exact absurd rfl hSame
        · exact h
      rw [firstsFrom]
      split
      · exact ih hRest hNew
      · have hStill : ident x ∉ ident head :: seen := by
          rw [List.mem_cons, not_or]
          exact ⟨fun h => hSame h.symm, hNew⟩
        rcases ih hRest hStill with ⟨y, hy, hIdent⟩
        exact ⟨y, List.mem_cons_of_mem _ hy, hIdent⟩

/- Append an element whose identifier is not there yet. -/
def appendNew (ident : α → κ) (xs : List α) (x : α) : List α :=
  if ident x ∈ xs.map ident then xs else xs ++ [x]

theorem mem_map_appendNew {k : κ} :
    k ∈ (appendNew ident xs x).map ident ↔ k = ident x ∨ k ∈ xs.map ident := by
  unfold appendNew
  split
  · rename_i hOld
    constructor
    · exact Or.inr
    · rintro (rfl | hk)
      · exact hOld
      · exact hk
  · rw [List.map_append, List.mem_append, or_comm]
    exact or_congr_left List.mem_singleton

theorem foldl_appendNew (xs stored : List α) :
    xs.foldl (appendNew ident) stored = stored ++ firstsFrom ident (stored.map ident) xs := by
  induction xs generalizing stored with
  | nil =>
    rw [firstsFrom, List.append_nil]
    rfl
  | cons x rest ih =>
    rw [List.foldl_cons, ih, firstsFrom, appendNew]
    split
    · rfl
    · have hSeen : firstsFrom ident ((stored ++ [x]).map ident) rest =
          firstsFrom ident (ident x :: stored.map ident)
            rest := by
        apply firstsFrom_congr
        intro k
        rw [List.map_append, List.mem_append, List.mem_cons, or_comm]
        exact or_congr_left List.mem_singleton
      rw [hSeen, List.append_assoc]
      rfl

/-
  The first deliveries of some elements are these elements if and
  only if no two of them have one identifier.
-/
theorem firsts_perm_iff {ys : List α} (hSame : ∀ x, x ∈ xs ↔ x ∈ ys) :
    (firsts ident xs).Perm ys ↔ (ys.map ident).Nodup := by
  have hFirsts : ((firsts ident xs).map ident).Nodup := nodup_firstsFrom [] xs
  constructor
  · intro hPerm
    exact ((hPerm.map ident).nodup_iff).mp hFirsts
  · intro hDistinct
    rw [List.perm_ext_iff_of_nodup (hFirsts.of_map ident) (hDistinct.of_map ident)]
    intro x
    constructor
    · intro hx
      exact (hSame x).mp (mem_of_mem_firstsFrom hx).1
    · intro hx
      rcases exists_mem_firstsFrom ((hSame x).mpr hx) (List.not_mem_nil (a := ident x)) with
        ⟨y, hy, hIdent⟩
      have hMem := (hSame y).mp (mem_of_mem_firstsFrom hy).1
      rw [← List.inj_on_of_nodup_map hDistinct hMem hx hIdent]
      exact hy

end Transactional

-- Logs
----

namespace Transactional

variable {α κ σ : Type} [DecidableEq κ]

/- Apply an element, unless its identifier is logged. -/
def applyOnce (ident : α → κ) (logged : σ → List κ) (apply : α → σ → σ) (s : σ) (x : α) : σ :=
  if ident x ∈ logged s then s else apply x s

variable {ident : α → κ} {logged : σ → List κ} {apply : α → σ → σ}

/-
  What holds of the elements applied so far, and is kept by one
  more, holds of the first deliveries.
-/
theorem holds_foldl {Holds : List α → σ → Prop}
    (hLogged : ∀ x s, ident x ∉ logged s → ∀ k, k ∈ logged (apply x s) ↔ k = ident x ∨ k ∈ logged s)
    (hApply :
      ∀ done s x, Holds done s → ident x ∉ logged s → Holds (done ++ [x]) (apply x s)) (xs : List α)
    {done : List α} {s : σ} (hHolds : Holds done s) :
    Holds (done ++ firstsFrom ident (logged s) xs) (xs.foldl (applyOnce ident logged apply) s) := by
  induction xs generalizing done s with
  | nil =>
    rw [firstsFrom, List.append_nil]
    exact hHolds
  | cons x rest ih =>
    rw [List.foldl_cons, firstsFrom, applyOnce]
    split
    · exact ih hHolds
    · rename_i hNew
      have hSeen : firstsFrom ident (ident x :: logged s) rest =
          firstsFrom ident (logged (apply x s)) rest := by
        apply firstsFrom_congr
        intro k
        rw [hLogged x s hNew, List.mem_cons]
      rw [List.append_cons, hSeen]
      exact ih (hApply done s x hHolds hNew)

/-
  Elements that are refused leave what is seen of the store
  alone; the others are applied to it once.
-/
theorem foldl_effect {β τ : Type} (view : τ → σ) {accept : β → Option α} {effect : β → τ → τ}
    (hEffect :
      ∀ x t, view (effect x t) = (accept x).elim (view t) (applyOnce ident logged apply (view t)))
    (xs : List β) (t : τ) :
    view (xs.foldl (fun t x => effect x t) t) = (xs.filterMap accept).foldl
      (applyOnce ident logged apply) (view t) := by
  induction xs generalizing t with
  | nil => rfl
  | cons x rest ih =>
    rw [List.foldl_cons, ih, hEffect]
    cases hAccept : accept x with
    | none =>
      rw [List.filterMap_cons_none hAccept]
      rfl
    | some y =>
      rw [List.filterMap_cons_some hAccept]
      rfl

end Transactional

-- Attempts of a Batch
----

namespace Transactional

namespace Program

variable {σ ε α : Type}

/- The store after a write; a refused one changes nothing. -/
def written (f : σ → Except ε (α × σ)) (s : σ) : σ :=
  match f s with
  | .ok (_, s') => s'
  | .error _ => s

/- One statement that makes `effect`; if it fails, so does all. -/
def Single (effect : σ → σ) (p : Program σ ε Unit) : Prop :=
  ∃ next fault, p = .stmt effect next (.raise fault) ∧ ∀ s, next s = .ret ()

variable {fault : ε}

theorem single_execute {f : σ → Except ε (α × σ)} {h : ε → Program σ ε α} {k : α → Program σ ε Unit}
    (hRefused : ∀ s e, f s = .error e → ∃ a, h e = pure a) (hFault : h fault = throw fault)
    (hk : ∀ a, k a = pure ()) :
    Single (written f) (tryCatch (execute fault f) h >>= k) := by
  refine ⟨_, fault, congrArg (Program.stmt _ _) ?_, ?_⟩
  · change Program.bind (h fault) k = _
    rw [hFault]
    rfl
  · intro s
    dsimp only
    cases hResult : f s with
    | ok result => exact hk result.1
    | error e =>
      rcases hRefused s e hResult with ⟨a, hAnswer⟩
      change Program.bind (h e) k = _
      rw [hAnswer]
      exact hk a

/- A write that answers nothing. -/
theorem single_tryCatch {f : σ → Except ε (Unit × σ)} {h : ε → Program σ ε Unit}
    (hRefused : ∀ s e, f s = .error e → h e = pure ()) (hFault : h fault = throw fault) :
    Single (written f) (tryCatch (execute fault f) h) := by
  refine ⟨_, fault, congrArg (Program.stmt _ _) hFault, ?_⟩
  intro s
  dsimp only
  cases hResult : f s with
  | ok result => rfl
  | error e => exact hRefused s e hResult

/-
  The elements whose statement takes effect in one attempt of a
  batch.  Elements that do not act need no statement.
-/
def reached (acts : α → Bool) : List α → List Outcome → List α
  | [], _ => []
  | x :: rest, outcomes =>
    if acts x then
      match outcomes with
      | .served :: later => x :: reached acts rest later
      | .lost :: _ => [x]
      | .rejected :: _ => []
      | [] => []
    else reached acts rest outcomes

variable {handle : α → Program σ ε Unit} {effect : α → σ → σ}

/- An attempt of a batch applies the elements it reaches. -/
theorem attempt_forEach_single {acts : α → Bool}
    (hActs : ∀ x, acts x = true → Single (effect x) (handle x))
    (hIdle : ∀ x, acts x = false → handle x = pure ()) (xs : List α) (outcomes : List Outcome)
    (s : σ) :
    (forEach handle xs).attempt outcomes s =
      (reached acts xs outcomes).foldl (fun s x => effect x s) s := by
  induction xs generalizing outcomes s with
  | nil => cases outcomes <;> rfl
  | cons x rest ih =>
    unfold reached
    cases hx : acts x with
    | false =>
      rw [if_neg Bool.false_ne_true]
      change ((handle x).bind fun _ => forEach handle rest).attempt outcomes s = _
      rw [hIdle x hx]
      exact ih outcomes s
    | true =>
      rcases hActs x hx with ⟨next, fault, hStmt, hNext⟩
      rw [if_pos rfl]
      change ((handle x).bind fun _ => forEach handle rest).attempt outcomes s = _
      rw [hStmt]
      cases outcomes with
      | nil => rfl
      | cons outcome later =>
        cases outcome with
        | served =>
          change ((next s).bind fun _ => forEach handle rest).attempt later (effect x s) = _
          rw [hNext]
          exact ih later (effect x s)
        | rejected => exact @attempt_raise σ ε Unit fault later s
        | lost => exact @attempt_raise σ ε Unit fault later (effect x s)

variable {I : σ → Prop}

theorem keeps_forEach (hKeeps : ∀ x, (handle x).Keeps I) (xs : List α) :
    (forEach handle xs).Keeps I := by
  induction xs with
  | nil => exact keeps_pure ()
  | cons x rest ih => exact keeps_bind (hKeeps x) fun _ => ih

/-
  Handlers one after the other, up to the first that fails.  Where
  a failure means that no handler has any effect, all take effect.
-/
theorem run_forEach_effect (hRun : ∀ x s, ((handle x).run s).2 = effect x s) {xs : List α}
    (hKeep : ∀ x ∈ xs, ∀ s, I s → I (effect x s)) (hStop :
      ∀ x ∈ xs, ∀ s e, I s → ((handle x).run s).1 = .error e → ∀ y s', effect y s' = s') {s : σ}
    (hStart : I s) :
    ((forEach handle xs).run s).2 = xs.foldl (fun s x => effect x s) s := by
  induction xs generalizing s with
  | nil => rfl
  | cons x rest ih =>
    have hRest := ih (fun y hy => hKeep y (List.mem_cons_of_mem _ hy))
        (fun y hy => hStop y (List.mem_cons_of_mem _ hy)) (hKeep x List.mem_cons_self s hStart)
    rw [forEach, run_bind, List.foldl_cons]
    have hState := hRun x s
    cases hResult : (handle x).run s with
    | mk result s' =>
      rw [hResult] at hState
      cases result with
      | ok _ =>
        rw [← hState] at hRest ⊢
        exact hRest
      | error e =>
        have hIdle := hStop x List.mem_cons_self s e hStart (congrArg Prod.fst hResult)
        have hRestIdle : ∀ ys : List α,
            ys.foldl (fun s x => effect x s) s' = s' := by
          intro ys
          induction ys with
          | nil => rfl
          | cons y ys ihs => rw [List.foldl_cons, hIdle, ihs]
        rw [← hState, hRestIdle]

end Program

variable {α σ ε : Type}

/- The store after some batches, each attempted once. -/
def deliver (batch : List α → Program σ ε Unit) : List (List α × List Outcome) → σ → σ
  | [], s => s
  | delivery :: rest, s => deliver batch rest ((batch delivery.1).attempt delivery.2 s)

/- The elements that some batches reach, in order. -/
def arrivals (acts : α → Bool) (unique : List α → List α)
    (deliveries : List (List α × List Outcome)) : List α :=
  deliveries.flatMap fun delivery => Program.reached acts (unique delivery.1) delivery.2

theorem deliver_eq_foldl {handle : α → Program σ ε Unit} {acts : α → Bool} {effect : α → σ → σ}
    {unique : List α → List α} {batch : List α → Program σ ε Unit}
    (hBatch : ∀ xs, batch xs = Program.forEach handle (unique xs))
    (hActs : ∀ x, acts x = true → Program.Single (effect x) (handle x))
    (hIdle : ∀ x, acts x = false → handle x = pure ()) (deliveries : List (List α × List Outcome))
    (s : σ) :
    deliver batch deliveries s = (arrivals acts unique deliveries).foldl
      (fun s x => effect x s) s := by
  induction deliveries generalizing s with
  | nil => rfl
  | cons delivery rest ih =>
    rw [deliver, ih, hBatch, Program.attempt_forEach_single hActs hIdle, ← List.foldl_append]
    rfl

end Transactional

-- Another Order
----

namespace Transactional

variable {α : Type}

/- The elements that satisfy `p`, replaced by others in turn. -/
def refill (p : α → Bool) : List α → List α → List α
  | [], _ => []
  | x :: rest, fill =>
    if p x then
      match fill with
      | [] => x :: refill p rest []
      | y :: fill => y :: refill p rest fill
    else x :: refill p rest fill

variable {p : α → Bool} {x : α}

theorem refill_cons_of_pos (hx : p x) (rest : List α) (y : α) (fill : List α) :
    refill p (x :: rest) (y :: fill) = y :: refill p rest fill := by
  simp [refill, hx]

theorem refill_cons_of_neg (hx : ¬ p x) (rest fill : List α) :
    refill p (x :: rest) fill = x :: refill p rest fill := by
  rw [refill.eq_def]
  exact if_neg hx

theorem refill_filter (p : α → Bool) (xs : List α) : refill p xs (xs.filter p) = xs := by
  induction xs with
  | nil => rfl
  | cons x rest ih =>
    by_cases hx : p x
    · rw [List.filter_cons_of_pos hx, refill_cons_of_pos hx, ih]
    · rw [List.filter_cons_of_neg hx, refill_cons_of_neg hx, ih]

variable {xs fill : List α}

theorem mem_of_mem_refill {y : α} (hMem : y ∈ refill p xs fill) : y ∈ xs ∨ y ∈ fill := by
  induction xs generalizing fill with
  | nil => cases hMem
  | cons x rest ih =>
    unfold refill at hMem
    split at hMem
    · split at hMem
      · rcases List.mem_cons.mp hMem with rfl | hRest
        · exact Or.inl List.mem_cons_self
        · rcases ih hRest with hOld | hNew
          · exact Or.inl (List.mem_cons_of_mem _ hOld)
          · cases hNew
      · rcases List.mem_cons.mp hMem with rfl | hRest
        · exact Or.inr List.mem_cons_self
        · rcases ih hRest with hOld | hNew
          · exact Or.inl (List.mem_cons_of_mem _ hOld)
          · exact Or.inr (List.mem_cons_of_mem _ hNew)
    · rcases List.mem_cons.mp hMem with rfl | hRest
      · exact Or.inl List.mem_cons_self
      · rcases ih hRest with hOld | hNew
        · exact Or.inl (List.mem_cons_of_mem _ hOld)
        · exact Or.inr hNew

/- Elements as many as were replaced take all their places. -/
theorem filter_refill (hLength : fill.length = (xs.filter p).length) (hFill : ∀ y ∈ fill, p y) :
    (refill p xs fill).filter p = fill := by
  induction xs generalizing fill with
  | nil => exact (List.eq_nil_of_length_eq_zero hLength).symm
  | cons x rest ih =>
    by_cases hx : p x
    · rw [List.filter_cons_of_pos hx] at hLength
      cases fill with
      | nil => cases hLength
      | cons y fill =>
        have hRest : ∀ y ∈ fill, p y := fun y hy => hFill y (List.mem_cons_of_mem _ hy)
        rw [refill_cons_of_pos hx, List.filter_cons_of_pos (hFill y List.mem_cons_self),
          ih (Nat.succ.inj hLength) hRest]
    · rw [List.filter_cons_of_neg hx] at hLength
      rw [refill_cons_of_neg hx, List.filter_cons_of_neg hx]
      exact ih hLength hFill

end Transactional

-- Repetitions of the Latest
----

namespace Transactional

variable {α β κ : Type} [DecidableEq κ]

/- The elements of an order that have been applied. -/
def appliedOf (ident : α → κ) (applied : List κ) (order : List α) : List α :=
  order.filter fun y => ident y ∈ applied

theorem appliedOf_cons_of_other {ident : α → κ} {applied : List κ} {order : List α} {k : κ}
    (hOther : ∀ y ∈ order, ident y ≠ k) :
    appliedOf ident (k :: applied) order = appliedOf ident applied order := by
  apply List.filter_congr
  intro y hy
  simp [hOther y hy]

variable {ident : α → κ} {applied : List κ}

/-
  Elements applied in their order, the latest any number of times,
  amount to each of them applied once.
-/
theorem foldl_appliedOf_cons {f : β → α → β} (hAgain : ∀ b x, f (f b x) x = f b x)
    {before after : List α} {x : α} (hDistinct : ((before ++ x :: after).map ident).Nodup)
    (hLater : ∀ y ∈ after, ident y ∉ applied) (b : β) :
    (appliedOf ident (ident x :: applied) (before ++ x :: after)).foldl f b =
      f ((appliedOf ident applied (before ++ x :: after)).foldl f b) x := by
  rw [List.map_append, List.map_cons, List.nodup_append] at hDistinct
  rcases hDistinct with ⟨-, hTail, hApart⟩
  have hBefore : ∀ y ∈ before, ident y ≠ ident x := by
    intro y hy
    exact hApart _ (List.mem_map_of_mem hy) _ List.mem_cons_self
  have hAfter : ∀ y ∈ after, ident y ≠ ident x := by
    intro y hy hSame
    apply (List.nodup_cons.mp hTail).1
    rw [← hSame]
    exact List.mem_map_of_mem hy
  have hNone : appliedOf ident applied after = [] := by
    rw [appliedOf, List.filter_eq_nil_iff]
    intro y hy
    simpa using hLater y hy
  have hSplit (seen : List κ) :
      appliedOf ident seen (before ++ x :: after) = appliedOf ident seen before ++
        appliedOf ident seen (x :: after) :=
    List.filter_append _ _
  rw [hSplit, hSplit, appliedOf_cons_of_other hBefore, List.foldl_append, List.foldl_append]
  have hNew : appliedOf ident (ident x :: applied) (x :: after) =
      [x] := by
    rw [appliedOf, List.filter_cons_of_pos (by simp)]
    exact congrArg (x :: ·) ((appliedOf_cons_of_other hAfter).trans hNone)
  rw [hNew]
  by_cases hOld : ident x ∈ applied
  · have hHere : appliedOf ident applied (x :: after) = [x] := by
      rw [appliedOf, List.filter_cons_of_pos (by simpa)]
      exact congrArg (x :: ·) hNone
    rw [hHere]
    exact (hAgain _ x).symm
  · have hHere : appliedOf ident applied (x :: after) = [] := by
      rw [appliedOf, List.filter_cons_of_neg (by simpa)]
      exact hNone
    rw [hHere]
    rfl

/- When all have been applied, nothing is left out. -/
theorem appliedOf_eq_self {order : List α} (hAll : ∀ y ∈ order, ident y ∈ applied) :
    appliedOf ident applied order = order := by
  rw [appliedOf, List.filter_eq_self]
  intro y hy
  simpa using hAll y hy

end Transactional
