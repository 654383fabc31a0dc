import AccessLayer.Library.Table

/-
  The tally of a governance proposal
  (`src/utils/vote-tally.utils.ts`).

  Weights are texts of integers in the source; here they are
  the integers.

  Main declaration: `resultOf_applyVoteWeight`
-/

-- Results by Label
----

namespace AccessLayer

namespace Utils

open Transactional

structure OptionResult where
  option : String
  weight : ℤ

instance : Keyed OptionResult String := ⟨OptionResult.option⟩

/- An object from option labels to weights. -/
abbrev Results := Table OptionResult

/- Zero for a label that the object does not have. -/
def resultOf (results : Results) (option : String) : ℤ :=
  ((results.find? option).map OptionResult.weight).getD 0

def setResult (results : Results) (option : String) (weight : ℤ) : Results :=
  results.upsert { option, weight } (fun row => { row with weight }) (fun _ => rfl)

/- Assigning `__proto__` does not make a property. -/
def addOption (results : Results) (option : String) : Results :=
  if option = "__proto__" then results
  else setResult results option 0

/- Every option with a result of zero. -/
def initialResults (options : List String) : Results := options.foldl addOption .empty

theorem resultOf_setResult (results : Results) (option : String) (weight : ℤ) (label : String) :
    resultOf (setResult results option weight) label =
      if label = option then weight
      else resultOf results label := by
  unfold resultOf setResult
  rw [Table.find?_upsert]
  have hKey : key ({ option, weight } : OptionResult) = option := rfl
  rw [hKey]
  split
  · cases results.find? label with
    | none => rfl
    | some row => rfl
  · rfl

theorem resultOf_addOption {results : Results} {label : String}
    (h : resultOf results label = 0) (option : String) :
    resultOf (addOption results option) label = 0 := by
  unfold addOption
  split
  · exact h
  · rw [resultOf_setResult, h, ite_self]

theorem resultOf_initialResults (options : List String) (label : String) :
    resultOf (initialResults options) label = 0 := by
  refine List.foldlRecOn (motive := fun results : Results => resultOf results label = 0)
    options addOption rfl ?_
  intro results h option _
  exact resultOf_addOption h option

-- Tallies
----

structure VoteTally where
  totalVotingWeight : ℤ
  results : Results

/- What every object inherits; none of it is a number. -/
def objectPrototype : List String :=
  ["__proto__", "constructor", "hasOwnProperty",
    "isPrototypeOf", "propertyIsEnumerable", "toLocaleString",
    "toString", "valueOf", "__defineGetter__",
    "__defineSetter__", "__lookupGetter__", "__lookupSetter__"]

/-
  Add a weight to the total and to the result of its label.
  Reading an inherited property as a number throws.
-/
def applyVoteWeight (current : VoteTally) (weight : ℤ) (option : String) : Option VoteTally :=
  if current.results.find? option = none ∧ option ∈ objectPrototype then none
  else
    some {
      totalVotingWeight := current.totalVotingWeight + weight
      results := setResult current.results option (resultOf current.results option + weight) }

variable {current tallies : VoteTally} {weight : ℤ} {option : String}

theorem total_applyVoteWeight (h : applyVoteWeight current weight option = some tallies) :
    tallies.totalVotingWeight = current.totalVotingWeight + weight := by
  unfold applyVoteWeight at h
  split at h
  · cases h
  · cases h
    rfl

theorem resultOf_applyVoteWeight (h : applyVoteWeight current weight option = some tallies)
    (label : String) :
    resultOf tallies.results label = resultOf current.results label +
      if label = option then weight else 0 := by
  unfold applyVoteWeight at h
  split at h
  · cases h
  · cases h
    rw [resultOf_setResult]
    split
    · rename_i hSame
      rw [hSame]
    · rw [add_zero]

end Utils

end AccessLayer
