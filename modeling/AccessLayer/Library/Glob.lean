import Mathlib.Data.List.Basic
import Mathlib.Data.List.Infix

/-
  Glob patterns: `*` for any text, `?` for any symbol, a class
  of symbols and ranges in brackets, and a backslash before a
  symbol that stands for itself.

  Main declaration: `isMatch`
-/

-- Tokens
----

namespace Glob

inductive Token where
  | lit (c : Char)
  | any
  | oneOf (negated : Bool) (ranges : List (Char × Char))
  | star

/- Whether a token that stands for one symbol allows it. -/
def Token.allows (token : Token) (c : Char) : Bool :=
  match token with
  | .lit d => d == c
  | .any => true
  | .oneOf negated ranges =>
    (ranges.any fun range => decide (range.1 ≤ c) && decide (c ≤ range.2)) != negated
  | .star => false

/- A class that has been opened. -/
structure Open where
  negated : Bool
  ranges : List (Char × Char)

def Open.add (cls : Open) (a b : Char) : Open :=
  { cls with
    ranges := cls.ranges ++ [if b < a then (b, a) else (a, b)] }

def Open.close (cls : Open) : Token := .oneOf cls.negated cls.ranges

/- A class that is not closed ends with the pattern. -/
def parseFrom : Option Open → List Char → List Token
  | none, [] => []
  | none, ['\\'] => [.lit '\\']
  | none, '\\' :: c :: rest => .lit c :: parseFrom none rest
  | none, '[' :: '^' :: rest => parseFrom (some ⟨true, []⟩) rest
  | none, '[' :: rest => parseFrom (some ⟨false, []⟩) rest
  | none, '*' :: rest => .star :: parseFrom none rest
  | none, '?' :: rest => .any :: parseFrom none rest
  | none, c :: rest => .lit c :: parseFrom none rest
  | some cls, [] => [cls.close]
  | some cls, '\\' :: c :: rest => parseFrom (some (cls.add c c)) rest
  | some cls, ']' :: rest => cls.close :: parseFrom none rest
  | some cls, a :: '-' :: b :: rest => parseFrom (some (cls.add a b)) rest
  | some cls, c :: rest => parseFrom (some (cls.add c c)) rest

def parse (pattern : List Char) : List Token := parseFrom none pattern

def accepts : List Token → List Char → Bool
  | [], text => text.isEmpty
  | .star :: tokens, text => text.tails.any (accepts tokens)
  | _ :: _, [] => false
  | token :: tokens, c :: text => token.allows c && accepts tokens text

def isMatch (pattern text : List Char) : Bool := accepts (parse pattern) text

example : isMatch "h[a-ce]l*o\\?".toList "hello wo?".toList = true := by
  decide

end Glob
