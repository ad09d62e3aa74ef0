/-! # Precedence

How tightly an operator holds its operands. The levels are linearly ordered, weakest first.
-/

namespace ScriptReader

inductive Precedence where
  | lowest
  | equality
  | relational
  | additive
  | multiplicative
  | unary
  | call
deriving DecidableEq, Repr

namespace Precedence

/-- Every level once, weakest first. -/
def all : List Precedence :=
  [.lowest, .equality, .relational, .additive, .multiplicative, .unary, .call]

def name : Precedence → String
  | .lowest => "Lowest"
  | .equality => "Equality"
  | .relational => "Relational"
  | .additive => "Additive"
  | .multiplicative => "Multiplicative"
  | .unary => "Prefix"
  | .call => "Call"

/-- The level of a given name. -/
def ofName? (name : String) : Option Precedence := all.find? fun level => level.name == name

/-- The number of weaker levels. -/
def rank : Precedence → Nat
  | .lowest => 0
  | .equality => 1
  | .relational => 2
  | .additive => 3
  | .multiplicative => 4
  | .unary => 5
  | .call => 6

instance : LT Precedence := ⟨fun weak strong => weak.rank < strong.rank⟩

instance : LE Precedence := ⟨fun weak strong => weak.rank ≤ strong.rank⟩

instance (weak strong : Precedence) : Decidable (weak < strong) :=
  inferInstanceAs (Decidable (weak.rank < strong.rank))

instance (weak strong : Precedence) : Decidable (weak ≤ strong) :=
  inferInstanceAs (Decidable (weak.rank ≤ strong.rank))

instance : Ord Precedence := ⟨fun weak strong => compare weak.rank strong.rank⟩

theorem lt_iff {weak strong : Precedence} : weak < strong ↔ weak.rank < strong.rank := Iff.rfl

theorem le_iff {weak strong : Precedence} : weak ≤ strong ↔ weak.rank ≤ strong.rank := Iff.rfl

theorem not_lt {left right : Precedence} : ¬ left < right ↔ right ≤ left := Nat.not_lt

theorem lowest_le (level : Precedence) : lowest ≤ level := Nat.zero_le _

end Precedence

end ScriptReader
