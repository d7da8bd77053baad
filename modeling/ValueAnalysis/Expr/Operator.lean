/-!
Operators of the expression language, their names and symbols, and the two involutions on comparisons:
exchanging the operands and taking the complement.
-/

namespace ValueAnalysis

inductive UnaryOp where
  | negation
  | stringLength
  | logicalNot
  | bitwiseNot
  deriving DecidableEq

inductive BinaryOp where
  | add
  | sub
  | mul
  | div
  | mod
  | lt
  | le
  | gt
  | ge
  | eq
  | ne
  | logicalAnd
  | logicalOr
  | stringConcat
  | typeCast
  | typeConv
  deriving DecidableEq

inductive TernaryOp where
  | stringSubstring
  | stringReplace
  deriving DecidableEq

namespace UnaryOp

def all : List UnaryOp := [negation, stringLength, logicalNot, bitwiseNot]

def name : UnaryOp → String
  | negation => "NUMERIC_NEGATION"
  | stringLength => "STRING_LENGTH"
  | logicalNot => "LOGICAL_NOT"
  | bitwiseNot => "BITWISE_NOT"

def ofName? (s : String) : Option UnaryOp :=
  all.find? (·.name == s)

end UnaryOp

namespace BinaryOp

def all : List BinaryOp :=
  [add, sub, mul, div, mod, lt, le, gt, ge, eq, ne, logicalAnd, logicalOr, stringConcat, typeCast,
    typeConv]

def name : BinaryOp → String
  | add => "ADD"
  | sub => "SUB"
  | mul => "MUL"
  | div => "DIV"
  | mod => "MOD"
  | lt => "LT"
  | le => "LE"
  | gt => "GT"
  | ge => "GE"
  | eq => "EQ"
  | ne => "NE"
  | logicalAnd => "LOGICAL_AND"
  | logicalOr => "LOGICAL_OR"
  | stringConcat => "STRING_CONCAT"
  | typeCast => "TYPE_CAST"
  | typeConv => "TYPE_CONV"

def ofName? (s : String) : Option BinaryOp :=
  all.find? (·.name == s)

/-- The sign written between the operands; an operator without one is written by its name. -/
def symbol : BinaryOp → String
  | add => "+"
  | sub => "-"
  | mul => "*"
  | div => "/"
  | mod => "%"
  | lt => "<"
  | le => "<="
  | gt => ">"
  | ge => ">="
  | eq => "=="
  | ne => "!="
  | logicalAnd => "&&"
  | logicalOr => "||"
  | op => op.name

def isComparison : BinaryOp → Bool
  | lt | le | gt | ge | eq | ne => true
  | _ => false

def swapped : BinaryOp → BinaryOp
  | lt => gt
  | gt => lt
  | le => ge
  | ge => le
  | op => op

def negated? : BinaryOp → Option BinaryOp
  | lt => some ge
  | ge => some lt
  | gt => some le
  | le => some gt
  | eq => some ne
  | ne => some eq
  | _ => none

theorem swapped_swapped (op : BinaryOp) : op.swapped.swapped = op := by
  cases op <;> rfl

end BinaryOp

namespace TernaryOp

def all : List TernaryOp := [stringSubstring, stringReplace]

def name : TernaryOp → String
  | stringSubstring => "STRING_SUBSTRING"
  | stringReplace => "STRING_REPLACE"

def ofName? (s : String) : Option TernaryOp :=
  all.find? (·.name == s)

end TernaryOp

end ValueAnalysis
