import ValueAnalysis.ExtInt
import ValueAnalysis.Text.Quoted
import ValueAnalysis.Value.Decimal

/-!
Host values. Literals, locations and settings reach the analysis as values of the host program; the
analysis prints them, compares them and reads integers off them, and otherwise passes them through.
-/

namespace ValueAnalysis

inductive Value where
  | null
  | bool (b : Bool)
  | int (n : Int)
  | float (x : Double)
  | text (s : String)
  | list (items : List Value)
  | number (n : ExtInt)
  deriving Inhabited

namespace Value

def isNull : Value → Bool
  | null => true
  | _ => false

def isKey : Value → Bool
  | list _ => false
  | _ => true

mutual

/-- The form of a value inside a list or a diagnostic: texts are quoted. -/
def literal : Value → String
  | null => "None"
  | bool true => "True"
  | bool false => "False"
  | int n => toString n
  | float x => x.text
  | text s => Text.quoted s
  | list items => "[" ++ ", ".intercalate (literals items) ++ "]"
  | number n => "MathNumber(" ++ n.text ++ ")"

def literals : List Value → List String
  | [] => []
  | v :: vs => literal v :: literals vs

end

/-- The form of a value on its own: a text is itself and an extended integer shows its number only. -/
def display : Value → String
  | text s => s
  | number n => n.text
  | v => literal v

def typeName : Value → String
  | null => "NoneType"
  | bool _ => "bool"
  | int _ => "int"
  | float _ => "float"
  | text _ => "str"
  | list _ => "list"
  | number _ => "MathNumber"

def quantity? : Value → Option Quantity
  | bool b => some (.ofInt (if b then 1 else 0))
  | int n => some (.ofInt n)
  | float x => some x.quantity
  | _ => none

mutual

/-- Equality of host values: numbers of different types are compared by their number, and lists item by
item. With `reflexive` an undefined float equals itself. -/
def same (reflexive : Bool) : Value → Value → Bool
  | null, null => true
  | text s, text t => s == t
  | number m, number n => m == n
  | list xs, list ys => sameAll reflexive xs ys
  | a, b =>
    match quantity? a, quantity? b with
    | some x, some y => x.same reflexive y
    | _, _ => false

def sameAll (reflexive : Bool) : List Value → List Value → Bool
  | [], [] => true
  | x :: xs, y :: ys => same reflexive x y && sameAll reflexive xs ys
  | _, _ => false

end

/-- The integer of an integer literal. A truth value is not one. -/
def integerLiteral? : Value → Option Int
  | int n => some n
  | _ => none

end Value

end ValueAnalysis
