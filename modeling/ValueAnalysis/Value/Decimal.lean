import ValueAnalysis.Text.Numeral
import ValueAnalysis.Value.Double

/-!
Floating-point numbers in decimal. A literal is read as the closest number. A number is written with the
fewest digits that read back as itself, and of several such decimals as the closest one.
-/

namespace ValueAnalysis

/-- The number `digits * 10 ^ exponent`. -/
structure Decimal where
  digits : Nat
  exponent : Int
  deriving DecidableEq

namespace Decimal

def digitCount (n : Nat) : Nat := (Nat.toDigits 10 n).length

/-- The closest floating-point number. Far outside their range the power of ten is not computed. -/
def toDouble (negative : Bool) (x : Decimal) : Double :=
  let place := digitCount x.digits + x.exponent
  if x.digits = 0 || place < -400 then .zero negative
  else if 400 < place then .infinite negative
  else .ofRatio negative (x.digits * Nat.pow 10 x.exponent.toNat) (Nat.pow 10 (-x.exponent).toNat)

def ofMantissa? (cs : List Char) : Option Decimal :=
  let whole := cs.takeWhile (· ≠ '.')
  let part := (cs.dropWhile (· ≠ '.')).drop 1
  let places := (part.filter (· ≠ '_')).length
  match whole, part with
  | [], [] => none
  | [], _ => (Text.readNatural part).map fun n => ⟨n, -places⟩
  | _, [] => (Text.readNatural whole).map fun n => ⟨n, 0⟩
  | _, _ => do
    let n ← Text.readNatural whole
    let m ← Text.readNatural part
    return ⟨n * Nat.pow 10 places + m, -places⟩

def readExponent? : List Char → Option Int
  | '+' :: cs => (Text.readNatural cs).map Int.ofNat
  | '-' :: cs => (Text.readNatural cs).map fun n => -Int.ofNat n
  | cs => (Text.readNatural cs).map Int.ofNat

def isExponentMark (c : Char) : Bool := c = 'e' || c = 'E'

def ofChars? (cs : List Char) : Option Decimal :=
  let mantissa := cs.takeWhile (!isExponentMark ·)
  match cs.dropWhile (!isExponentMark ·) with
  | [] => ofMantissa? mantissa
  | _ :: power => do
    let x ← ofMantissa? mantissa
    return ⟨x.digits, x.exponent + (← readExponent? power)⟩

/-- The place of the first digit of `n / d`: the greatest `p` with `10 ^ p` at most `n / d`. -/
def leadingPlace (n d : Nat) : Int :=
  if d ≤ n then digitCount (n / d) - 1 else -digitCount ((d + n - 1) / n - 1)

/-- The decimal with the given number of digits that reads back as `m * 2 ^ q`, if there is one. Only the
two decimals next to the number can, and the closer one goes first. -/
def withDigits? (m : Nat) (q : Int) (count : Nat) : Option Decimal :=
  let (n, d) := Double.fraction m q
  let place := leadingPlace n d - (count - 1)
  let (a, b) := Double.scaleDown 10 n d place
  let near := Double.roundDiv a b
  let far := if near = a / b then near + 1 else a / b
  [Decimal.mk near place, ⟨far, place⟩].find? fun x => x.toDouble false = .finite false m q

def exact (m : Nat) (q : Int) : Decimal :=
  if 0 ≤ q then ⟨m * Nat.pow 2 q.toNat, 0⟩ else ⟨m * Nat.pow 5 (-q).toNat, q⟩

/-- The shortest decimal that reads back as `m * 2 ^ q`. Seventeen digits always suffice. -/
def shortest (m : Nat) (q : Int) : Decimal :=
  ((List.range 17).findSome? fun i => withDigits? m q (i + 1)).getD (exact m q)

/-- Digits with a point after the place of the units, and a digit on both sides of it. -/
def positional (digits : List Char) (place : Int) : List Char :=
  if place < 0 then ['0', '.'] ++ List.replicate (-place - 1).toNat '0' ++ digits
  else
    let width := place.toNat + 1
    let whole := digits.take width ++ List.replicate (width - digits.length) '0'
    let part := digits.drop width
    whole ++ ['.'] ++ if part = [] then ['0'] else part

/-- Digits with a point after the first, and a signed exponent of two digits or more. -/
def scientific (digits : List Char) (place : Int) : List Char :=
  let part := digits.drop 1
  let power := Nat.toDigits 10 place.natAbs
  digits.take 1 ++ (if part = [] then [] else '.' :: part) ++
    ['e', if place < 0 then '-' else '+'] ++ List.replicate (2 - power.length) '0' ++ power

def layout (x : Decimal) : List Char :=
  let all := Nat.toDigits 10 x.digits
  let digits := (all.reverse.dropWhile (· = '0')).reverse
  let place := x.exponent + all.length - 1
  if -4 ≤ place && place < 16 then positional digits place else scientific digits place

end Decimal

namespace Double

def ofMagnitude? (negative : Bool) (cs : List Char) : Option Double :=
  match String.ofList (cs.map Char.toLower) with
  | "nan" => some nan
  | "inf" | "infinity" => some (infinite negative)
  | _ => (Decimal.ofChars? cs).map (·.toDouble negative)

def ofText? (s : String) : Option Double :=
  match Text.trimBlanks s.toList with
  | '-' :: cs => ofMagnitude? true cs
  | '+' :: cs => ofMagnitude? false cs
  | cs => ofMagnitude? false cs

def magnitudeText (m : Nat) (q : Int) : String :=
  if m = 0 then "0.0" else String.ofList (Decimal.shortest m q).layout

def text : Double → String
  | nan => "nan"
  | infinite negative => if negative then "-inf" else "inf"
  | finite negative m q => if negative then "-" ++ magnitudeText m q else magnitudeText m q

end Double

end ValueAnalysis
