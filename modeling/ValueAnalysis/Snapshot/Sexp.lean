/-!
S-expressions of symbols, strings and lists, and their written form: a list stands in parentheses with one
space between items, a symbol is bare, and a string is in double quotes with seven characters escaped.
-/

namespace ValueAnalysis

inductive Sexp where
  | symbol (name : String)
  | string (s : String)
  | list (items : List Sexp)
  deriving Inhabited

namespace Sexp

def escapeLetter? (c : Char) : Option Char :=
  match c.toNat with
  | 0x5c => some c
  | 0x22 => some c
  | 0x08 => some 'b'
  | 0x0c => some 'f'
  | 0x0a => some 'n'
  | 0x0d => some 'r'
  | 0x09 => some 't'
  | _ => none

def escape (c : Char) : List Char :=
  match escapeLetter? c with
  | some l => ['\\', l]
  | none => [c]

def quote (s : String) : List Char :=
  '\x22' :: s.toList.flatMap escape ++ ['\x22']

mutual

def chars : Sexp → List Char
  | symbol name => name.toList
  | string s => quote s
  | list items => '(' :: charsOfItems items ++ [')']

def charsOfItems : List Sexp → List Char
  | [] => []
  | [x] => chars x
  | x :: y :: rest => chars x ++ ' ' :: charsOfItems (y :: rest)

end

def text (x : Sexp) : String := String.ofList x.chars

end Sexp

end ValueAnalysis
