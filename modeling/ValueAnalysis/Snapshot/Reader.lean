import ValueAnalysis.Snapshot.Basic

/-!
Reading S-expressions back. The reader goes through a text once and keeps the items of the lists that are open. What
it reads can be turned into plain data without the snapshot it was written from.
-/

namespace ValueAnalysis

namespace Sexp

def unescape? : Char → Option Char
  | '\\' => some '\\'
  | '\x22' => some '\x22'
  | 'b' => some '\x08'
  | 'f' => some '\x0c'
  | 'n' => some '\n'
  | 'r' => some '\r'
  | 't' => some '\t'
  | _ => none

def isDelimiter (c : Char) : Bool := c = '(' || c = ')' || c = ' ' || c = '\x22'

/-- What the reader is in the middle of. The characters are those read so far, the last one first. -/
inductive Token where
  | none
  | symbol (chars : List Char)
  | string (chars : List Char)
  | escape (chars : List Char)

/-- A text read in part: the items of the innermost open list and of those around it, the last one first. -/
structure Reader where
  token : Token := .none
  items : List Sexp := []
  enclosing : List (List Sexp) := []

namespace Reader

def push (r : Reader) (x : Sexp) : Reader := ⟨.none, x :: r.items, r.enclosing⟩

/-- Ends a symbol. A string ends with its own quote. -/
def settle (r : Reader) : Reader :=
  match r.token with
  | .symbol cs => r.push (.symbol (String.ofList cs.reverse))
  | _ => r

def openList (r : Reader) : Reader := ⟨.none, [], r.items :: r.enclosing⟩

def closeList? (r : Reader) : Option Reader :=
  match r.enclosing with
  | [] => none
  | items :: enclosing => some ⟨.none, .list r.items.reverse :: items, enclosing⟩

def delimit? (r : Reader) (c : Char) : Option Reader :=
  if c = '(' then some r.openList
  else if c = ')' then r.closeList?
  else if c = ' ' then some r
  else some { r with token := .string [] }

def step (r : Reader) (c : Char) : Option Reader :=
  match r.token with
  | .string cs =>
    if c = '\x22' then some (r.push (.string (String.ofList cs.reverse)))
    else if c = '\\' then some { r with token := .escape cs }
    else some { r with token := .string (c :: cs) }
  | .escape cs => (unescape? c).map fun d => { r with token := .string (d :: cs) }
  | .symbol cs => if isDelimiter c then r.settle.delimit? c else some { r with token := .symbol (c :: cs) }
  | .none => if isDelimiter c then r.delimit? c else some { r with token := .symbol [c] }

def run (r : Reader) : List Char → Option Reader
  | [] => some r
  | c :: cs => (r.step c).bind (·.run cs)

def result? (r : Reader) : Option Sexp :=
  match r.settle with
  | ⟨.none, [x], []⟩ => some x
  | _ => none

end Reader

def read? (s : String) : Option Sexp :=
  (Reader.run {} s.toList).bind Reader.result?

mutual

/-- The plain data that an S-expression stands for. A list begins with the name of its kind. -/
def toData : Sexp → Data
  | symbol name => .string (if name = "top" then Snapshot.topText else Snapshot.bottomText)
  | string s => .string s
  | list (symbol kind :: items) =>
    if kind = "map" then .object (toFields [] items) else .array (toDataAll items)
  | list _ => .array []

def toDataAll : List Sexp → List Data
  | [] => []
  | x :: xs => toData x :: toDataAll xs

def toFields (fields : List (String × Data)) : List Sexp → List (String × Data)
  | [] => fields
  | list [string k, v] :: rest => toFields (Snapshot.setField k (toData v) fields) rest
  | _ :: rest => toFields fields rest

end

end Sexp

end ValueAnalysis
