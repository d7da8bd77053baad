import ValueAnalysis.Snapshot.Sexp

/-!
Snapshots: the structured form in which every abstract value and state is shown. A snapshot is written as
text, as plain data or as an S-expression. Sets and maps are kept in the order of their text, so a
snapshot does not show the order in which they were built.
-/

namespace ValueAnalysis

inductive Snapshot where
  | text (s : String)
  | set (items : List Snapshot)
  | list (items : List Snapshot)
  | map (entries : List (Snapshot × Snapshot))
  | top
  | bottom
  deriving Inhabited

/-- Plain data of a snapshot: strings, arrays, and objects without repeated keys. -/
inductive Data where
  | string (s : String)
  | array (items : List Data)
  | object (fields : List (String × Data))
  deriving Inhabited

namespace Snapshot

def topText : String := "#TOP#"

def bottomText : String := "_|_"

mutual

def render : Snapshot → String
  | text s => s
  | set items => "\x7b" ++ ", ".intercalate (renderAll items) ++ "\x7d"
  | list items => "(" ++ ", ".intercalate (renderAll items) ++ ")"
  | map entries => "\n".intercalate (renderEntries entries)
  | top => topText
  | bottom => bottomText

def renderAll : List Snapshot → List String
  | [] => []
  | x :: xs => render x :: renderAll xs

def renderEntries : List (Snapshot × Snapshot) → List String
  | [] => []
  | (k, v) :: rest => (render k ++ ": " ++ render v) :: renderEntries rest

end

def kindName : Snapshot → String
  | text _ => "StringRepresentation"
  | set _ => "SetRepresentation"
  | list _ => "ListRepresentation"
  | map _ => "MapRepresentation"
  | top | bottom => "_Extremal"

def describe (x : Snapshot) : String := x.kindName ++ "(" ++ x.render ++ ")"

def same (x y : Snapshot) : Bool := x.kindName == y.kindName && x.render == y.render

def distinct : List Snapshot → List Snapshot
  | [] => []
  | x :: xs => x :: (distinct xs).filter (!x.same ·)

def setOf (items : List Snapshot) : Snapshot :=
  set ((distinct items).mergeSort fun x y => decide (x.render ≤ y.render))

def mapOf (entries : List (Snapshot × Snapshot)) : Snapshot :=
  map (entries.mergeSort fun x y => decide (x.1.render ≤ y.1.render))

def setField (k : String) (d : Data) : List (String × Data) → List (String × Data)
  | [] => [(k, d)]
  | (k', d') :: rest => if k' = k then (k, d) :: rest else (k', d') :: setField k d rest

mutual

def toData : Snapshot → Data
  | text s => .string s
  | set items => .array (toDataAll items)
  | list items => .array (toDataAll items)
  | map entries => .object (toFields [] entries)
  | top => .string topText
  | bottom => .string bottomText

def toDataAll : List Snapshot → List Data
  | [] => []
  | x :: xs => toData x :: toDataAll xs

/-- The fields of a map, added to those before them. Of two entries with one key the later counts. -/
def toFields (fields : List (String × Data)) : List (Snapshot × Snapshot) → List (String × Data)
  | [] => fields
  | (k, v) :: rest => toFields (setField (render k) (toData v) fields) rest

end

mutual

def toSexp : Snapshot → Sexp
  | text s => .string s
  | set items => .list (.symbol "set" :: toSexpAll items)
  | list items => .list (.symbol "list" :: toSexpAll items)
  | map entries => .list (.symbol "map" :: toSexpEntries entries)
  | top => .symbol "top"
  | bottom => .symbol "bottom"

def toSexpAll : List Snapshot → List Sexp
  | [] => []
  | x :: xs => toSexp x :: toSexpAll xs

def toSexpEntries : List (Snapshot × Snapshot) → List Sexp
  | [] => []
  | (k, v) :: rest => .list [.string (render k), toSexp v] :: toSexpEntries rest

end

def sexpText (x : Snapshot) : String := x.toSexp.text

end Snapshot

end ValueAnalysis
