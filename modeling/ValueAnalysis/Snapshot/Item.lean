import ValueAnalysis.Bounds.BoundSet
import ValueAnalysis.Interval.Domain
import ValueAnalysis.Taint.Basic

/-!
Items: what a host may put into a snapshot. An abstract value is shown by its own snapshot and anything
else by its text.
-/

namespace ValueAnalysis

inductive Item where
  | value (v : Value)
  | snapshot (s : Snapshot)
  | interval (a : Interval)
  | taint (t : Taint)
  | bounds (b : BoundSet)
  | expr (e : Expr)
  deriving Inhabited

namespace Item

def ofExpr : Expr → Item
  | .foreign v => value v
  | e => expr e

def isKey : Item → Bool
  | value v => v.isKey
  | expr e => e.isKey
  | _ => true

def lift : Item → Snapshot
  | value v => .text v.display
  | snapshot s => s
  | interval a => a.snapshot
  | taint t => t.snapshot
  | bounds b => b.snapshot
  | expr e => .text e.text

def display (x : Item) : String := x.lift.render

/-- Whether two items are one key of a map. Items of different kinds never are. -/
def sameKey : Item → Item → Bool
  | value v, value w => v.same false w
  | snapshot s, snapshot t => s.same t
  | interval a, interval b => a == b
  | taint a, taint b => a == b
  | bounds a, bounds b => a == b
  | expr e, expr f => e.same false f
  | _, _ => false

/-- Sets the value of a key. A key that is there keeps its place and its spelling. -/
def setKey (k v : Item) : List (Item × Item) → List (Item × Item)
  | [] => [(k, v)]
  | (k', v') :: rest => if k'.sameKey k then (k', v) :: rest else (k', v') :: setKey k v rest

def distinctKeys (entries : List (Item × Item)) : List (Item × Item) :=
  entries.foldl (fun acc e => setKey e.1 e.2 acc) []

def textOf (x : Item) : Snapshot := .text x.display

def setOf (items : List Item) : Snapshot := .setOf (items.map lift)

def listOf (items : List Item) : Snapshot := .list (items.map lift)

def mapOf (entries : List (Item × Item)) : Except Failure Snapshot :=
  if entries.all (·.1.isKey) then
    .ok (.mapOf ((distinctKeys entries).map fun e => (e.1.lift, e.2.lift)))
  else .error .listAsKey

def entriesOf (entries : List (Item × Item)) : Snapshot :=
  .map (entries.map fun e => (e.1.lift, e.2.lift))

end Item

end ValueAnalysis
