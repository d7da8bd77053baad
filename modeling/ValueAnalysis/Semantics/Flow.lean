import ValueAnalysis.Taint.Sink

/-!
Runs of assignments over values of any kind. The operators have a fixed meaning, but what a program reads from
outside varies from run to run: an unknown value and a variable marked as tainted can be anything. What it reads
from the variables that are marked as clean is put on record, so that runs with equal records can be compared.
-/

namespace ValueAnalysis

universe u

def BinaryOp.isCast : BinaryOp → Bool
  | typeCast | typeConv => true
  | _ => false

def Identifier.isSource (x : Identifier) : Bool := x.isMarked Taint.taintedMark

def Identifier.isTrusted (x : Identifier) : Bool := !x.isSource && x.isMarked Taint.cleanMark

/-- The leaves of an expression that its value depends on: those outside the type that a cast names. -/
def Expr.liveLeaves : Expr → List Expr
  | unary _ a _ => a.liveLeaves
  | binary op l r _ => if op.isCast then l.liveLeaves else l.liveLeaves ++ r.liveLeaves
  | ternary _ l m r _ => l.liveLeaves ++ m.liveLeaves ++ r.liveLeaves
  | e => [e]

/-- Whether a leaf brings in taint: an unknown value, a variable marked as tainted, or one without a mark that is
not on record as clean. -/
def Expr.isTaintSource (env : Env Taint) : Expr → Bool
  | unknown _ => true
  | identifier x =>
    x.isMarked Taint.taintedMark || (!x.isMarked Taint.cleanMark && env.facts.get? x.name != some .clean)
  | _ => false

/-- A meaning of the operators. The right operand of a cast names a type and does not count. -/
structure Interpretation (V : Type u) where
  constant : Value → V
  unary : UnaryOp → V → V
  binary : BinaryOp → V → V → V
  ternary : TernaryOp → V → V → V → V
  cast_right : ∀ {op : BinaryOp}, op.isCast = true → ∀ v w w', binary op v w = binary op v w'

abbrev Valuation (V : Type u) := String → V

def Valuation.set {V : Type u} (s : Valuation V) (x : String) (v : V) : Valuation V :=
  fun y => if y = x then v else s y

@[simp] theorem Valuation.set_self {V : Type u} (s : Valuation V) (x : String) (v : V) : s.set x v x = v := by
  simp [Valuation.set]

@[simp] theorem Valuation.set_ne {V : Type u} (s : Valuation V) {x y : String} (v : V) (h : y ≠ x) :
    s.set x v y = s y := by
  simp [Valuation.set, h]

namespace Interpretation

variable {V : Type u}

/-- The values that an expression can have, each with what was read at its trusted variables, from left to
right. -/
inductive Evaluates (I : Interpretation V) (s : Valuation V) : Expr → List V → V → Prop where
  | constant (c loc : Value) : Evaluates I s (.constant c loc) [] (I.constant c)
  | source {x : Identifier} (h : x.isSource = true) (v : V) : Evaluates I s (.identifier x) [] v
  | trusted {x : Identifier} (h : x.isTrusted = true) (v : V) : Evaluates I s (.identifier x) [v] v
  | stored {x : Identifier} (hs : x.isSource = false) (ht : x.isTrusted = false) :
    Evaluates I s (.identifier x) [] (s x.name)
  | unknown (loc : Value) (v : V) : Evaluates I s (.unknown loc) [] v
  | unary (op : UnaryOp) (loc : Value) {a : Expr} {reads : List V} {v : V} (h : Evaluates I s a reads v) :
    Evaluates I s (.unary op a loc) reads (I.unary op v)
  | binary (op : BinaryOp) (loc : Value) {l r : Expr} {readsL readsR : List V} {v w : V}
    (hl : Evaluates I s l readsL v) (hr : Evaluates I s r readsR w) :
    Evaluates I s (.binary op l r loc) (readsL ++ readsR) (I.binary op v w)
  | ternary (op : TernaryOp) (loc : Value) {l m r : Expr} {readsL readsM readsR : List V} {x y z : V}
    (hl : Evaluates I s l readsL x) (hm : Evaluates I s m readsM y) (hr : Evaluates I s r readsR z) :
    Evaluates I s (.ternary op l m r loc) (readsL ++ readsM ++ readsR) (I.ternary op x y z)

inductive Run (I : Interpretation V) : List (Identifier × Expr) → Valuation V → List V → Valuation V → Prop where
  | nil (s : Valuation V) : Run I [] s [] s
  | cons {x : Identifier} {e : Expr} {as : List (Identifier × Expr)} {s t : Valuation V} {reads rest : List V}
    {v : V} (he : Evaluates I s e reads v) (h : Run I as (s.set x.name v) rest t) :
    Run I ((x, e) :: as) s (reads ++ rest) t

end Interpretation

def Env.assignAll (env : Env Taint) (as : List (Identifier × Expr)) : Env Taint :=
  as.foldl (fun env a => env.assign a.1 a.2) env

/-- Two valuations that differ only where the environment allows taint. -/
def Env.Agree {V : Type u} (env : Env Taint) (s t : Valuation V) : Prop :=
  ∀ x, env.get x = .clean → s x = t x

end ValueAnalysis
