import ValueAnalysis.Collection.NameSet
import ValueAnalysis.Collection.Table
import ValueAnalysis.Domain

/-!
Environments: finite maps from names to abstract values, ordered pointwise. A name without an entry has
the top value. An environment that stores no top or bottom value, and no value at all when it is
unreachable, is canonical: then top is the environment without entries and bottom the unreachable one.
-/

namespace ValueAnalysis

structure Env (L : Type) where
  facts : Table L
  unreachable : Bool
  deriving DecidableEq, Inhabited

namespace Env

open AbstractDomain (isTop isBottom leq join meet widen narrow snapshot)

variable {L : Type}

def names (env : Env L) : NameSet := .ofList env.facts.keys

def knows (env : Env L) (x : String) : Bool := env.facts.contains x

/-- Whether two environments hold the same facts, in whatever order. -/
def same [DecidableEq L] (a b : Env L) : Bool :=
  a.facts.same b.facts && a.unreachable == b.unreachable

theorem same_iff [DecidableEq L] {a b : Env L} :
    a.same b = true ↔ (∀ x, a.facts.get? x = b.facts.get? x) ∧ a.unreachable = b.unreachable := by
  simp [same, Table.same_iff]

theorem same_refl [DecidableEq L] (a : Env L) : a.same a = true := same_iff.mpr ⟨fun _ => rfl, rfl⟩

theorem same_symm [DecidableEq L] {a b : Env L} (h : a.same b = true) : b.same a = true := by
  obtain ⟨hfacts, hreach⟩ := same_iff.mp h
  exact same_iff.mpr ⟨fun x => (hfacts x).symm, hreach.symm⟩

def forget (env : Env L) (x : String) : Env L :=
  if env.unreachable || !env.knows x then env else ⟨env.facts.erase x, false⟩

/-- Drops the names that pass the test. The test reads the name only: an environment keeps no annotations, which may
differ between two occurrences of one variable. -/
def forgetIf (env : Env L) (test : String → Bool) : Env L :=
  if env.unreachable then env else ⟨env.facts.filter (!test ·), false⟩

variable [AbstractDomain L]

protected def top : Env L := ⟨∅, false⟩

protected def bottom : Env L := ⟨∅, true⟩

def get (env : Env L) (x : String) : L :=
  if env.unreachable then AbstractDomain.bottom else (env.facts.get? x).getD AbstractDomain.top

def put (env : Env L) (x : String) (v : L) : Env L :=
  if env.unreachable then env
  else if isBottom v then .bottom
  else if isTop v then ⟨env.facts.erase x, false⟩
  else ⟨env.facts.insert x v, false⟩

@[simp] theorem get_bottom (x : String) : (Env.bottom : Env L).get x = AbstractDomain.bottom := rfl

@[simp] theorem get_top (x : String) : (Env.top : Env L).get x = AbstractDomain.top := rfl

theorem get_of_unreachable {env : Env L} (h : env.unreachable = true) (x : String) :
    env.get x = AbstractDomain.bottom := by
  simp [get, h]

theorem get_put {env : Env L} {x z : String} {v : L} (h : env.unreachable = false)
    (hb : isBottom v = false) (ht : isTop v = true → v = AbstractDomain.top) :
    (env.put x v).get z = if z = x then v else env.get z := by
  by_cases hv : isTop v = true
  · obtain rfl := ht hv
    by_cases hz : z = x <;> simp [put, get, h, hb, hv, Table.get?_erase, hz]
  · by_cases hz : z = x <;> simp [put, get, h, hb, hv, Table.get?_insert, hz]

theorem get_forget {env : Env L} {x z : String} (h : env.unreachable = false) :
    (env.forget x).get z = if z = x then AbstractDomain.top else env.get z := by
  by_cases hk : env.knows x = true
  · by_cases hz : z = x <;> simp [forget, get, h, hk, Table.get?_erase, hz]
  · have hx : env.facts.get? x = none := by simpa [knows, Table.contains] using hk
    by_cases hz : z = x <;> simp [forget, get, h, hk, hx, hz]

protected def isBottom (env : Env L) : Bool :=
  env.unreachable || env.facts.entries.any (AbstractDomain.isBottom ·.2)

protected def isTop (env : Env L) : Bool :=
  !env.unreachable && env.facts.isEmpty

protected def leq (a b : Env L) : Bool :=
  if a.isBottom then true
  else if b.isBottom then false
  else b.facts.entries.all fun e => AbstractDomain.leq (a.get e.1) e.2

def unlessTop (v : L) : Option L := if isTop v then none else some v

/-- Combines the values that both environments store. A name that one of them lacks is top there, so this
suffices for an operation that is top whenever one side is. -/
def combineShared (op : L → L → L) (a b : Env L) : Env L :=
  ⟨a.facts.filterMap fun k v => (b.facts.get? k).bind fun w => unlessTop (op v w), false⟩

def combineAll (op : L → L → L) (a b : Env L) : Env L :=
  let combined := Table.merge
    (fun v w => op (v.getD AbstractDomain.top) (w.getD AbstractDomain.top)) a.facts b.facts
  if combined.entries.any (isBottom ·.2) then .bottom
  else ⟨combined.filterMap fun _ v => unlessTop v, false⟩

protected def join (a b : Env L) : Env L :=
  if a.isBottom then b else if b.isBottom then a else combineShared join a b

protected def meet (a b : Env L) : Env L :=
  if a.isBottom then a else if b.isBottom then b else combineAll meet a b

protected def widen (a b : Env L) : Env L :=
  if a.isBottom then b else if b.isBottom then a else combineShared widen a b

def widenRecords (a b : Env L) : List Record :=
  if a.isBottom || b.isBottom then []
  else a.facts.entries.flatMap fun e =>
    match b.facts.get? e.1 with
    | some w => AbstractDomain.widenRecords e.2 w
    | none => []

protected def narrow (a b : Env L) : Env L :=
  if a.isBottom then a else if b.isBottom then b else combineAll narrow a b

protected def snapshot (env : Env L) : Snapshot :=
  if env.isBottom then .bottom
  else if env.isTop then .top
  else .mapOf (env.facts.entries.map fun e => (.text e.1, snapshot e.2))

instance : AbstractDomain (Env L) where
  top := Env.top
  bottom := Env.bottom
  isTop := Env.isTop
  isBottom := Env.isBottom
  leq := Env.leq
  join := Env.join
  meet := Env.meet
  widen := Env.widen
  narrow := Env.narrow
  snapshot := Env.snapshot
  widenRecords := Env.widenRecords

end Env

end ValueAnalysis
