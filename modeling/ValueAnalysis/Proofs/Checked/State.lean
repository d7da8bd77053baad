import ValueAnalysis.Checked.State
import ValueAnalysis.Proofs.Checked.Env

/-! No operation on a state fails. With its constructions checked each of them does what its report says, and over
expressions made of expression nodes the reports hold no failure. -/

namespace ValueAnalysis

open Report (guard_bind guard_bind_ok guard_append_of guard_of_failure failure_append failure_append_of)

/-- The checked operations of a state fail as their reports say, and the reports say so for no expression that is
made of expression nodes. -/
class LawfulCheckedState (S : Type) [AbstractState S] [CheckedState S] : Prop extends LawfulCheckedLattice S where
  assign_eq : ∀ (s : S) point x e, CheckedState.assign s x e =
    (AbstractState.assignReport s point x e).guard (AbstractState.assign s x e)
  assume_eq : ∀ (s : S) src dest e, CheckedState.assume s e =
    (AbstractState.assumeReport s src dest e).guard (AbstractState.assume s e)
  satisfies_eq : ∀ (s : S) point e, CheckedState.satisfies s e =
    (AbstractState.satisfiesReport s point e).guard (AbstractState.satisfies s e)
  forget_eq : ∀ (s : S) x, CheckedState.forget s x = .ok (AbstractState.forget s x)
  assign_failure : ∀ (s : S) point x {e}, e.isProper = true →
    (AbstractState.assignReport s point x e).failure = none
  assume_failure : ∀ (s : S) src dest {e}, e.isProper = true →
    (AbstractState.assumeReport s src dest e).failure = none
  satisfies_failure : ∀ (s : S) point {e}, e.isProper = true →
    (AbstractState.satisfiesReport s point e).failure = none

instance : LawfulCheckedDomain Taint where
  join_eq _ _ := rfl
  meet_eq _ _ := rfl
  widen_eq _ _ := rfl
  narrow_eq _ _ := rfl
  constant_eq _ := rfl
  unary_eq _ _ := rfl
  binary_eq _ _ _ := rfl
  ternary_eq _ _ _ _ := rfl
  satisfies_eq _ _ _ := rfl
  assume_eq _ _ _ _ _ := rfl
  assume_failure _ _ _ _ _ _ _ := rfl

instance {L : Type} [ValueDomain L] [DecidableEq L] [CheckedDomain L] [LawfulCheckedDomain L] :
    LawfulCheckedState (Env L) where
  assign_eq := Env.Checked.assign_eq
  assume_eq := Env.Checked.assume_eq
  satisfies_eq := Env.Checked.satisfies_eq
  forget_eq _ _ := rfl
  assign_failure env point _ _ := Env.failure_assignReport env point
  assume_failure env src dest _ := Env.failure_assumeReport env src dest
  satisfies_failure env point _ := Env.failure_satisfiesReport env point

namespace Bounds

variable (s : Bounds) (x y : String)

lemma Checked.dropMentions_eq (facts : Table BoundSet) :
    dropMentions facts x = .ok (Bounds.dropMentions facts x) := by
  apply Table.collect_eq (g := fun k b => if k = x then none else some (b.erase x))
  · intro k b
    split
    · rfl
    · exact congrArg some (BoundSet.Checked.erase_eq x b)
  · intro k b
    split <;> rfl

lemma Checked.assign_eq (x : Identifier) (e : Expr) : assign s x e = .ok (Bounds.assign s x e) := by
  rw [assign, Bounds.assign]
  split
  · rfl
  · rw [dropMentions_eq, ok_bind]
    cases offsetSource? x.name e with
    | some y =>
      simp only [BoundSet.Checked.insert_eq]
      rfl
    | none => rfl

lemma Checked.refineLt_eq : refineLt? s x y = .ok (Bounds.refineLt? s x y) := by
  rw [refineLt?, BoundSet.Checked.meet_eq, ok_bind, BoundSet.Checked.ofNames_eq, ok_bind,
    BoundSet.Checked.meet_eq]
  rfl

lemma Checked.refineLe_eq : refineLe? s x y = .ok (Bounds.refineLe? s x y) := by
  rw [refineLe?, BoundSet.Checked.meet_eq]
  rfl

lemma Checked.refineEq_eq : refineEq? s x y = .ok (Bounds.refineEq? s x y) := by
  rw [refineEq?, BoundSet.Checked.meet_eq]
  rfl

lemma Checked.refine?_eq (op : BinaryOp) (l r : Expr) : refine? s op l r = .ok (Bounds.refine? s op l r) := by
  cases l with
  | identifier x =>
    cases r with
    | identifier y =>
      cases op with
      | lt => exact refineLt_eq s x.name y.name
      | gt => exact refineLt_eq s y.name x.name
      | le => exact refineLe_eq s x.name y.name
      | ge => exact refineLe_eq s y.name x.name
      | eq => exact refineEq_eq s x.name y.name
      | _ => rfl
    | _ => rfl
  | _ => rfl

lemma failure_refineReport (op : BinaryOp) (l r : Expr) : (refineReport s op l r).failure = none := by
  rw [refineReport]
  split <;> rfl

lemma Checked.refine_eq (op : BinaryOp) (l r : Expr) :
    refine s op l r = (refineReport s op l r).guard (Bounds.refine s op l r) := by
  rw [guard_of_failure (failure_refineReport s op l r), refine, refine?_eq]
  rfl

lemma Checked.assume_eq (e : Expr) : assume s e = (assumeReport s e).guard (Bounds.assume s e) :=
  Condition.Checked.restrict_eq refine_eq s e

lemma failure_assumeReport {e : Expr} (he : e.isProper = true) : (assumeReport s e).failure = none :=
  Condition.failure_restrictReport (fun s op l r _ _ => failure_refineReport s op l r) s he

lemma Checked.forgetIf_eq (test : String → Bool) : forgetIf s test = .ok (Bounds.forgetIf s test) := by
  have hfacts : s.facts.collect (fun k b =>
        if test k then none else some (BoundSet.Checked.ofNames (b.names.filter (!test ·)))) Env.unlessTop =
      .ok (s.facts.filterMap fun k b =>
        if test k then none else Env.unlessTop (.above (b.names.filter (!test ·)))) := by
    apply Table.collect_eq (g := fun k b => if test k then none else some (.above (b.names.filter (!test ·))))
    · intro k b
      split
      · rfl
      · exact congrArg some (BoundSet.Checked.ofNames_eq _)
    · intro k b
      split <;> rfl
  rw [forgetIf, hfacts, Bounds.forgetIf]
  split <;> rfl

instance : LawfulCheckedState Bounds where
  assign_eq s _ := Checked.assign_eq s
  assume_eq s _ _ := Checked.assume_eq s
  satisfies_eq _ _ _ := rfl
  forget_eq s x := Checked.forgetIf_eq s (· = x)
  assign_failure _ _ _ _ _ := rfl
  assume_failure s _ _ _ := failure_assumeReport s
  satisfies_failure _ _ _ _ := rfl

end Bounds

namespace Pentagon

variable (p q : Pentagon)

lemma Checked.addBounds_eq (s : Bounds) (extra : Table NameSet) :
    addBounds s extra = .ok (Pentagon.addBounds s extra) := by
  have hfacts (b : Option BoundSet) (n : Option NameSet) :
      (n.elim (.ok (b.getD .top)) fun names => do
        BoundSet.Checked.meet (b.getD .top) (← BoundSet.Checked.ofNames names) : Except Failure BoundSet) =
      .ok (n.elim (b.getD .top) fun names => (b.getD .top).meet (.above names)) := by
    cases n with
    | none => rfl
    | some names =>
      rw [Option.elim_some, BoundSet.Checked.ofNames_eq, ok_bind]
      exact BoundSet.Checked.meet_eq _ _
  rw [addBounds, Table.sequence_merge hfacts]
  rfl

lemma Checked.closure_eq : closure p = .ok p.closure := by
  rw [closure, Pentagon.closure, addBounds_eq]
  split <;> rfl

lemma Checked.joinBounds_eq : joinBounds p q = .ok (Pentagon.joinBounds p q) := by
  rw [joinBounds, Env.Checked.join_eq, ok_bind, addBounds_eq, ok_bind, addBounds_eq]
  rfl

lemma Checked.join_eq : join p q = .ok (p.join q) := by
  rw [join, Pentagon.join, joinBounds_eq, Env.Checked.join_eq]
  exact ite_ite_ok _ _ _ _ _

lemma Checked.meet_eq : meet p q = .ok (p.meet q) := by
  rw [meet, Pentagon.meet, Env.Checked.meet_eq, Env.Checked.meet_eq, ok_bind, ok_bind, closure_eq]
  exact ite_ite_ok _ _ _ _ _

lemma Checked.widen_eq : widen p q = .ok (p.widen q) := by
  rw [widen, Pentagon.widen, Env.Checked.widen_eq, Env.Checked.widen_eq]
  exact ite_ite_ok _ _ _ _ _

lemma Checked.narrow_eq : narrow p q = .ok (p.narrow q) := by
  rw [narrow, Pentagon.narrow, Env.Checked.narrow_eq, Env.Checked.narrow_eq, ok_bind, ok_bind, closure_eq]
  exact ite_ite_ok _ _ _ _ _

lemma Checked.assignIntervals_eq (point : Value) (x : Identifier) (e : Expr) :
    assignIntervals p x e = (p.intervals.assignReport point e).guard (p.assignIntervals x e) := by
  rw [assignIntervals, Env.Checked.assign_eq p.intervals point, Pentagon.assignIntervals]
  apply guard_bind_ok
  split
  · have hpositive : Interval.Checked.atLeast (.fin 1) = .ok (.atLeast (.fin 1)) :=
      Interval.Checked.atLeast_eq nofun nofun
    rw [hpositive, ok_bind, Interval.Checked.intersect_eq]
    rfl
  · rfl

lemma Checked.assign_eq (point : Value) (x : Identifier) (e : Expr) :
    assign p x e = (p.assignReport point x e).guard (p.assign x e) := by
  rw [assign, Pentagon.assign, assignReport]
  split
  · rfl
  · rw [Bounds.Checked.assign_eq, assignIntervals_eq p point, guard_append_of]
    exact guard_bind_ok (closure_eq _)

lemma Checked.assume_eq (src dest : Value) (e : Expr) :
    assume p e = (p.assumeReport src dest e).guard (p.assume e) := by
  rw [assume, Pentagon.assume, assumeReport]
  split
  · rfl
  · rw [Bounds.Checked.assume_eq, Env.Checked.assume_eq p.intervals src dest, guard_append_of]
    exact guard_bind (guard_bind_ok (closure_eq _))

lemma Checked.satisfies_eq (point : Value) (e : Expr) :
    satisfies p e = (p.intervals.satisfiesReport point e).guard (p.satisfies e) := by
  rw [satisfies, Env.Checked.satisfies_eq p.intervals point]
  exact guard_bind_ok rfl

lemma Checked.forget_eq (x : String) : forget p x = .ok (p.forget x) := by
  rw [forget, Bounds.Checked.forget, Bounds.Checked.forgetIf_eq]
  rfl

lemma failure_assignReport (point : Value) (x : Identifier) {e : Expr} (he : e.isProper = true) :
    (p.assignReport point x e).failure = none := by
  rw [assignReport]
  split
  · rfl
  · rw [failure_append_of]
    exact Env.failure_assignReport p.intervals point he

lemma failure_assumeReport (src dest : Value) {e : Expr} (he : e.isProper = true) :
    (p.assumeReport src dest e).failure = none := by
  rw [assumeReport]
  split
  · rfl
  · rw [failure_append_of, failure_append (Bounds.failure_assumeReport p.bounds he)]
    exact Env.failure_assumeReport p.intervals src dest he

instance : LawfulCheckedLattice Pentagon where
  join_eq := Checked.join_eq
  meet_eq := Checked.meet_eq
  widen_eq := Checked.widen_eq
  narrow_eq := Checked.narrow_eq

instance : LawfulCheckedState Pentagon where
  assign_eq := Checked.assign_eq
  assume_eq := Checked.assume_eq
  satisfies_eq := Checked.satisfies_eq
  forget_eq := Checked.forget_eq
  assign_failure p point x _ := failure_assignReport p point x
  assume_failure p src dest _ := failure_assumeReport p src dest
  satisfies_failure p point _ := Env.failure_satisfiesReport p.intervals point

end Pentagon

/-- With its constructions checked every operation of a state returns what it returns without, on the given
expression where it takes one, and no report holds a failure. -/
structure Returns (S : Type) [AbstractState S] [CheckedState S] (e : Expr) : Prop where
  assign : ∀ (s : S) (x : Identifier), CheckedState.assign s x e = .ok (AbstractState.assign s x e)
  assume : ∀ s : S, CheckedState.assume s e = .ok (AbstractState.assume s e)
  satisfies : ∀ s : S, CheckedState.satisfies s e = .ok (AbstractState.satisfies s e)
  forget : ∀ (s : S) (x : String), CheckedState.forget s x = .ok (AbstractState.forget s x)
  join : ∀ a b : S, CheckedLattice.join a b = .ok (AbstractDomain.join a b)
  meet : ∀ a b : S, CheckedLattice.meet a b = .ok (AbstractDomain.meet a b)
  widen : ∀ a b : S, CheckedLattice.widen a b = .ok (AbstractDomain.widen a b)
  narrow : ∀ a b : S, CheckedLattice.narrow a b = .ok (AbstractDomain.narrow a b)
  reports : ∀ (s : S) (src dest : Value) (x : Identifier),
    (AbstractState.assignReport s src x e).failure = none ∧
    (AbstractState.assumeReport s src dest e).failure = none ∧
    (AbstractState.satisfiesReport s src e).failure = none

lemma returns (S : Type) [AbstractState S] [CheckedState S] [LawfulCheckedState S] {e : Expr}
    (he : e.isProper = true) : Returns S e where
  assign s x := by
    rw [LawfulCheckedState.assign_eq s .null x e]
    exact guard_of_failure (LawfulCheckedState.assign_failure s .null x he) _
  assume s := by
    rw [LawfulCheckedState.assume_eq s .null .null e]
    exact guard_of_failure (LawfulCheckedState.assume_failure s .null .null he) _
  satisfies s := by
    rw [LawfulCheckedState.satisfies_eq s .null e]
    exact guard_of_failure (LawfulCheckedState.satisfies_failure s .null he) _
  forget := LawfulCheckedState.forget_eq
  join := LawfulCheckedLattice.join_eq
  meet := LawfulCheckedLattice.meet_eq
  widen := LawfulCheckedLattice.widen_eq
  narrow := LawfulCheckedLattice.narrow_eq
  reports s src dest x :=
    ⟨LawfulCheckedState.assign_failure s src x he, LawfulCheckedState.assume_failure s src dest he,
      LawfulCheckedState.satisfies_failure s src he⟩

lemma Env.Checked.eval_returns {L : Type} [EvalDomain L] [CheckedEval L] [LawfulCheckedEval L] {e : Expr}
    (he : e.isProper = true) (env : Env L) (point : Value) :
    eval env e = .ok (env.eval e) ∧ (env.evalReport point e).failure = none := by
  have hreport := failure_evalReport env point he
  rw [eval_eq env point]
  exact ⟨guard_of_failure hreport _, hreport⟩

theorem checked_operations_return {e : Expr} (he : e.isProper = true) :
    Returns (Env Interval) e ∧ Returns Bounds e ∧ Returns (Env Taint) e ∧ Returns Pentagon e ∧
    (∀ (env : Env Interval) (point : Value),
      Env.Checked.eval env e = .ok (env.eval e) ∧ (env.evalReport point e).failure = none) ∧
    (∀ (env : Env Taint) (point : Value),
      Env.Checked.eval env e = .ok (env.eval e) ∧ (env.evalReport point e).failure = none) ∧
    (∀ p : Pentagon, Pentagon.Checked.eval p e = .ok (p.eval e) ∧ Pentagon.Checked.closure p = .ok p.closure) ∧
    (∀ op a, Interval.Checked.evalUnary op a = .ok (Interval.evalUnary op a)) ∧
    ∀ op a b, Interval.Checked.evalBinary op a b = .ok (Interval.evalBinary op a b) := by
  refine ⟨returns _ he, returns _ he, returns _ he, returns _ he, Env.Checked.eval_returns he,
    Env.Checked.eval_returns he, fun p => ⟨?_, Pentagon.Checked.closure_eq p⟩, Interval.Checked.evalUnary_eq,
    Interval.Checked.evalBinary_eq⟩
  exact (Env.Checked.eval_returns he p.intervals .null).1

/-- A divisor without a lower bound that holds zero, and a product with an empty factor. -/
theorem checked_operations_return_unbounded_divisor :
    let p : Pentagon :=
      ⟨⟨.ofList [("x", .singleton "y")], false⟩,
        ⟨.ofList [("x", .ofBounds .negInf (.fin 3)), ("y", .ofBounds (.fin 5) (.fin 9))], false⟩⟩
    let z : Identifier := ⟨"z", ∅, .null⟩
    let e : Expr := .binary .div (.identifier ⟨"y", ∅, .null⟩) (.identifier ⟨"x", ∅, .null⟩) .null
    e.isProper = true ∧ Pentagon.Checked.eval p e = .ok (.ofBounds (.fin (-9)) (.fin 9)) ∧
      Pentagon.Checked.assign p z e = .ok (p.assign z e) ∧
      Interval.Checked.evalBinary .mul .empty (.ofBounds .negInf (.fin 3)) = .ok .empty := by
  intro p z e
  have he : e.isProper = true := rfl
  obtain ⟨-, -, -, hpentagon, -, -, heval, -, hbinary⟩ := checked_operations_return he
  have hvalue : p.eval e = .ofBounds (.fin (-9)) (.fin 9) := by decide +kernel
  have hproduct : Interval.evalBinary .mul .empty (.ofBounds .negInf (.fin 3)) = .empty := by decide
  refine ⟨he, ?_, hpentagon.assign p z, ?_⟩
  · rw [(heval p).1, hvalue]
  · rw [hbinary, hproduct]

end ValueAnalysis
