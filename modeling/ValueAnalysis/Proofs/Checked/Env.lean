import ValueAnalysis.Checked.Env
import ValueAnalysis.Proofs.Checked.Value
import ValueAnalysis.Proofs.Condition

/-! Evaluation and conditions with their constructions checked. They fail where the report of the operation holds
a failure and there only, and over an expression made of expression nodes no report does. -/

namespace ValueAnalysis

namespace Report

variable {α β : Type} {r r' : Report} {a : α} {b : β} {f : α → Except Failure β}

lemma append_eq (r r' : Report) : r ++ r' = r.andThen r' := rfl

lemma append_assoc (r r' r'' : Report) : r ++ r' ++ r'' = r ++ (r' ++ r'') := by
  obtain ⟨records, failure⟩ := r
  obtain ⟨records', failure'⟩ := r'
  cases failure <;> cases failure' <;> simp [append_eq, andThen]

lemma failure_append (h : r.failure = none) : (r ++ r').failure = r'.failure := by
  simp [append_eq, andThen, h]

lemma failure_append_of (r : Report) (records : List Record) : (r ++ of records).failure = r.failure := by
  cases h : r.failure with
  | none => rw [failure_append h]; rfl
  | some f => simp [append_eq, andThen, h]

lemma guard_of_failure (h : r.failure = none) (a : α) : r.guard a = .ok a := by
  simp [guard, h]

lemma guard_append_of (r : Report) (records : List Record) (a : α) : (r ++ of records).guard a = r.guard a := by
  rw [guard, guard, failure_append_of]

lemma guard_bind (h : f a = r'.guard b) : (r.guard a >>= f) = (r ++ r').guard b := by
  cases hr : r.failure with
  | none =>
    rw [guard_of_failure hr, guard, failure_append hr]
    exact h
  | some f => simp [guard, append_eq, andThen, hr, bind, Except.bind]

lemma guard_bind_ok (h : f a = .ok b) : (r.guard a >>= f) = r.guard b := by
  have hr : (r.guard a >>= f) = (r ++ of []).guard b := guard_bind h
  rwa [guard_append_of] at hr

end Report

open Report (guard_bind guard_bind_ok guard_append_of append_assoc failure_append failure_append_of)

class LawfulCheckedEval (L : Type) [EvalDomain L] [CheckedEval L] : Prop extends LawfulCheckedLattice L where
  constant_eq : ∀ v, (CheckedEval.constant v : Except Failure L) = .ok (EvalDomain.evalConstant v)
  unary_eq : ∀ op (a : L), CheckedEval.unary op a = .ok (EvalDomain.evalUnary op a)
  binary_eq : ∀ op (a b : L), CheckedEval.binary op a b = .ok (EvalDomain.evalBinary op a b)
  ternary_eq : ∀ op (a b c : L), CheckedEval.ternary op a b c = .ok (EvalDomain.evalTernary op a b c)

/-- The domain decides comparisons without failing, and refining by one fails as its report says. -/
class LawfulCheckedDomain (L : Type) [ValueDomain L] [CheckedDomain L] : Prop extends LawfulCheckedEval L where
  satisfies_eq : ∀ op (a b : L), CheckedDomain.satisfies op a b = .ok (ValueDomain.satisfiesBinary op a b)
  assume_eq : ∀ (env : Env L) op l r src, CheckedDomain.assume env op l r =
    (ValueDomain.assumeBinaryReport env op l r src).guard (ValueDomain.assumeBinary env op l r)
  assume_failure : ∀ (env : Env L) op {l r} src, l.isProper = true → r.isProper = true →
    (ValueDomain.assumeBinaryReport env op l r src).failure = none

namespace Env.Checked

open LawfulCheckedLattice LawfulCheckedEval LawfulCheckedDomain

variable {L : Type}

section Lattice

variable [AbstractDomain L]

lemma combineShared_eq {op : L → L → Except Failure L} {op' : L → L → L} (h : ∀ v w, op v w = .ok (op' v w))
    (a b : Env L) : combineShared op a b = .ok (Env.combineShared op' a b) := by
  have hfacts : a.facts.collect (fun k v => (b.facts.get? k).map (op v)) unlessTop =
      .ok (a.facts.filterMap fun k v => (b.facts.get? k).bind fun w => unlessTop (op' v w)) := by
    apply Table.collect_eq (g := fun k v => (b.facts.get? k).map (op' v))
    · intro k v
      rw [Option.map_map]
      refine congrArg (Option.map · (b.facts.get? k)) ?_
      funext w
      exact h v w
    · intro k v
      exact Option.bind_map ..
  rw [combineShared, hfacts]
  rfl

lemma combineAll_eq {op : L → L → Except Failure L} {op' : L → L → L} (h : ∀ v w, op v w = .ok (op' v w))
    (a b : Env L) : combineAll op a b = .ok (Env.combineAll op' a b) := by
  rw [combineAll, Table.sequence_merge (fun v w => h _ _) a.facts b.facts]
  rfl

variable [CheckedLattice L] [LawfulCheckedLattice L]

lemma join_eq (a b : Env L) : join a b = .ok (a.join b) := by
  rw [join, Env.join, combineShared_eq LawfulCheckedLattice.join_eq]
  exact ite_ite_ok _ _ _ _ _

lemma meet_eq (a b : Env L) : meet a b = .ok (a.meet b) := by
  rw [meet, Env.meet, combineAll_eq LawfulCheckedLattice.meet_eq]
  exact ite_ite_ok _ _ _ _ _

lemma widen_eq (a b : Env L) : widen a b = .ok (a.widen b) := by
  rw [widen, Env.widen, combineShared_eq LawfulCheckedLattice.widen_eq]
  exact ite_ite_ok _ _ _ _ _

lemma narrow_eq (a b : Env L) : narrow a b = .ok (a.narrow b) := by
  rw [narrow, Env.narrow, combineAll_eq LawfulCheckedLattice.narrow_eq]
  exact ite_ite_ok _ _ _ _ _

instance : LawfulCheckedLattice (Env L) where
  join_eq := join_eq
  meet_eq := meet_eq
  widen_eq := widen_eq
  narrow_eq := narrow_eq

end Lattice

section Eval

variable [EvalDomain L] [CheckedEval L] [LawfulCheckedEval L]

lemma evalNode_eq (env : Env L) (point : Value) (e : Expr) :
    evalNode env e = (env.evalNodeReport point e).guard (env.evalNode e) := by
  induction e with
  | constant v loc => exact constant_eq v
  | identifier x => rfl
  | unknown loc => rfl
  | unary op a loc ih =>
    rw [evalNode, ih, evalNodeReport]
    apply guard_bind_ok
    rw [unary_eq]
    exact (apply_ite Except.ok _ _ _).symm
  | binary op l r loc ihl ihr =>
    rw [evalNode, ihl, evalNodeReport]
    apply guard_bind
    simp only [Env.evalNode]
    split
    · rfl
    · rw [ihr]
      apply guard_bind
      split
      · rfl
      · exact binary_eq op _ _
  | ternary op l m r loc ihl ihm ihr =>
    rw [evalNode, ihl, ihm, ihr, evalNodeReport, append_assoc]
    apply guard_bind
    apply guard_bind
    apply guard_bind_ok
    rw [ternary_eq, Env.evalNode]
    simp only [apply_ite Except.ok]
  | foreign v => rfl

lemma eval_eq (env : Env L) (point : Value) (e : Expr) :
    eval env e = (env.evalReport point e).guard (env.eval e) := by
  rw [eval, Env.eval, evalReport, evalNode_eq env point]
  split <;> rfl

lemma assign_eq (env : Env L) (point : Value) (x : Identifier) (e : Expr) :
    assign env x e = (env.assignReport point e).guard (env.assign x e) := by
  rw [assign, Env.assign, assignReport]
  split
  · rfl
  · rw [eval_eq env point]
    exact guard_bind_ok rfl

end Eval

end Env.Checked

namespace Env

variable {L : Type} [EvalDomain L] {e : Expr}

lemma failure_evalNodeReport (env : Env L) (point : Value) (h : e.isProper = true) :
    (env.evalNodeReport point e).failure = none := by
  induction e with
  | constant v loc => rfl
  | identifier x => rfl
  | unknown loc => rfl
  | unary op a loc ih => exact ih h
  | binary op l r loc ihl ihr =>
    obtain ⟨hl, hr⟩ := Bool.and_eq_true_iff.mp h
    rw [evalNodeReport, failure_append (ihl hl)]
    split
    · rfl
    · rw [failure_append (ihr hr)]
      split <;> rfl
  | ternary op l m r loc ihl ihm ihr =>
    obtain ⟨hlm, hr⟩ := Bool.and_eq_true_iff.mp h
    obtain ⟨hl, hm⟩ := Bool.and_eq_true_iff.mp hlm
    rw [evalNodeReport, append_assoc, failure_append (ihl hl), failure_append (ihm hm)]
    exact ihr hr
  | foreign v => cases h

lemma failure_evalReport (env : Env L) (point : Value) (h : e.isProper = true) :
    (env.evalReport point e).failure = none := by
  rw [evalReport]
  split
  · rfl
  · exact failure_evalNodeReport env point h

lemma failure_assignReport (env : Env L) (point : Value) (h : e.isProper = true) :
    (env.assignReport point e).failure = none := by
  rw [assignReport]
  split
  · rfl
  · exact failure_evalReport env point h

end Env

lemma Expr.isProper_negate {e : Expr} (h : e.isProper = true) : e.negate.isProper = true := by
  fun_induction Expr.negate e with
  | case1 l r loc ihl ihr =>
    obtain ⟨hl, hr⟩ := Bool.and_eq_true_iff.mp h
    exact Bool.and_eq_true_iff.mpr ⟨ihl hl, ihr hr⟩
  | case2 l r loc ihl ihr =>
    obtain ⟨hl, hr⟩ := Bool.and_eq_true_iff.mp h
    exact Bool.and_eq_true_iff.mpr ⟨ihl hl, ihr hr⟩
  | case3 op l r loc => exact h
  | case4 op l r loc => exact h
  | case5 e loc => exact h
  | case6 b loc => rfl
  | case7 e => exact h

namespace Condition

section Answer

variable {decide : BinaryOp → Expr → Expr → Satisfiability} {report : BinaryOp → Expr → Expr → Report}

lemma Checked.answer_eq {checked : BinaryOp → Expr → Expr → Except Failure Satisfiability}
    (h : ∀ op l r, checked op l r = (report op l r).guard (decide op l r)) (e : Expr) :
    answer checked e = (answerReport report e).guard (Condition.answer decide e) := by
  induction e with
  | constant v loc => cases v <;> rfl
  | unary op a loc ih =>
    cases op with
    | logicalNot =>
      rw [answer, ih]
      exact guard_bind_ok rfl
    | _ => rfl
  | binary op l r loc ihl ihr =>
    cases op with
    | logicalAnd =>
      rw [answer, ihl, ihr]
      exact guard_bind (guard_bind_ok rfl)
    | logicalOr =>
      rw [answer, ihl, ihr]
      exact guard_bind (guard_bind_ok rfl)
    | _ => exact h _ l r
  | _ => rfl

lemma failure_answerReport
    (h : ∀ op l r, l.isProper = true → r.isProper = true → (report op l r).failure = none) {e : Expr}
    (he : e.isProper = true) : (answerReport report e).failure = none := by
  induction e with
  | unary op a loc ih =>
    cases op with
    | logicalNot => exact ih he
    | _ => rfl
  | binary op l r loc ihl ihr =>
    obtain ⟨hl, hr⟩ := Bool.and_eq_true_iff.mp he
    cases op with
    | logicalAnd =>
      rw [answerReport, failure_append (ihl hl)]
      exact ihr hr
    | logicalOr =>
      rw [answerReport, failure_append (ihl hl)]
      exact ihr hr
    | _ => exact h _ l r hl hr
  | _ => rfl

end Answer

section Restrict

open AbstractDomain (isBottom)
open LawfulCheckedLattice (join_eq)

variable {S : Type} [AbstractDomain S] {refine : S → BinaryOp → Expr → Expr → S}
  {report : S → BinaryOp → Expr → Expr → Report}

lemma Checked.restrict_not [CheckedLattice S] (checked : S → BinaryOp → Expr → Expr → Except Failure S) {s : S}
    (hs : ¬ isBottom s = true) (a : Expr) (loc : Value) :
    restrict checked s (.unary .logicalNot a loc) =
      if a.negate.isNegation = true then .ok s else restrict checked s a.negate := by
  rw [restrict, if_neg hs]
  split
  · rename_i ha
    rw [Expr.Checked.negate_eq] at ha
    cases ha
  · rename_i ha
    rw [Expr.Checked.negate_eq] at ha
    cases ha
    rfl

lemma Checked.restrict_eq [CheckedLattice S] [LawfulCheckedLattice S]
    {checked : S → BinaryOp → Expr → Expr → Except Failure S}
    (h : ∀ s op l r, checked s op l r = (report s op l r).guard (refine s op l r)) (s : S) (e : Expr) :
    restrict checked s e = (restrictReport refine report s e).guard (Condition.restrict refine s e) := by
  -- As long as nothing fails, both pass through the same states.
  fun_induction Condition.restrict refine s e with
  | case1 s e hs =>
    rw [restrict.eq_def, restrictReport.eq_def, if_pos hs, if_pos hs]
    rfl
  | case2 s hs loc =>
    rw [restrict, restrictReport, if_neg hs, if_neg hs]
    · rfl
    all_goals nofun
  | case3 s hs loc =>
    rw [restrict, restrictReport, if_neg hs, if_neg hs]
    rfl
  | case4 s hs a loc hn =>
    rw [restrict_not checked hs, if_pos hn, restrictReport, if_neg hs, dif_pos hn]
    rfl
  | case5 s hs a loc hn hw ih =>
    rw [restrict_not checked hs, if_neg hn, restrictReport, if_neg hs, dif_neg hn]
    exact ih
  | case6 s hs l r loc ihl ihr =>
    rw [restrict, restrictReport, if_neg hs, if_neg hs, ihl]
    exact guard_bind ihr
  | case7 s hs l r loc ihl ihr =>
    rw [restrict, restrictReport, if_neg hs, if_neg hs, ihl, ihr]
    exact guard_bind (guard_bind_ok (join_eq _ _))
  | case8 s hs op l r loc hand hor =>
    rw [restrict, restrictReport, if_neg hs, if_neg hs]
    · exact h s op l r
    all_goals assumption
  | case9 s e hs =>
    rw [restrict, restrictReport, if_neg hs, if_neg hs]
    · rfl
    all_goals assumption

lemma failure_restrictReport
    (h : ∀ s op l r, l.isProper = true → r.isProper = true → (report s op l r).failure = none) (s : S) {e : Expr}
    (he : e.isProper = true) : (restrictReport refine report s e).failure = none := by
  fun_induction restrictReport refine report s e with
  | case1 s e hs => rfl
  | case2 s hs loc => rfl
  | case3 s hs a loc hn => rfl
  | case4 s hs a loc hn hw ih => exact ih (Expr.isProper_negate he)
  | case5 s hs l r loc ihl ihr =>
    obtain ⟨hl, hr⟩ := Bool.and_eq_true_iff.mp he
    rw [failure_append (ihl hl)]
    exact ihr hr
  | case6 s hs l r loc ihl ihr =>
    obtain ⟨hl, hr⟩ := Bool.and_eq_true_iff.mp he
    rw [failure_append (ihl hl)]
    exact ihr hr
  | case7 s hs op l r loc =>
    obtain ⟨hl, hr⟩ := Bool.and_eq_true_iff.mp he
    exact h s op l r hl hr
  | case8 s e hs => rfl

end Restrict

end Condition

namespace Env

open LawfulCheckedEval LawfulCheckedDomain

variable {L : Type} [ValueDomain L]

section Checked

variable [CheckedDomain L] [LawfulCheckedDomain L]

lemma Checked.decideBinary_eq (env : Env L) (point : Value) (op : BinaryOp) (l r : Expr) :
    decideBinary env op l r = (env.decideReport point op l r).guard (env.decideBinary op l r) := by
  rw [decideBinary, eval_eq env point l, eval_eq env point r]
  apply guard_bind
  apply guard_bind_ok
  rw [satisfies_eq, Env.decideBinary]
  exact (apply_ite Except.ok _ _ _).symm

lemma Checked.satisfies_eq (env : Env L) (point : Value) (e : Expr) :
    satisfies env e = (env.satisfiesReport point e).guard (env.satisfies e) := by
  rw [satisfies, Env.satisfies, satisfiesReport]
  split
  · rfl
  · exact Condition.Checked.answer_eq (decideBinary_eq env point) e

lemma Checked.refine_eq (src dest : Value) (env : Env L) (op : BinaryOp) (l r : Expr) :
    refine env op l r = (refineReport src dest env op l r).guard (env.refine op l r) := by
  rw [refine, decideBinary_eq env src, Env.refine, refineReport]
  apply guard_bind
  cases env.decideBinary op l r with
  | unknown =>
    rw [assume_eq env op l r src]
    exact guard_bind_ok rfl
  | _ => rfl

lemma Checked.assume_eq (env : Env L) (src dest : Value) (e : Expr) :
    assume env e = (env.assumeReport src dest e).guard (env.assume e) :=
  Condition.Checked.restrict_eq (refine_eq src dest) env e

end Checked

lemma failure_decideReport (env : Env L) (point : Value) (op : BinaryOp) {l r : Expr} (hl : l.isProper = true)
    (hr : r.isProper = true) : (env.decideReport point op l r).failure = none := by
  rw [decideReport, failure_append (failure_evalReport env point hl)]
  exact failure_evalReport env point hr

lemma failure_satisfiesReport (env : Env L) (point : Value) {e : Expr} (he : e.isProper = true) :
    (env.satisfiesReport point e).failure = none := by
  rw [satisfiesReport]
  split
  · rfl
  · exact Condition.failure_answerReport (fun op _ _ => failure_decideReport env point op) he

variable [CheckedDomain L] [LawfulCheckedDomain L]

lemma failure_refineReport (src dest : Value) (env : Env L) (op : BinaryOp) {l r : Expr} (hl : l.isProper = true)
    (hr : r.isProper = true) : (refineReport src dest env op l r).failure = none := by
  rw [refineReport, failure_append (failure_decideReport env src op hl hr)]
  cases env.decideBinary op l r with
  | unknown => exact assume_failure env op src hl hr
  | _ => rfl

lemma failure_assumeReport (env : Env L) (src dest : Value) {e : Expr} (he : e.isProper = true) :
    (env.assumeReport src dest e).failure = none :=
  Condition.failure_restrictReport (fun env op _ _ => failure_refineReport src dest env op) env he

end Env

namespace Interval

variable (env : Env Interval) (op : BinaryOp) (l r : Expr) (src : Value)

instance : LawfulCheckedEval Interval where
  constant_eq := Checked.evalConstant_eq
  unary_eq := Checked.evalUnary_eq
  binary_eq := Checked.evalBinary_eq
  ternary_eq _ _ _ _ := rfl

def refineLeftReport : Report :=
  match l with
  | .identifier x => env.evalReport src r ++ .of (refineRecords env x.name op (env.eval r))
  | _ => .silent

lemma Checked.refineLeft_eq :
    refineLeft env op l r = (refineLeftReport env op l r src).guard (Interval.refineLeft env op l r) := by
  cases l with
  | identifier x =>
    rw [refineLeft, Env.Checked.eval_eq env src, refineLeftReport, guard_append_of]
    exact guard_bind_ok (refineVariable_eq env x.name op _)
  | _ => rfl

def refineRightReport : Report :=
  match r with
  | .identifier y =>
    env.evalReport src l ++ .of (refineRecords (refineLeft env op l r) y.name op.swapped (env.eval l))
  | _ => .silent

lemma assumeBinaryReport_eq :
    assumeBinaryReport env op l r src =
      if op.isComparison then refineLeftReport env op l r src ++ refineRightReport env op l r src else .silent := by
  cases l <;> cases r <;> rfl

lemma Checked.assumeBinary_eq :
    assumeBinary env op l r = (assumeBinaryReport env op l r src).guard (Interval.assumeBinary env op l r) := by
  rw [assumeBinaryReport_eq]
  cases hop : op.isComparison with
  | false => simp [assumeBinary, Interval.assumeBinary, hop, Report.guard, Report.silent]
  | true =>
    simp only [assumeBinary, Interval.assumeBinary, hop, if_true]
    rw [refineLeft_eq env op l r src]
    refine guard_bind ?_
    cases r with
    | identifier y =>
      rw [Env.Checked.eval_eq env src, refineRightReport, guard_append_of]
      exact guard_bind_ok (refineVariable_eq _ y.name _ _)
    | _ => rfl

lemma failure_assumeBinaryReport (hl : l.isProper = true) (hr : r.isProper = true) :
    (assumeBinaryReport env op l r src).failure = none := by
  have hleft : (refineLeftReport env op l r src).failure = none := by
    cases l with
    | identifier x =>
      rw [refineLeftReport, failure_append_of]
      exact Env.failure_evalReport env src hr
    | _ => rfl
  rw [assumeBinaryReport_eq]
  split
  · rw [failure_append hleft]
    cases r with
    | identifier y =>
      rw [refineRightReport, failure_append_of]
      exact Env.failure_evalReport env src hl
    | _ => rfl
  · rfl

instance : LawfulCheckedDomain Interval where
  satisfies_eq := Checked.satisfiesBinary_eq
  assume_eq := Checked.assumeBinary_eq
  assume_failure env op _ _ src := failure_assumeBinaryReport env op _ _ src

end Interval

end ValueAnalysis
