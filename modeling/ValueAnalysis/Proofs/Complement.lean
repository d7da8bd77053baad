import ValueAnalysis.Pentagon.Transfer
import ValueAnalysis.Proofs.Condition
import ValueAnalysis.Proofs.Interval.Exactness

/-! The answer to a negated condition is the negated answer. Complementary comparisons are decided by different tests,
but on intervals both are exact, and among recorded bounds the one that is asked for first is the same fact. The
connectives follow De Morgan, an unreachable side included. -/

namespace ValueAnalysis

namespace Satisfiability

lemma negate_negate (a : Satisfiability) : a.negate.negate = a := by
  cases a <;> rfl

lemma negate_and (a b : Satisfiability) : (a.and b).negate = a.negate.or b.negate := by
  cases a <;> cases b <;> rfl

lemma negate_or (a b : Satisfiability) : (a.or b).negate = a.negate.and b.negate := by
  cases a <;> cases b <;> rfl

lemma negate_meet (a b : Satisfiability) : (a.meet b).negate = a.negate.meet b.negate := by
  cases a <;> cases b <;> rfl

end Satisfiability

namespace Condition

variable {decide : BinaryOp → Expr → Expr → Satisfiability}

def Complementary (decide : BinaryOp → Expr → Expr → Satisfiability) : Prop :=
  ∀ {op op' : BinaryOp} (l r : Expr), op.negated? = some op' → decide op' l r = (decide op l r).negate

lemma answer_binary {op : BinaryOp} (hand : op ≠ .logicalAnd) (hor : op ≠ .logicalOr) (l r : Expr) (loc : Value) :
    answer decide (.binary op l r loc) = decide op l r := by
  cases op with
  | logicalAnd => exact absurd rfl hand
  | logicalOr => exact absurd rfl hor
  | _ => rfl

lemma answer_comparison {op : BinaryOp} (ho : op.isComparison = true) (l r : Expr) (loc : Value) :
    answer decide (.binary op l r loc) = decide op l r := by
  obtain ⟨hand, hor⟩ := BinaryOp.ne_connective ho
  exact answer_binary hand hor l r loc

lemma answer_negate (hd : Complementary decide) (e : Expr) : answer decide e.negate = (answer decide e).negate := by
  induction e using Expr.condition_induction with
  | literal b loc => cases b <;> rfl
  | negation a loc =>
    simp only [Expr.negate, answer]
    rw [Satisfiability.negate_negate]
  | conjunction l r loc ihl ihr =>
    simp only [Expr.negate, answer]
    rw [ihl, ihr, Satisfiability.negate_and]
  | disjunction l r loc ihl ihr =>
    simp only [Expr.negate, answer]
    rw [ihl, ihr, Satisfiability.negate_or]
  | comparison op l r loc ho =>
    obtain ⟨op', hop, he⟩ := Expr.negate_comparison ho l r loc
    rw [he, answer_comparison ho, answer_comparison (BinaryOp.isComparison_of_negated hop).2]
    exact hd l r hop
  | atom e he =>
    rw [Expr.negate_atom he]
    rfl

end Condition

lemma Interval.satisfiesBinary_negated {a b : Interval} {op op' : BinaryOp} (ha : a.isEmpty = false)
    (hb : b.isEmpty = false) (hop : op.negated? = some op') :
    satisfiesBinary op' a b = (satisfiesBinary op a b).negate := by
  obtain ⟨ho, ho'⟩ := BinaryOp.isComparison_of_negated hop
  have hholds : op'.holds = fun m n => !op.holds m n := by
    funext m n
    exact BinaryOp.holds_negated hop m n
  have hnegate := (decides_satisfiesBinary ha hb ho).negate
  rw [← hholds] at hnegate
  exact (decides_satisfiesBinary ha hb ho').unique hnegate

namespace Env

lemma complementary_decideBinary (env : Env Interval) : Condition.Complementary env.decideBinary := by
  intro op op' l r hop
  simp only [decideBinary]
  split
  case isTrue => rfl
  case isFalse hne =>
    rw [Bool.or_eq_true, not_or, Bool.not_eq_true, Bool.not_eq_true] at hne
    exact Interval.satisfiesBinary_negated hne.1 hne.2 hop

lemma satisfies_negate (env : Env Interval) (c : Expr) : env.satisfies c.negate = (env.satisfies c).negate := by
  simp only [satisfies]
  split
  · rfl
  · exact Condition.answer_negate env.complementary_decideBinary c

end Env

namespace Bounds

variable (b : Bounds)

lemma answerLe_eq (x y : String) : answerLe b x y = (answerLt b y x).negate := by
  simp only [answerLe, answerLt, eq_comm (a := x)]
  split_ifs <;> rfl

lemma complementary_decideBinary : Condition.Complementary (decideBinary b) := by
  intro op op' l r hop
  by_cases hid : ∃ x y, l = .identifier x ∧ r = .identifier y
  · obtain ⟨x, y, rfl, rfl⟩ := hid
    cases op with
    | lt =>
      obtain rfl := Option.some.inj hop
      exact answerLe_eq b y.name x.name
    | gt =>
      obtain rfl := Option.some.inj hop
      exact answerLe_eq b x.name y.name
    | le =>
      obtain rfl := Option.some.inj hop
      change answerLt b y.name x.name = (answerLe b x.name y.name).negate
      rw [answerLe_eq, Satisfiability.negate_negate]
    | ge =>
      obtain rfl := Option.some.inj hop
      change answerLt b x.name y.name = (answerLe b y.name x.name).negate
      rw [answerLe_eq, Satisfiability.negate_negate]
    | eq | ne =>
      obtain rfl := Option.some.inj hop
      rfl
    | _ => cases hop
  · simp only [decideBinary]
    split
    · exact absurd ⟨_, _, rfl, rfl⟩ hid
    · rfl

lemma satisfies_negate (c : Expr) : satisfies b c.negate = (satisfies b c).negate := by
  simp only [satisfies]
  split
  · rfl
  · exact Condition.answer_negate (complementary_decideBinary b) c

end Bounds

theorem negation_negates_answer (c : Expr) :
    (∀ env : Env Interval, env.satisfies c.negate = (env.satisfies c).negate) ∧
    (∀ b : Bounds, Bounds.satisfies b c.negate = (Bounds.satisfies b c).negate) ∧
    ∀ p : Pentagon, p.satisfies c.negate = (p.satisfies c).negate := by
  refine ⟨fun env => env.satisfies_negate c, fun b => Bounds.satisfies_negate b c, fun p => ?_⟩
  rw [Pentagon.satisfies, Pentagon.satisfies, Env.satisfies_negate, Bounds.satisfies_negate,
    Satisfiability.negate_meet]

end ValueAnalysis
