import ValueAnalysis.Proofs.Condition
import ValueAnalysis.Proofs.Env.Pointwise

/-! Assignments and conditions keep an environment canonical, over any domain of values whose own refinement
by a comparison does. -/

namespace ValueAnalysis.Env

variable {L : Type}

lemma WellFormed.assign [EvalDomain L] [LawfulDomain L] {env : Env L} (h : env.WellFormed) (x : Identifier)
    (e : Expr) : (env.assign x e).WellFormed := by
  rw [Env.assign]
  split
  · exact h
  · exact h.put x.name (env.eval e)

lemma WellFormed.collapse [ValueDomain L] {env : Env L} (h : env.WellFormed) : env.collapse.WellFormed := by
  rw [Env.collapse]
  split
  · exact wellFormed_bottom
  · exact h

def RefinesCanonically (L : Type) [ValueDomain L] : Prop :=
  ∀ (env : Env L) (op : BinaryOp) (l r : Expr), env.WellFormed →
    (ValueDomain.assumeBinary env op l r).WellFormed

namespace RefinesCanonically

variable [ValueDomain L] {env : Env L} (hL : RefinesCanonically L) (h : env.WellFormed)
include hL h

lemma refine (op : BinaryOp) (l r : Expr) : (env.refine op l r).WellFormed := by
  rw [Env.refine]
  split
  · exact wellFormed_bottom
  · exact wellFormed_bottom
  · exact h
  · exact (hL env op l r h).collapse

lemma assume [LawfulDomain L] (e : Expr) : (env.assume e).WellFormed :=
  Condition.restrict_preserves (P := Env.WellFormed) wellFormed_bottom WellFormed.join
    (fun op l r h => hL.refine h op l r) env e h

end RefinesCanonically

end ValueAnalysis.Env
