import ValueAnalysis.Proofs.Bounds.State
import ValueAnalysis.Proofs.Env.Monotone

/-! Operations on strict upper bounds are monotone. A state that records more bounds refutes whatever a state
with fewer refutes, and inherits at least as many. -/

namespace ValueAnalysis.Bounds

open Env (Below)

variable {a b c d : Bounds} {x y z : String}

lemma mem_of_below (h : Below a b) (ha : a.isBottom = false) (hy : y ∈ b.get x) : y ∈ a.get x :=
  (leq_iff ha (h.reachable ha)).mp h.le x y hy

lemma isBottom_assign (h : b.WellFormed) (hb : b.isBottom = false) (x : Identifier) (e : Expr) :
    (Bounds.assign b x e).isBottom = false := by
  rw [(wellFormed_assign h x e).isBottom_eq]
  simp only [Bounds.assign, hb, Bool.false_eq_true, if_false]
  split <;> rfl

lemma below_assign (h : Below a b) (x : Identifier) (e : Expr) :
    Below (Bounds.assign a x e) (Bounds.assign b x e) := by
  have ha := wellFormed_assign h.left x e
  have hb := wellFormed_assign h.right x e
  cases hab : a.isBottom with
  | true => exact .of_isBottom ha hb (by simp [Bounds.assign, hab])
  | false =>
    have hbb := h.reachable hab
    refine ⟨ha, hb, (leq_iff (isBottom_assign h.left hab x e) (isBottom_assign h.right hbb x e)).mpr fun z y hy => ?_⟩
    rw [mem_assign hbb] at hy
    rw [mem_assign hab]
    refine hy.imp_right (Or.imp (And.imp_right (mem_of_below h hab)) ?_)
    rintro ⟨hz, w, hw, hy⟩
    exact ⟨hz, w, hw, hy.imp_right (mem_of_below h hab)⟩

lemma below_forgetIf (h : Below a b) (test : String → Bool) :
    Below (Bounds.forgetIf a test) (Bounds.forgetIf b test) := by
  have ha := wellFormed_forgetIf h.left test
  have hb := wellFormed_forgetIf h.right test
  cases hab : a.isBottom with
  | true => exact .of_isBottom ha hb (by rwa [forgetIf_of_isBottom hab])
  | false =>
    have hbb := h.reachable hab
    refine ⟨ha, hb, (leq_iff (isBottom_forgetIf hab test) (isBottom_forgetIf hbb test)).mpr fun z y hy => ?_⟩
    rw [mem_forgetIf hbb] at hy
    rw [mem_forgetIf hab]
    exact hy.imp_left (mem_of_below h hab)

section Guard

variable {P Q : Prop} [Decidable P] [Decidable Q]

lemma below_of_guard (h : Below a b) : Below ((if P then none else some a).getD .bottom) b := by
  split
  · exact .of_isBottom Env.wellFormed_bottom h.right rfl
  · exact h

lemma below_of_guards (h : Below a b) (hPQ : Q → P) :
    Below ((if P then none else some a).getD .bottom) ((if Q then none else some b).getD .bottom) := by
  by_cases hq : Q
  · rw [if_pos hq, if_pos (hPQ hq)]
    exact .refl Env.wellFormed_bottom
  · rw [if_neg hq]
    exact below_of_guard h

end Guard

lemma refineLt_below (ha : a.WellFormed) (x y : String) : Below ((refineLt? a x y).getD .bottom) a := by
  apply below_of_guard
  apply Below.put_left (.refl ha)
  exact LatticeDomain.leq_trans (LatticeDomain.meet_leq_left _ _) (LatticeDomain.meet_leq_left _ _)

lemma refineLe_below (ha : a.WellFormed) (x y : String) : Below ((refineLe? a x y).getD .bottom) a := by
  rw [refineLe?]
  split
  · exact .refl ha
  · apply below_of_guard
    exact Below.put_left (.refl ha) (LatticeDomain.meet_leq_left _ _)

lemma refineEq_below (ha : a.WellFormed) (x y : String) : Below ((refineEq? a x y).getD .bottom) a := by
  rw [refineEq?]
  split
  · exact .refl ha
  · apply below_of_guard
    apply Below.put_left
    · exact Below.put_left (.refl ha) (LatticeDomain.meet_leq_left _ _)
    · exact LatticeDomain.meet_leq_right _ _

lemma refine_below (ha : a.WellFormed) (op : BinaryOp) (l r : Expr) : Below (refine a op l r) a := by
  simp only [refine, refine?]
  split
  · split
    · exact refineLt_below ha _ _
    · exact refineLt_below ha _ _
    · exact refineLe_below ha _ _
    · exact refineLe_below ha _ _
    · exact refineEq_below ha _ _
    · exact .refl ha
  · exact .refl ha

section Refine

variable (h : Below a b) (ha : a.isBottom = false) (x y : String)
include h ha

lemma below_refineLt : Below ((refineLt? a x y).getD .bottom) ((refineLt? b x y).getD .bottom) := by
  have hne := BoundSet.meet_ne_unreachable (Env.get_ne_bottom ha x) (Env.get_ne_bottom ha y)
  have hmeet := LatticeDomain.meet_mono (LatticeDomain.meet_mono (h.get x) (h.get y))
    (LatticeDomain.leq_refl (BoundSet.singleton y))
  apply below_of_guards (h.put hmeet x)
  apply Or.imp_right
  exact BoundSet.mem_of_leq (BoundSet.meet_ne_unreachable hne (BoundSet.above_ne_unreachable _)) hmeet

lemma below_refineLe : Below ((refineLe? a x y).getD .bottom) ((refineLe? b x y).getD .bottom) := by
  have hne := BoundSet.meet_ne_unreachable (Env.get_ne_bottom ha x) (Env.get_ne_bottom ha y)
  have hmeet := LatticeDomain.meet_mono (h.get x) (h.get y)
  simp only [refineLe?]
  split
  · exact h
  · exact below_of_guards (h.put hmeet x) (BoundSet.mem_of_leq hne hmeet)

lemma below_refineEq : Below ((refineEq? a x y).getD .bottom) ((refineEq? b x y).getD .bottom) := by
  have hne := BoundSet.meet_ne_unreachable (Env.get_ne_bottom ha x) (Env.get_ne_bottom ha y)
  have hmeet := LatticeDomain.meet_mono (h.get x) (h.get y)
  simp only [refineEq?]
  split
  · exact h
  · apply below_of_guards ((h.put hmeet x).put hmeet y)
    exact Or.imp (BoundSet.mem_of_leq hne hmeet) (BoundSet.mem_of_leq hne hmeet)

end Refine

lemma below_refine (h : Below a b) (op : BinaryOp) (l r : Expr) : Below (refine a op l r) (refine b op l r) := by
  cases ha : a.isBottom with
  | true =>
    have hleft := refine_below h.left op l r
    exact .of_isBottom hleft.left (refine_below h.right op l r).left (Env.isBottom_of_leq hleft.le ha)
  | false =>
    simp only [refine, refine?]
    split
    · split
      · exact below_refineLt h ha _ _
      · exact below_refineLt h ha _ _
      · exact below_refineLe h ha _ _
      · exact below_refineLe h ha _ _
      · exact below_refineEq h ha _ _
      · exact h
    · exact h

lemma below_assume (h : Below a b) (e : Expr) : Below (Bounds.assume a e) (Bounds.assume b e) :=
  Env.below_restrict (fun op l r h => below_refine h op l r) h e

lemma assume_below (ha : a.WellFormed) (e : Expr) : Below (Bounds.assume a e) a :=
  Env.restrict_below (fun op l r ha => refine_below ha op l r) ha e

end ValueAnalysis.Bounds
