import ValueAnalysis.Proofs.Env.Intervals
import ValueAnalysis.Proofs.Interval.Monotone

/-! Operations on environments are monotone. A condition collapses an environment, leaves it alone or refines it,
depending on its answer; a smaller environment can get a sharper answer, but never a larger result. -/

namespace ValueAnalysis

lemma BinaryOp.isComparison_swapped (op : BinaryOp) : op.swapped.isComparison = op.isComparison := by
  cases op <;> rfl

lemma Satisfiability.join_eq_right_iff {a b : Satisfiability} :
    a.join b = b ↔ a = bottom ∨ b = unknown ∨ a = b := by
  cases a <;> cases b <;> decide

lemma Interval.satisfiesBinary_swapped {a b : Interval} {op : BinaryOp} (ha : a.isEmpty = false)
    (hb : b.isEmpty = false) (ho : op.isComparison = true) :
    satisfiesBinary op.swapped b a = satisfiesBinary op a b := by
  have hswapped := (decides_satisfiesBinary hb ha (op.isComparison_swapped.trans ho)).swap
  simp only [BinaryOp.holds_swapped] at hswapped
  exact hswapped.unique (decides_satisfiesBinary ha hb ho)

namespace Env

open AbstractDomain (top bottom leq)

section Order

variable {L : Type} [AbstractDomain L] [LatticeDomain L] {a b c d : Env L} {x : String}

lemma WellFormed.reachable_of_put (ha : a.WellFormed) {v : L} (h : (a.put x v).isBottom = false) :
    a.isBottom = false ∧ v ≠ bottom := by
  have hr : a.unreachable = false := by
    cases hu : a.unreachable with
    | false => rfl
    | true =>
      have hput : a.put x v = a := by simp [Env.put, hu]
      rw [hput, ha.isBottom_eq, hu] at h
      cases h
  refine ⟨ha.isBottom_eq.trans hr, ?_⟩
  rintro rfl
  have hput : a.put x bottom = .bottom := by
    simp [Env.put, hr, (LawfulDomain.isBottom_iff (bottom : L)).mpr rfl]
  rw [hput] at h
  cases h

omit [LatticeDomain L] in
lemma get_forget_eq (a : Env L) (x z : String) : (a.forget x).get z = (a.forgetIf (· = x)).get z := by
  cases hu : a.unreachable with
  | true => simp [Env.forget, Env.forgetIf, hu]
  | false =>
    rw [get_forget hu, get_forgetIf hu]
    simp

structure Below (a b : Env L) : Prop where
  left : a.WellFormed
  right : b.WellFormed
  le : a.leq b = true

namespace Below

lemma refl (ha : a.WellFormed) : Below a a := ⟨ha, ha, leq_refl a⟩

lemma trans (hab : Below a b) (hbc : Below b c) : Below a c :=
  ⟨hab.left, hbc.right, leq_trans hab.le hbc.le⟩

omit [LatticeDomain L] in
lemma of_isBottom (ha : a.WellFormed) (hb : b.WellFormed) (h : a.isBottom = true) : Below a b :=
  ⟨ha, hb, leq_of_isBottom h b⟩

lemma of_get (ha : a.WellFormed) (hb : b.WellFormed) (h : ∀ x, leq (a.get x) (b.get x) = true) : Below a b :=
  ⟨ha, hb, (ha.leq_iff_get hb).mpr h⟩

lemma get (h : Below a b) (x : String) : leq (a.get x) (b.get x) = true := (h.left.leq_iff_get h.right).mp h.le x

lemma reachable (h : Below a b) (ha : a.isBottom = false) : b.isBottom = false := ((leq_iff ha).mp h.le).1

lemma join (hac : Below a c) (hbd : Below b d) : Below (a.join b) (c.join d) := by
  have hcd := hac.right.join hbd.right
  refine ⟨hac.left.join hbd.left, hcd, hac.left.join_leq hbd.left hcd ?_ ?_⟩
  · exact leq_trans hac.le (hac.right.leq_join_left hbd.right)
  · exact leq_trans hbd.le (hac.right.leq_join_right hbd.right)

lemma meet (hac : Below a c) (hbd : Below b d) : Below (a.meet b) (c.meet d) := by
  have hab := hac.left.meet hbd.left
  refine ⟨hab, hac.right.meet hbd.right, hac.right.leq_meet hbd.right hab ?_ ?_⟩
  · exact leq_trans (hac.left.meet_leq_left hbd.left) hac.le
  · exact leq_trans (hac.left.meet_leq_right hbd.left) hbd.le

lemma put (h : Below a b) {v w : L} (hvw : leq v w = true) (x : String) : Below (a.put x v) (b.put x w) := by
  have hav := h.left.put x v
  have hbw := h.right.put x w
  cases hr : (a.put x v).isBottom with
  | true => exact of_isBottom hav hbw hr
  | false =>
    obtain ⟨har, hv⟩ := h.left.reachable_of_put hr
    have hw : w ≠ bottom := by
      rintro rfl
      exact hv ((LatticeDomain.leq_bottom_iff v).mp hvw)
    refine of_get hav hbw fun z => ?_
    rw [get_put_of_ne_bottom (reachable_of_isBottom har) hv,
      get_put_of_ne_bottom (reachable_of_isBottom (h.reachable har)) hw]
    split
    · exact hvw
    · exact h.get z

lemma put_left (h : Below a b) {v : L} (hv : leq v (b.get x) = true) : Below (a.put x v) b := by
  have hput := h.left.put x v
  cases hr : (a.put x v).isBottom with
  | true => exact of_isBottom hput h.right hr
  | false =>
    obtain ⟨har, hne⟩ := h.left.reachable_of_put hr
    refine of_get hput h.right fun z => ?_
    rw [get_put_of_ne_bottom (reachable_of_isBottom har) hne]
    split
    · subst z
      exact hv
    · exact h.get z

lemma put_right (ha : a.WellFormed) (har : a.isBottom = false) {v : L} (hv : leq (a.get x) v = true) :
    Below a (a.put x v) := by
  have hne : v ≠ bottom := by
    rintro rfl
    exact get_ne_bottom har x ((LatticeDomain.leq_bottom_iff _).mp hv)
  refine of_get ha (ha.put x v) fun z => ?_
  rw [get_put_of_ne_bottom (reachable_of_isBottom har) hne]
  split
  · subst z
    exact hv
  · exact LatticeDomain.leq_refl _

lemma put_comm (ha : a.WellFormed) {y : String} (hxy : x ≠ y) (v w : L) :
    Below ((a.put y w).put x v) ((a.put x v).put y w) := by
  have hleft := (ha.put y w).put x v
  have hright := (ha.put x v).put y w
  cases hr : ((a.put y w).put x v).isBottom with
  | true => exact of_isBottom hleft hright hr
  | false =>
    obtain ⟨hay, hv⟩ := (ha.put y w).reachable_of_put hr
    obtain ⟨har, hw⟩ := ha.reachable_of_put hay
    have hu := reachable_of_isBottom har
    have hax : (a.put x v).unreachable = false := unreachable_put hu hv
    refine of_get hleft hright fun z => ?_
    rw [get_put_of_ne_bottom (reachable_of_isBottom hay) hv, get_put_of_ne_bottom hu hw,
      get_put_of_ne_bottom hax hw, get_put_of_ne_bottom hu hv]
    by_cases hz : z = x
    · rw [if_pos hz, if_neg (hz ▸ hxy), if_pos hz]
      exact LatticeDomain.leq_refl v
    · rw [if_neg hz, if_neg hz]
      exact LatticeDomain.leq_refl _

lemma forgetIf (h : Below a b) (test : String → Bool) : Below (a.forgetIf test) (b.forgetIf test) := by
  have ha := h.left.forgetIf test
  have hb := h.right.forgetIf test
  cases hab : a.isBottom with
  | true =>
    have hforget : a.forgetIf test = a := by simp [Env.forgetIf, ← h.left.isBottom_eq, hab]
    exact of_isBottom ha hb (by rwa [hforget])
  | false =>
    refine of_get ha hb fun x => ?_
    rw [get_forgetIf (reachable_of_isBottom hab), get_forgetIf (reachable_of_isBottom (h.reachable hab))]
    split
    · exact LatticeDomain.leq_refl _
    · exact h.get x

lemma forget (h : Below a b) (x : String) : Below (a.forget x) (b.forget x) := by
  refine of_get (h.left.forget x) (h.right.forget x) fun z => ?_
  rw [get_forget_eq, get_forget_eq]
  exact (h.forgetIf _).get z

end Below

variable {refine : Env L → BinaryOp → Expr → Expr → Env L}

lemma below_restrict (hrefine : ∀ {a b : Env L} op l r, Below a b → Below (refine a op l r) (refine b op l r))
    (h : Below a b) (e : Expr) : Below (Condition.restrict refine a e) (Condition.restrict refine b e) := by
  have hright {b : Env L} (e : Expr) (hb : b.WellFormed) : (Condition.restrict refine b e).WellFormed :=
    Condition.restrict_preserves (P := WellFormed) wellFormed_bottom WellFormed.join
      (fun op l r hc => (hrefine op l r (.refl hc)).left) b e hb
  have hreach {a b : Env L} (h : Below a b) (ha : ¬ AbstractDomain.isBottom a = true) :
      ¬ AbstractDomain.isBottom b = true :=
    Bool.eq_false_iff.mp (h.reachable (Bool.eq_false_iff.mpr ha))
  fun_induction Condition.restrict refine a e generalizing b with
  | case1 a e hb => exact .of_isBottom h.left (hright e h.right) hb
  | case2 a hb loc =>
    rw [Condition.restrict, if_neg (hreach h hb)]
    exact h
  | case3 a hb loc =>
    rw [Condition.restrict, if_neg (hreach h hb)]
    exact .refl wellFormed_bottom
  | case4 a hb c loc hn =>
    rw [Condition.restrict, if_neg (hreach h hb)]
    simp only [hn]
    exact h
  | case5 a hb c loc hn hw ih =>
    rw [Condition.restrict, if_neg (hreach h hb)]
    simp only [hn]
    exact ih h
  | case6 a hb l r loc ihl ihr =>
    rw [Condition.restrict, if_neg (hreach h hb)]
    exact ihr (ihl h)
  | case7 a hb l r loc ihl ihr =>
    rw [Condition.restrict, if_neg (hreach h hb)]
    exact (ihl h).join (ihr h)
  | case8 a hb op l r loc hand hor =>
    rw [Condition.restrict, if_neg (hreach h hb)]
    · exact hrefine op l r h
    · exact hand
    · exact hor
  | case9 a e hb =>
    rw [Condition.restrict, if_neg (hreach h hb)]
    · exact h
    all_goals assumption

lemma restrict_below (hrefine : ∀ {a : Env L} op l r, a.WellFormed → Below (refine a op l r) a)
    (ha : a.WellFormed) (e : Expr) : Below (Condition.restrict refine a e) a := by
  apply Condition.restrict_preserves (P := (Below · a)) _ _ _ a e (.refl ha)
  · exact .of_isBottom wellFormed_bottom ha rfl
  · intro b c hb hc
    exact ⟨hb.left.join hc.left, ha, hb.left.join_leq hc.left ha hb.le hc.le⟩
  · intro b op l r hb
    exact (hrefine op l r hb.left).trans hb

end Order

section Evaluation

variable {a b : Env Interval}

lemma evalNode_binary_leq {l r : Expr} {op : BinaryOp} {c : Interval} (loc : Value)
    (h : (a.evalNode l).isEmpty = false → (a.evalNode r).isEmpty = false →
      (Interval.evalBinary op (a.evalNode l) (a.evalNode r)).leq c = true) :
    (a.evalNode (.binary op l r loc)).leq c = true := by
  cases hl : (a.evalNode l).isEmpty with
  | true => exact Interval.leq_of_isEmpty _ (by simp [evalNode, AbstractDomain.isBottom, hl])
  | false =>
    cases hr : (a.evalNode r).isEmpty with
    | true => exact Interval.leq_of_isEmpty _ (by simp [evalNode, AbstractDomain.isBottom, hl, hr])
    | false =>
      simp only [evalNode, AbstractDomain.isBottom, hl, hr]
      exact h hl hr

lemma evalNode_mono (h : ∀ x, (a.get x).leq (b.get x) = true) (e : Expr) :
    (a.evalNode e).leq (b.evalNode e) = true := by
  induction e with
  | constant v loc => exact Interval.leq_refl _
  | identifier x => exact h x.name
  | unknown loc => exact Interval.leq_refl _
  | unary op e loc ih =>
    cases hv : (a.evalNode e).isEmpty with
    | true => exact Interval.leq_of_isEmpty _ (by simp [evalNode, AbstractDomain.isBottom, hv])
    | false =>
      have hw := Interval.nonempty_of_leq ih hv
      simp only [evalNode, AbstractDomain.isBottom, hv, hw]
      exact Interval.evalUnary_mono hv ih op
  | binary op l r loc ihl ihr =>
    apply evalNode_binary_leq loc
    intro hl hr
    have hl' := Interval.nonempty_of_leq ihl hl
    have hr' := Interval.nonempty_of_leq ihr hr
    simp only [evalNode, AbstractDomain.isBottom, hl', hr']
    exact Interval.evalBinary_mono hl ihl hr ihr op
  | ternary op l m r loc ihl ihm ihr =>
    cases hl : (a.evalNode l).isEmpty with
    | true => exact Interval.leq_of_isEmpty _ (by simp [evalNode, AbstractDomain.isBottom, hl])
    | false =>
      cases hm : (a.evalNode m).isEmpty with
      | true => exact Interval.leq_of_isEmpty _ (by simp [evalNode, AbstractDomain.isBottom, hl, hm])
      | false =>
        cases hr : (a.evalNode r).isEmpty with
        | true => exact Interval.leq_of_isEmpty _ (by simp [evalNode, AbstractDomain.isBottom, hl, hm, hr])
        | false =>
          have hl' := Interval.nonempty_of_leq ihl hl
          have hm' := Interval.nonempty_of_leq ihm hm
          have hr' := Interval.nonempty_of_leq ihr hr
          simp only [evalNode, AbstractDomain.isBottom, hl, hm, hr, hl', hm', hr']
          exact Interval.leq_all _
  | foreign v => exact Interval.leq_refl _

lemma eval_mono (h : Below a b) (e : Expr) : (a.eval e).leq (b.eval e) = true := by
  cases ha : a.isBottom with
  | true => exact Interval.leq_of_isEmpty _ (by simp [eval, ha]; rfl)
  | false =>
    simp only [eval, ha, h.reachable ha]
    exact evalNode_mono h.get e

lemma Below.assign (h : Below a b) (x : Identifier) (e : Expr) : Below (a.assign x e) (b.assign x e) := by
  cases ha : a.isBottom with
  | true =>
    refine of_isBottom (h.left.assign x e) (h.right.assign x e) ?_
    simp [Env.assign, ha]
  | false =>
    simp only [Env.assign, ha, h.reachable ha]
    exact h.put (eval_mono h e) x.name

lemma decideBinary_mono (h : Below a b) (op : BinaryOp) (l r : Expr) :
    (a.decideBinary op l r).join (b.decideBinary op l r) = b.decideBinary op l r := by
  cases hl : (a.eval l).isEmpty with
  | true =>
    have hbottom : a.decideBinary op l r = .bottom := by simp [decideBinary, AbstractDomain.isBottom, hl]
    rw [hbottom]
    rfl
  | false =>
    cases hr : (a.eval r).isEmpty with
    | true =>
      have hbottom : a.decideBinary op l r = .bottom := by simp [decideBinary, AbstractDomain.isBottom, hr]
      rw [hbottom]
      rfl
    | false =>
      have hl' := Interval.nonempty_of_leq (eval_mono h l) hl
      have hr' := Interval.nonempty_of_leq (eval_mono h r) hr
      simp only [decideBinary, AbstractDomain.isBottom, hl, hr, hl', hr']
      exact Interval.satisfiesBinary_mono hl hr (eval_mono h l) (eval_mono h r) op

end Evaluation

section Refinement

variable {a b : Env Interval} {x : String} {op : BinaryOp} {u v : Interval} {l r : Expr}

lemma WellFormed.refineVariable_below (ha : a.WellFormed) (x : String) (op : BinaryOp) (u : Interval) :
    Below (Interval.refineVariable a x op u) a := by
  rw [Interval.refineVariable]
  split
  case isTrue => exact .of_isBottom wellFormed_bottom ha rfl
  case isFalse hu =>
    split
    case h_1 s hs => exact .put_left (.refl ha) (Interval.refined_leq (Bool.eq_false_iff.mpr hu) hs)
    case h_2 => exact .refl ha

lemma Below.refineVariable (h : Below a b) (huv : u.leq v = true) (x : String) (op : BinaryOp) :
    Below (Interval.refineVariable a x op u) (Interval.refineVariable b x op v) := by
  have hself := h.left.refineVariable_below x op u
  have hright := h.right.refineVariable x op v
  cases hu : u.isEmpty with
  | true => exact of_isBottom hself.left hright (by simp [Interval.refineVariable, hu])
  | false =>
    have hv := Interval.nonempty_of_leq huv hu
    cases ha : a.isBottom with
    | true => exact of_isBottom hself.left hright (isBottom_of_leq hself.le ha)
    | false =>
      cases hr : Interval.refined? op (b.get x) v with
      | none =>
        have hb : Interval.refineVariable b x op v = b := by simp [Interval.refineVariable, hv, hr]
        rw [hb]
        exact hself.trans h
      | some t =>
        have hx := (Interval.ne_empty_iff _).mp (get_ne_bottom ha x)
        obtain ⟨s, hs, hst⟩ := Interval.refined_mono hx hu (h.get x) huv hr
        simp only [Interval.refineVariable, hu, hv, hs, hr]
        exact h.put hst x

lemma WellFormed.below_refineVariable (ha : a.WellFormed) (har : a.isBottom = false) (hu : u.isEmpty = false)
    (ho : op.isComparison = true) (hs : Interval.satisfiesBinary op (a.get x) u = .satisfied) :
    Below a (Interval.refineVariable a x op u) := by
  have hx := (Interval.ne_empty_iff _).mp (get_ne_bottom har x)
  simp only [Interval.refineVariable, hu]
  cases hr : Interval.refined? op (a.get x) u with
  | none => exact .refl ha
  | some t => exact .put_right ha har (Interval.leq_refined hx hu ho hs hr)

lemma WellFormed.refineLeft_below (ha : a.WellFormed) (op : BinaryOp) (l r : Expr) :
    Below (Interval.refineLeft a op l r) a := by
  simp only [Interval.refineLeft]
  split
  · exact ha.refineVariable_below _ op _
  · exact .refl ha

lemma Below.refineLeft (h : Below a b) (op : BinaryOp) (l r : Expr) :
    Below (Interval.refineLeft a op l r) (Interval.refineLeft b op l r) := by
  simp only [Interval.refineLeft]
  split
  · exact h.refineVariable (eval_mono h r) _ op
  · exact h

lemma WellFormed.assumeBinary_below (ha : a.WellFormed) (op : BinaryOp) (l r : Expr) :
    Below (Interval.assumeBinary a op l r) a := by
  have hleft := ha.refineLeft_below op l r
  simp only [Interval.assumeBinary]
  split
  · split
    · exact (hleft.left.refineVariable_below _ _ _).trans hleft
    · exact hleft
  · exact .refl ha

lemma Below.assumeBinary (h : Below a b) (op : BinaryOp) (l r : Expr) :
    Below (Interval.assumeBinary a op l r) (Interval.assumeBinary b op l r) := by
  simp only [Interval.assumeBinary]
  split
  · split
    · exact (h.refineLeft op l _).refineVariable (eval_mono h l) _ _
    · exact h.refineLeft op l r
  · exact h

lemma nonempty_of_decideBinary (h : a.decideBinary op l r ≠ .bottom) :
    a.isBottom = false ∧ (a.eval l).isEmpty = false ∧ (a.eval r).isEmpty = false := by
  rw [decideBinary] at h
  split at h
  case isTrue => exact absurd rfl h
  case isFalse hne =>
    simp only [AbstractDomain.isBottom, Bool.or_eq_true, not_or, Bool.not_eq_true] at hne
    refine ⟨?_, hne⟩
    cases ha : a.isBottom with
    | false => rfl
    | true =>
      have hl := hne.1
      simp only [eval, ha] at hl
      cases hl

lemma decideBinary_of_nonempty (hl : (a.eval l).isEmpty = false) (hr : (a.eval r).isEmpty = false) :
    a.decideBinary op l r = Interval.satisfiesBinary op (a.eval l) (a.eval r) := by
  have hbl : AbstractDomain.isBottom (a.eval l) = false := hl
  have hbr : AbstractDomain.isBottom (a.eval r) = false := hr
  rw [decideBinary, hbl, hbr]
  rfl

lemma reachable_of_decideBinary (h : a.decideBinary op l r = .satisfied) :
    a.isBottom = false ∧ (a.eval l).isEmpty = false ∧ (a.eval r).isEmpty = false ∧
      Interval.satisfiesBinary op (a.eval l) (a.eval r) = .satisfied := by
  have hne : a.decideBinary op l r ≠ .bottom := by
    rw [h]
    exact Satisfiability.noConfusion
  obtain ⟨ha, hl, hr⟩ := nonempty_of_decideBinary hne
  rw [decideBinary_of_nonempty hl hr] at h
  exact ⟨ha, hl, hr, h⟩

lemma WellFormed.below_assumeBinary (ha : a.WellFormed) (h : a.decideBinary op l r = .satisfied) :
    Below a (Interval.assumeBinary a op l r) := by
  obtain ⟨har, hl, hr, hs⟩ := reachable_of_decideBinary h
  have heval (x : Identifier) : a.eval (.identifier x) = a.get x.name := by simp only [eval, har]; rfl
  simp only [Interval.assumeBinary]
  split
  case isTrue ho =>
    have hleft : Below a (Interval.refineLeft a op l r) := by
      simp only [Interval.refineLeft]
      split
      case h_1 x =>
        rw [heval] at hs
        exact ha.below_refineVariable har hr ho hs
      case h_2 => exact .refl ha
    split
    case h_1 y =>
      rw [heval] at hr hs
      have hswap := (Interval.satisfiesBinary_swapped hl hr ho).trans hs
      have hright := ha.below_refineVariable har hl (op.isComparison_swapped.trans ho) hswap
      exact hright.trans (hleft.refineVariable (Interval.leq_refl _) _ _)
    case h_2 => exact hleft
  case isFalse => exact .refl ha

lemma WellFormed.collapse_eq (ha : a.WellFormed) : a.collapse = a := by
  simp [Env.collapse, ha.isBottom_eq]

lemma WellFormed.refine_below_assumeBinary (ha : a.WellFormed) (op : BinaryOp) (l r : Expr) :
    Below (a.refine op l r) (Interval.assumeBinary a op l r) := by
  have hassume := ha.assumeBinary op l r
  rw [Env.refine]
  split
  case h_1 => exact .of_isBottom wellFormed_bottom hassume rfl
  case h_2 => exact .of_isBottom wellFormed_bottom hassume rfl
  case h_3 hs => exact ha.below_assumeBinary hs
  case h_4 =>
    change Below (Interval.assumeBinary a op l r).collapse _
    rw [hassume.collapse_eq]
    exact .refl hassume

lemma WellFormed.refine_below (ha : a.WellFormed) (op : BinaryOp) (l r : Expr) : Below (a.refine op l r) a :=
  (ha.refine_below_assumeBinary op l r).trans (ha.assumeBinary_below op l r)

lemma Below.refine (h : Below a b) (op : BinaryOp) (l r : Expr) : Below (a.refine op l r) (b.refine op l r) := by
  have hleft := h.left.refine_below op l r
  have hright := h.right.refine_below op l r
  rcases Satisfiability.join_eq_right_iff.mp (decideBinary_mono h op l r) with ha | hb | hab
  · have hbottom : a.refine op l r = .bottom := by simp [Env.refine, ha]
    exact of_isBottom hleft.left hright.left (by simp [hbottom])
  · have hassume : b.refine op l r = Interval.assumeBinary b op l r := by
      simp only [Env.refine, hb]
      exact (h.right.assumeBinary op l r).collapse_eq
    rw [hassume]
    exact (h.left.refine_below_assumeBinary op l r).trans (h.assumeBinary op l r)
  · simp only [Env.refine, hab]
    split
    · exact .refl wellFormed_bottom
    · exact .refl wellFormed_bottom
    · exact h
    · change Below (Interval.assumeBinary a op l r).collapse (Interval.assumeBinary b op l r).collapse
      rw [(h.left.assumeBinary op l r).collapse_eq, (h.right.assumeBinary op l r).collapse_eq]
      exact h.assumeBinary op l r

lemma Below.assume (h : Below a b) (e : Expr) : Below (a.assume e) (b.assume e) :=
  below_restrict (fun op l r h => h.refine op l r) h e

lemma WellFormed.assume_below (ha : a.WellFormed) (e : Expr) : Below (a.assume e) a :=
  restrict_below (fun op l r ha => ha.refine_below op l r) ha e

end Refinement

end Env

end ValueAnalysis
