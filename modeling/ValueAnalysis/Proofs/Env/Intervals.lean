import ValueAnalysis.Proofs.Env.Transfer
import ValueAnalysis.Proofs.Interval.Domain

namespace ValueAnalysis

lemma Store.set_eq_self (s : Store) (x : String) : s.set x (s x) = s := by
  funext y
  by_cases h : y = x
  · subst h
    exact Store.set_self s y (s y)
  · exact Store.set_ne s (s x) h

lemma BinaryOp.holds_swapped (op : BinaryOp) (m n : Int) : op.swapped.holds n m = op.holds m n := by
  cases op <;> simp [BinaryOp.swapped, BinaryOp.holds, eq_comm]

namespace Env

open AbstractDomain (bottom)

variable {a b env : Env Interval} {s : Store}

lemma Models.isBottom (h : env.Models s) : env.isBottom = false := by
  have hne : ∀ x, env.get x ≠ bottom := fun x => (Interval.ne_empty_iff _).mpr (Interval.nonempty_of_mem (h x))
  refine isBottom_eq_false_iff.mpr ⟨?_, hne⟩
  cases hu : env.unreachable with
  | false => rfl
  | true => exact absurd (get_of_unreachable hu "") (hne "")

lemma Models.reachable (h : env.Models s) : env.unreachable = false := reachable_of_isBottom h.isBottom

lemma Models.put (h : env.Models s) (x : String) {v : Interval} {n : Int} (hn : n ∈ v) :
    (env.put x v).Models (s.set x n) := by
  intro z
  have hv : v ≠ bottom := (Interval.ne_empty_iff v).mpr (Interval.nonempty_of_mem hn)
  rw [get_put_of_ne_bottom h.reachable hv]
  by_cases hz : z = x
  · rw [if_pos hz, hz, Store.set_self]
    exact hn
  · rw [if_neg hz, Store.set_ne s n hz]
    exact h z

lemma Models.put_self (h : env.Models s) {x : String} {v : Interval} (hx : s x ∈ v) :
    (env.put x v).Models s := by
  have hput := h.put x hx
  rwa [Store.set_eq_self] at hput

lemma Models.forget (h : env.Models s) (x : String) (n : Int) : (env.forget x).Models (s.set x n) := by
  intro z
  rw [get_forget h.reachable]
  by_cases hz : z = x
  · rw [if_pos hz]
    exact Interval.mem_all _
  · rw [if_neg hz, Store.set_ne s n hz]
    exact h z

lemma Models.meet (ha : a.Models s) (hb : b.Models s) : (a.meet b).Models s := by
  have hmem (x : String) : s x ∈ (a.get x).meet (b.get x) := Interval.mem_meet (ha x) (hb x)
  have hreach : (a.meet b).isBottom = false := (isBottom_meet_iff ha.isBottom hb.isBottom).mpr fun x =>
    (Interval.ne_empty_iff _).mpr (Interval.nonempty_of_mem (hmem x))
  intro x
  rw [get_meet ha.isBottom hb.isBottom hreach]
  exact hmem x

lemma Models.join_left (h : a.Models s) (b : Env Interval) : (a.join b).Models s := by
  cases hb : b.isBottom with
  | true => rwa [join_of_isBottom_right h.isBottom hb]
  | false =>
    intro x
    rw [get_join h.isBottom hb]
    exact Interval.mem_join_left _ (h x)

lemma Models.join_right (a : Env Interval) (h : b.Models s) : (a.join b).Models s := by
  cases ha : a.isBottom with
  | true => rwa [join_of_isBottom_left ha]
  | false =>
    intro x
    rw [get_join ha h.isBottom]
    exact Interval.mem_join_right _ (h x)

lemma Models.widen_right (a : Env Interval) (h : b.Models s) : (a.widen b).Models s := by
  cases ha : a.isBottom with
  | true => rwa [widen_of_isBottom_left ha]
  | false =>
    intro x
    rw [get_widen ha h.isBottom]
    exact Interval.mem_widen_right _ (h x)

lemma Models.of_leq (h : a.Models s) (hle : a.leq b = true) : b.Models s := by
  simp only [Env.leq, h.isBottom, Bool.false_eq_true, if_false] at hle
  cases hb : b.isBottom with
  | true => simp [hb] at hle
  | false =>
    simp only [hb, Bool.false_eq_true, if_false, List.all_eq_true] at hle
    apply (forall_get_iff (P := fun x v => s x ∈ v) (reachable_of_isBottom hb)
      fun x => Interval.mem_all (s x)).mpr
    intro e he
    exact Interval.mem_of_leq (h e.1) (hle e he)

lemma isBottom_of_mem {v : Interval} {n : Int} (h : n ∈ v) : AbstractDomain.isBottom v = false :=
  Interval.nonempty_of_mem h

lemma evalNode_sound (h : env.Models s) {e : Expr} {n : Int} (he : Evaluates s e n) : n ∈ env.evalNode e := by
  induction he with
  | literal n loc => exact Interval.mem_singleton.mpr rfl
  | constant v loc n hv =>
    have hall : Interval.evalConstant v = .all := by simp [Interval.evalConstant, hv]
    change n ∈ Interval.evalConstant v
    rw [hall]
    exact Interval.mem_all n
  | identifier x => exact h x.name
  | unknown loc n => exact Interval.mem_all n
  | negation loc _ ih =>
    simp only [evalNode, isBottom_of_mem ih]
    exact Interval.mem_negate ih
  | stringLength loc n _ hn ih =>
    simp only [evalNode, isBottom_of_mem ih]
    exact Interval.mem_atLeast.mpr ((ExtInt.fin_le_fin 0 n).mpr hn)
  | unary op loc n _ hneg hlen ih =>
    simp only [evalNode, isBottom_of_mem ih]
    cases op with
    | negation => exact absurd rfl hneg
    | stringLength => exact absurd rfl hlen
    | logicalNot => exact Interval.mem_all n
    | bitwiseNot => exact Interval.mem_all n
  | add loc _ _ ihl ihr =>
    simp only [evalNode, isBottom_of_mem ihl, isBottom_of_mem ihr]
    exact Interval.mem_evalBinary_add ihl ihr
  | sub loc _ _ ihl ihr =>
    simp only [evalNode, isBottom_of_mem ihl, isBottom_of_mem ihr]
    exact Interval.mem_evalBinary_sub ihl ihr
  | mul loc _ _ ihl ihr =>
    simp only [evalNode, isBottom_of_mem ihl, isBottom_of_mem ihr]
    exact Interval.mem_evalBinary_mul ihl ihr
  | div loc _ _ hn ihl ihr =>
    simp only [evalNode, isBottom_of_mem ihl, isBottom_of_mem ihr]
    exact Interval.mem_evalBinary_div ihl ihr hn
  | @binary l r m n op loc k _ _ ho ihl ihr =>
    simp only [evalNode, isBottom_of_mem ihl, isBottom_of_mem ihr]
    change k ∈ Interval.evalBinary op (env.evalNode l) (env.evalNode r)
    rw [Interval.evalBinary_other ho]
    exact Interval.mem_all k
  | ternary op loc i _ _ _ ihl ihe ihr =>
    simp only [evalNode, isBottom_of_mem ihl, isBottom_of_mem ihe, isBottom_of_mem ihr]
    exact Interval.mem_all i

lemma eval_sound (h : env.Models s) {e : Expr} {n : Int} (he : Evaluates s e n) : n ∈ env.eval e := by
  simp only [eval, h.isBottom]
  exact evalNode_sound h he

lemma Models.assign (h : env.Models s) {e : Expr} {n : Int} (x : Identifier) (he : Evaluates s e n) :
    (env.assign x e).Models (s.set x.name n) := by
  simp only [Env.assign, h.isBottom]
  exact h.put x.name (eval_sound h he)

lemma decideBinary_sound (h : env.Models s) : Condition.DecidesSoundly s env.decideBinary where
  comparison ho hl hr := by
    have hm := eval_sound h hl
    have hn := eval_sound h hr
    simp only [decideBinary, isBottom_of_mem hm, isBottom_of_mem hn]
    exact Interval.satisfiesBinary_admits ho hm hn
  other ho hl hr := by
    have hm := eval_sound h hl
    have hn := eval_sound h hr
    simp only [decideBinary, isBottom_of_mem hm, isBottom_of_mem hn]
    exact Interval.satisfiesBinary_other ho _ _

lemma refineVariable_models (h : env.Models s) {x : String} {op : BinaryOp} {bound : Interval} {n : Int}
    (hn : n ∈ bound) (ho : op.holds (s x) n = true) : (Interval.refineVariable env x op bound).Models s := by
  simp only [Interval.refineVariable, Interval.nonempty_of_mem hn]
  cases hr : Interval.refined? op (env.get x) bound with
  | none => exact h
  | some v => exact h.put_self (Interval.mem_refined (h x) hn ho hr)

lemma refineLeft_models (h : env.Models s) {op : BinaryOp} {l r : Expr} {m n : Int} (hl : Evaluates s l m)
    (hr : Evaluates s r n) (ho : op.holds m n = true) : (Interval.refineLeft env op l r).Models s := by
  cases hl with
  | identifier x => exact refineVariable_models h (eval_sound h hr) ho
  | _ => exact h

lemma assumeBinary_models (h : env.Models s) {op : BinaryOp} {l r : Expr} {m n : Int} (hl : Evaluates s l m)
    (hr : Evaluates s r n) (ho : op.holds m n = true) : (Interval.assumeBinary env op l r).Models s := by
  have hleft := refineLeft_models h hl hr ho
  simp only [Interval.assumeBinary]
  split
  · cases hr with
    | identifier y =>
      refine refineVariable_models hleft (eval_sound h hl) ?_
      rwa [BinaryOp.holds_swapped]
    | _ => exact hleft
  · exact h

lemma Models.collapse (h : env.Models s) : env.collapse.Models s := by
  simpa [Env.collapse, h.isBottom] using h

lemma refine_sound : Condition.RefinesSoundly Env.Models (Env.refine (L := Interval)) where
  join_left b h := h.join_left b
  join_right a h := h.join_right a
  comparison {a s op l r m n} h ho hl hr hholds := by
    have hadmits := (decideBinary_sound h).comparison ho hl hr
    rw [hholds, Satisfiability.admits_iff] at hadmits
    rw [Env.refine]
    rcases hadmits with hd | hd
    · rw [hd]
      exact (assumeBinary_models h hl hr hholds).collapse
    · rw [hd]
      exact h
  other {a s op l r m n} h ho hl hr := by
    have hd := (decideBinary_sound h).other ho hl hr
    have hassume : ValueDomain.assumeBinary a op l r = a := by
      change Interval.assumeBinary a op l r = a
      simp [Interval.assumeBinary, ho]
    rw [Env.refine]
    rw [hd, hassume]
    exact h.collapse

lemma Models.assume (h : env.Models s) {lazy : Bool} {e : Expr} (he : Truth lazy s e true) :
    (env.assume e).Models s :=
  Condition.restrict_sound refine_sound env e he h

lemma satisfies_admits (h : env.Models s) {e : Expr} {b : Bool} (he : Truth false s e b) :
    (env.satisfies e).Admits b := by
  simp only [Env.satisfies, h.isBottom]
  exact Condition.answer_admits (decideBinary_sound h) he

namespace WellFormed

lemma refineVariable (h : env.WellFormed) (x : String) (op : BinaryOp) (bound : Interval) :
    (Interval.refineVariable env x op bound).WellFormed := by
  rw [Interval.refineVariable]
  split
  · exact wellFormed_bottom
  · split
    · exact h.put x _
    · exact h

lemma refineLeft (h : env.WellFormed) (op : BinaryOp) (l r : Expr) :
    (Interval.refineLeft env op l r).WellFormed := by
  simp only [Interval.refineLeft]
  split
  · exact h.refineVariable _ op _
  · exact h

lemma assumeBinary (h : env.WellFormed) (op : BinaryOp) (l r : Expr) :
    (Interval.assumeBinary env op l r).WellFormed := by
  simp only [Interval.assumeBinary]
  split
  · split
    · exact (h.refineLeft op l _).refineVariable _ _ _
    · exact h.refineLeft op l r
  · exact h

end WellFormed

lemma refinesCanonically_interval : RefinesCanonically Interval := fun _ op l r h => h.assumeBinary op l r

lemma WellFormed.assume (h : env.WellFormed) (e : Expr) : (env.assume e).WellFormed :=
  refinesCanonically_interval.assume h e

end Env

end ValueAnalysis
