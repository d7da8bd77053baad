import ValueAnalysis.Proofs.Complement
import ValueAnalysis.Proofs.Env.Comparison
import ValueAnalysis.Proofs.Pentagon.Monotone

/-! Conditions read from right to left. An interval environment refines the left variable of a comparison before the
right one, but holds both against the values of the environment it started from, so the stores that are left do not
depend on the order; this includes a variable that is compared with itself. -/

namespace ValueAnalysis

lemma BinaryOp.negated_swapped (op : BinaryOp) : op.swapped.negated? = op.negated?.map BinaryOp.swapped := by
  cases op <;> rfl

namespace Expr

def mirror : Expr → Expr
  | unary .logicalNot e loc => unary .logicalNot e.mirror loc
  | binary .logicalAnd l r loc => binary .logicalAnd l.mirror r.mirror loc
  | binary .logicalOr l r loc => binary .logicalOr l.mirror r.mirror loc
  | binary op l r loc => if op.isComparison then binary op.swapped r l loc else binary op l r loc
  | e => e

lemma mirror_binary {op : BinaryOp} (hand : op ≠ .logicalAnd) (hor : op ≠ .logicalOr) (l r : Expr) (loc : Value) :
    (binary op l r loc).mirror = if op.isComparison then binary op.swapped r l loc else binary op l r loc := by
  cases op with
  | logicalAnd => exact absurd rfl hand
  | logicalOr => exact absurd rfl hor
  | _ => rfl

lemma mirror_comparison {op : BinaryOp} (ho : op.isComparison = true) (l r : Expr) (loc : Value) :
    (binary op l r loc).mirror = binary op.swapped r l loc := by
  obtain ⟨hand, hor⟩ := BinaryOp.ne_connective ho
  rw [mirror_binary hand hor, if_pos ho]

lemma mirror_atom {e : Expr} (h : e.isAtom = true) : e.mirror = e := by
  cases e with
  | unary op a loc => cases op <;> simp_all [isAtom, mirror]
  | binary op l r loc => cases op <;> simp_all [isAtom, mirror, BinaryOp.isComparison]
  | _ => rfl

lemma mirror_mirror (e : Expr) : e.mirror.mirror = e := by
  induction e using condition_induction with
  | literal b loc => rfl
  | negation a loc ih =>
    simp only [mirror]
    rw [ih]
  | conjunction l r loc ihl ihr =>
    simp only [mirror]
    rw [ihl, ihr]
  | disjunction l r loc ihl ihr =>
    simp only [mirror]
    rw [ihl, ihr]
  | comparison op l r loc ho =>
    rw [mirror_comparison ho, mirror_comparison (op.isComparison_swapped.trans ho), op.swapped_swapped]
  | atom e he => rw [mirror_atom he, mirror_atom he]

lemma isNegation_mirror (e : Expr) : e.mirror.isNegation = e.isNegation := by
  induction e using condition_induction with
  | comparison op l r loc ho =>
    rw [mirror_comparison ho]
    rfl
  | atom e he => rw [mirror_atom he]
  | _ => rfl

lemma negate_mirror (e : Expr) : e.mirror.negate = e.negate.mirror := by
  induction e using condition_induction with
  | literal b loc => rfl
  | negation a loc => simp only [mirror, negate]
  | conjunction l r loc ihl ihr =>
    simp only [mirror, negate]
    rw [ihl, ihr]
  | disjunction l r loc ihl ihr =>
    simp only [mirror, negate]
    rw [ihl, ihr]
  | comparison op l r loc ho =>
    obtain ⟨op', hop, he⟩ := negate_comparison ho l r loc
    obtain ⟨op'', hop', he'⟩ := negate_comparison (op.isComparison_swapped.trans ho) r l loc
    rw [BinaryOp.negated_swapped, hop] at hop'
    obtain rfl := Option.some.inj hop'
    rw [mirror_comparison ho, he, he', mirror_comparison (BinaryOp.isComparison_of_negated hop).2]
  | atom e he =>
    rw [mirror_atom he, negate_atom he]
    simp only [mirror]
    rw [mirror_atom he]

end Expr

lemma Condition.answer_mirror {decide : BinaryOp → Expr → Expr → Satisfiability}
    (hswap : ∀ {op : BinaryOp} l r, op.isComparison = true → decide op.swapped r l = decide op l r) (e : Expr) :
    answer decide e.mirror = answer decide e := by
  induction e using Expr.condition_induction with
  | literal b loc => rfl
  | negation a loc ih =>
    simp only [Expr.mirror, answer]
    rw [ih]
  | conjunction l r loc ihl ihr =>
    simp only [Expr.mirror, answer]
    rw [ihl, ihr]
  | disjunction l r loc ihl ihr =>
    simp only [Expr.mirror, answer]
    rw [ihl, ihr]
  | comparison op l r loc ho =>
    rw [Expr.mirror_comparison ho, answer_comparison ho, answer_comparison (op.isComparison_swapped.trans ho)]
    exact hswap l r ho
  | atom e he => rw [Expr.mirror_atom he]

namespace Env

section Restrict

variable {L : Type} [AbstractDomain L] [LatticeDomain L] {refine : Env L → BinaryOp → Expr → Expr → Env L}
variable (hmono : ∀ {a b : Env L} op l r, Below a b → Below (refine a op l r) (refine b op l r))
variable (hswap : ∀ {a : Env L} {op} l r, a.WellFormed → op.isComparison = true →
  Below (refine a op.swapped r l) (refine a op l r))
include hmono hswap

lemma restrict_mirror_below {a : Env L} (ha : a.WellFormed) (e : Expr) :
    Below (Condition.restrict refine a e.mirror) (Condition.restrict refine a e) := by
  fun_induction Condition.restrict refine a e with
  | case1 a e hb =>
    rw [Condition.restrict_of_isBottom hb]
    exact .refl ha
  | case2 a hb loc =>
    simp only [Expr.mirror]
    rw [Condition.restrict, if_neg hb]
    exact .refl ha
  | case3 a hb loc =>
    simp only [Expr.mirror]
    rw [Condition.restrict, if_neg hb]
    exact .refl wellFormed_bottom
  | case4 a hb c loc hn =>
    rw [Expr.mirror, Condition.restrict_not, Expr.negate_mirror, Expr.isNegation_mirror, if_pos hn]
    exact .refl ha
  | case5 a hb c loc hn hw ih =>
    rw [Expr.mirror, Condition.restrict_not, Expr.negate_mirror, Expr.isNegation_mirror, if_neg hn]
    exact ih ha
  | case6 a hb l r loc ihl ihr =>
    rw [Expr.mirror, Condition.restrict_and]
    have hl := ihl ha
    exact (below_restrict hmono hl r.mirror).trans (ihr hl.right)
  | case7 a hb l r loc ihl ihr =>
    rw [Expr.mirror, Condition.restrict, if_neg hb]
    exact (ihl ha).join (ihr ha)
  | case8 a hb op l r loc hand hor =>
    rw [Expr.mirror_binary hand hor]
    cases ho : op.isComparison with
    | true =>
      rw [if_pos rfl, Condition.restrict_comparison (Bool.eq_false_iff.mpr hb) (op.isComparison_swapped.trans ho)]
      exact hswap l r ha ho
    | false =>
      rw [if_neg Bool.false_ne_true, Condition.restrict, if_neg hb]
      · exact hmono op l r (.refl ha)
      · exact hand
      · exact hor
  | case9 a e hb htrue hfalse hnot _ _ hbinary =>
    have hself : e.mirror = e := by
      cases e with
      | unary op c loc =>
        cases op with
        | logicalNot => exact (hnot c loc rfl).elim
        | _ => rfl
      | binary op l r loc => exact (hbinary op l r loc rfl).elim
      | _ => rfl
    rw [hself, Condition.restrict, if_neg hb]
    · exact .refl ha
    all_goals assumption

lemma same_restrict_mirror [DecidableEq L] {a : Env L} (ha : a.WellFormed) (e : Expr) :
    (Condition.restrict refine a e.mirror).same (Condition.restrict refine a e) = true := by
  have hbelow := restrict_mirror_below hmono hswap ha e
  have habove := restrict_mirror_below hmono hswap ha e.mirror
  rw [Expr.mirror_mirror] at habove
  exact hbelow.left.same_of_leq hbelow.right hbelow.le habove.le

end Restrict

variable {env : Env Interval} {s : Store} {op : BinaryOp} {l r : Expr}

lemma decideBinary_swapped (ho : op.isComparison = true) (env : Env Interval) (l r : Expr) :
    env.decideBinary op.swapped r l = env.decideBinary op l r := by
  simp only [decideBinary]
  rw [Bool.or_comm]
  split
  case isTrue => rfl
  case isFalse hne =>
    rw [Bool.or_eq_true, not_or, Bool.not_eq_true, Bool.not_eq_true] at hne
    exact Interval.satisfiesBinary_swapped hne.1 hne.2 ho

lemma models_assumeBinary_iff (ho : op.isComparison = true) (hne : op ≠ .ne) :
    (Interval.assumeBinary env op l r).Models s ↔ env.Models s ∧
      (∀ x : Identifier, l = .identifier x → ∃ k ∈ env.eval r, op.holds (s x.name) k = true) ∧
      ∀ y : Identifier, r = .identifier y → ∃ k ∈ env.eval l, op.holds k (s y.name) = true := by
  constructor
  · intro h
    have hmem (v : String) := mem_of_mem_assumeBinary ho hne (h v)
    exact ⟨fun v => (hmem v).1, fun x hx => (hmem x.name).2.1 x hx rfl, fun y hy => (hmem y.name).2.2 y hy rfl⟩
  · rintro ⟨h, hl, hr⟩
    have hleft : (Interval.refineLeft env op l r).Models s := by
      cases l with
      | identifier x =>
        obtain ⟨k, hk, hholds⟩ := hl x rfl
        exact refineVariable_models h hk hholds
      | _ => exact h
    simp only [Interval.assumeBinary, ho, if_true]
    cases r with
    | identifier y =>
      obtain ⟨k, hk, hholds⟩ := hr y rfl
      apply refineVariable_models hleft hk
      rwa [BinaryOp.holds_swapped]
    | _ => exact hleft

lemma refineVariable_ne {x : String} {bound : Interval} (hx : (env.get x).isEmpty = false)
    (hb : bound.isEmpty = false) (h : Interval.satisfiesBinary .ne (env.get x) bound ≠ .notSatisfied) :
    Interval.refineVariable env x .ne bound = env := by
  have hdecides := Interval.decides_satisfiesBinary hx hb (rfl : BinaryOp.ne.isComparison = true)
  have hdiffer : ¬ ((env.get x).isSingleton && env.get x == bound) = true := by
    intro hsame
    apply h
    apply hdecides.notSatisfied_iff.mpr
    intro m hm n hn
    rw [(Interval.isSingleton_eq_iff hx hb).mp hsame m hm n hn]
    simp [BinaryOp.holds]
  simp only [Interval.refineVariable, Interval.refined?, hb, hdiffer]
  rfl

lemma assumeBinary_ne (h : env.decideBinary .ne l r = .unknown) : Interval.assumeBinary env .ne l r = env := by
  have hreach : env.decideBinary .ne l r ≠ .bottom := by
    rw [h]
    exact Satisfiability.noConfusion
  obtain ⟨henv, hl, hr⟩ := nonempty_of_decideBinary hreach
  have hopen : Interval.satisfiesBinary .ne (env.eval l) (env.eval r) ≠ .notSatisfied := by
    rw [← decideBinary_of_nonempty hl hr, h]
    exact Satisfiability.noConfusion
  have hleft : Interval.refineLeft env .ne l r = env := by
    cases l with
    | identifier x =>
      rw [eval_identifier henv] at hl hopen
      exact refineVariable_ne hl hr hopen
    | _ => rfl
  cases r with
  | identifier y =>
    rw [← Interval.satisfiesBinary_swapped hl hr rfl] at hopen
    rw [eval_identifier henv] at hr hopen
    change Interval.refineVariable (Interval.refineLeft env .ne l (.identifier y)) y.name .ne (env.eval l) = env
    rw [hleft]
    exact refineVariable_ne hr hl hopen
  | _ => exact hleft

lemma stores_assumeBinary_swapped (h : env.WellFormed) (ho : op.isComparison = true)
    (hd : env.decideBinary op l r = .unknown) :
    (Interval.assumeBinary env op.swapped r l).stores ⊆ (Interval.assumeBinary env op l r).stores := by
  intro s hs
  by_cases hne : op = .ne
  · subst hne
    rw [assumeBinary_ne hd]
    exact Models.of_leq hs (h.assumeBinary_below _ r l).le
  · obtain ⟨henv, hr, hl⟩ :=
      (models_assumeBinary_iff (op.isComparison_swapped.trans ho) (BinaryOp.swapped_ne_ne hne)).mp hs
    simp only [BinaryOp.holds_swapped] at hr hl
    exact (models_assumeBinary_iff ho hne).mpr ⟨henv, hl, hr⟩

namespace WellFormed

variable (h : env.WellFormed)
include h

lemma refine_swapped_below (l r : Expr) (ho : op.isComparison = true) :
    Below (env.refine op.swapped r l) (env.refine op l r) := by
  rw [Env.refine, Env.refine, decideBinary_swapped ho]
  cases hd : env.decideBinary op l r with
  | bottom => exact .refl wellFormed_bottom
  | notSatisfied => exact .refl wellFormed_bottom
  | satisfied => exact .refl h
  | unknown =>
    have hleft := h.assumeBinary op.swapped r l
    have hright := h.assumeBinary op l r
    change Below (Interval.assumeBinary env op.swapped r l).collapse (Interval.assumeBinary env op l r).collapse
    rw [hleft.collapse_eq, hright.collapse_eq]
    exact ⟨hleft, hright, leq_iff_stores.mpr (stores_assumeBinary_swapped h ho hd)⟩

lemma assume_mirror_below (c : Expr) : Below (env.assume c.mirror) (env.assume c) :=
  restrict_mirror_below (fun op l r h => h.refine op l r) (fun l r h => h.refine_swapped_below l r) h c

lemma same_assume_mirror (c : Expr) : (env.assume c.mirror).same (env.assume c) = true :=
  same_restrict_mirror (fun op l r h => h.refine op l r) (fun l r h => h.refine_swapped_below l r) h c

end WellFormed

lemma satisfies_mirror (env : Env Interval) (c : Expr) : env.satisfies c.mirror = env.satisfies c := by
  simp only [satisfies]
  split
  · rfl
  · exact Condition.answer_mirror (fun l r ho => decideBinary_swapped ho env l r) c

end Env

namespace Bounds

open Env (Below)

variable {b : Bounds}

lemma decideBinary_swapped {op : BinaryOp} (ho : op.isComparison = true) (b : Bounds) (l r : Expr) :
    decideBinary b op.swapped r l = decideBinary b op l r := by
  by_cases hid : ∃ x y, l = .identifier x ∧ r = .identifier y
  · obtain ⟨x, y, rfl, rfl⟩ := hid
    cases op <;> rfl
  · rw [decideBinary_of_not_identifiers fun x y h => hid ⟨x, y, h⟩,
      decideBinary_of_not_identifiers fun y x h => hid ⟨x, y, h.symm⟩]

lemma satisfies_mirror (b : Bounds) (c : Expr) : satisfies b c.mirror = satisfies b c := by
  simp only [satisfies]
  split
  · rfl
  · exact Condition.answer_mirror (fun l r ho => decideBinary_swapped ho b l r) c

section Refine

variable (h : b.WellFormed)
include h

lemma refineEq_swapped_below (x y : String) :
    Below ((refineEq? b y x).getD .bottom) ((refineEq? b x y).getD .bottom) := by
  have hleft := refineEq_below h y x
  cases hb : b.isBottom with
  | true => exact .of_isBottom hleft.left (refineEq_below h x y).left (Env.isBottom_of_leq hleft.le hb)
  | false =>
    by_cases hxy : x = y
    · subst hxy
      exact .refl hleft.left
    · have hx := Env.get_ne_bottom hb x
      have hy := Env.get_ne_bottom hb y
      have hcomm : (b.get y).meet (b.get x) = (b.get x).meet (b.get y) := by
        apply BoundSet.ext (BoundSet.meet_ne_unreachable hy hx) (BoundSet.meet_ne_unreachable hx hy)
        intro z
        rw [BoundSet.mem_meet hy hx, BoundSet.mem_meet hx hy, or_comm]
      simp only [refineEq?, hcomm, hxy, Ne.symm hxy, if_false]
      exact below_of_guards (.put_comm h hxy _ _) Or.symm

lemma refine_swapped_below {op : BinaryOp} (l r : Expr) (ho : op.isComparison = true) :
    Below (refine b op.swapped r l) (refine b op l r) := by
  by_cases hid : ∃ x y, l = .identifier x ∧ r = .identifier y
  · obtain ⟨x, y, rfl, rfl⟩ := hid
    have hself (op : BinaryOp) := Below.refl (refine_below h op (.identifier x) (.identifier y)).left
    cases op with
    | eq => exact refineEq_swapped_below h x.name y.name
    | lt => exact hself .lt
    | gt => exact hself .gt
    | le => exact hself .le
    | ge => exact hself .ge
    | ne => exact hself .ne
    | _ => cases ho
  · rw [refine_of_not_identifiers fun x y h => hid ⟨x, y, h⟩,
      refine_of_not_identifiers fun y x h => hid ⟨x, y, h.symm⟩]
    exact .refl h

lemma assume_mirror_below (c : Expr) : Below (Bounds.assume b c.mirror) (Bounds.assume b c) :=
  Env.restrict_mirror_below (fun op l r h => below_refine h op l r) (fun l r h => refine_swapped_below h l r) h c

lemma same_assume_mirror (c : Expr) : Env.same (Bounds.assume b c.mirror) (Bounds.assume b c) = true :=
  Env.same_restrict_mirror (fun op l r h => below_refine h op l r) (fun l r h => refine_swapped_below h l r) h c

end Refine

end Bounds

namespace Pentagon.WellFormed

variable {p : Pentagon} (h : p.WellFormed)
include h

lemma assume_mirror_leq (c : Expr) : (p.assume c.mirror).leq (p.assume c) = true := by
  cases hb : p.isBottom with
  | true => exact (h.assume c.mirror).leq_of_isBottom (by simp [Pentagon.assume, hb]) _
  | false =>
    simp only [Pentagon.assume, hb, Bool.false_eq_true, if_false]
    apply (h.assumeOpen c.mirror).closure_leq_closure (h.assumeOpen c)
    exact make_leq_make (Bounds.assume_mirror_below h.1 c) (h.2.1.assume_mirror_below c)

lemma same_assume_mirror (c : Expr) : (p.assume c.mirror).same (p.assume c) = true := by
  have habove := h.assume_mirror_leq c.mirror
  rw [Expr.mirror_mirror] at habove
  exact (h.isClosed_assume c.mirror).leq_antisymm (h.isClosed_assume c) (h.assume_mirror_leq c) habove

end Pentagon.WellFormed

theorem mirrored_condition_equivalent (c : Expr) :
    (∀ env : Env Interval, env.WellFormed →
      env.satisfies c.mirror = env.satisfies c ∧ (env.assume c.mirror).same (env.assume c) = true) ∧
    (∀ b : Bounds, b.WellFormed →
      Bounds.satisfies b c.mirror = Bounds.satisfies b c ∧
        Env.same (Bounds.assume b c.mirror) (Bounds.assume b c) = true) ∧
    ∀ p : Pentagon, p.WellFormed →
      p.satisfies c.mirror = p.satisfies c ∧ (p.assume c.mirror).same (p.assume c) = true := by
  refine ⟨fun env h => ⟨env.satisfies_mirror c, h.same_assume_mirror c⟩,
    fun b h => ⟨Bounds.satisfies_mirror b c, Bounds.same_assume_mirror h c⟩,
    fun p h => ⟨?_, h.same_assume_mirror c⟩⟩
  rw [Pentagon.satisfies, Pentagon.satisfies, Env.satisfies_mirror, Bounds.satisfies_mirror]

/-- `¬(y ≤ x ∨ z ≠ y)` against `¬(x ≥ y ∨ y ≠ z)`, in states that both of them sharpen. -/
theorem mirrored_condition_equivalent_alternatives :
    let x : Expr := .identifier ⟨"x", ∅, .null⟩
    let y : Expr := .identifier ⟨"y", ∅, .null⟩
    let z : Expr := .identifier ⟨"z", ∅, .null⟩
    let neither (l r : Expr) : Expr := .unary .logicalNot (.binary .logicalOr l r .null) .null
    let c := neither (.binary .le y x .null) (.binary .ne z y .null)
    let d := neither (.binary .ge x y .null) (.binary .ne y z .null)
    let env : Env Interval :=
      ⟨.ofList [("x", .ofBounds (.fin 0) .posInf), ("y", .ofBounds (.fin 3) (.fin 5)), ("z", .atLeast (.fin 4))], false⟩
    let b : Bounds := ⟨.ofList [("y", .above (.ofList ["w"]))], false⟩
    let p : Pentagon := ⟨b, env⟩
    (env.WellFormed ∧ b.WellFormed ∧ p.WellFormed) ∧
      ((env.assume c).same env = false ∧ Env.same (Bounds.assume b c) b = false ∧ (p.assume c).same p = false) ∧
      (env.satisfies d = env.satisfies c ∧ (env.assume d).same (env.assume c) = true) ∧
      (Bounds.satisfies b d = Bounds.satisfies b c ∧ Env.same (Bounds.assume b d) (Bounds.assume b c) = true) ∧
      p.satisfies d = p.satisfies c ∧ (p.assume d).same (p.assume c) = true := by
  intro x y z neither c d env b p
  have hwf : env.WellFormed ∧ b.WellFormed ∧ p.WellFormed := by decide
  have hmirror : c.mirror = d := rfl
  obtain ⟨henv, hb, hp⟩ := mirrored_condition_equivalent c
  rw [← hmirror]
  refine ⟨hwf, ⟨?_, ?_, ?_⟩, henv env hwf.1, hb b hwf.2.1, hp p hwf.2.2⟩
  · decide +kernel
  · decide +kernel
  · decide +kernel

end ValueAnalysis
