import ValueAnalysis.Proofs.Bounds.Monotone
import ValueAnalysis.Proofs.Complement
import ValueAnalysis.Proofs.Negation

/-! Conditions that a state decides. Assuming a condition that the state refutes leaves nothing, and assuming one that
an interval environment proves leaves it as it is. A conjunction asks both sides of the same state but assumes the
second one after the first, so what is refuted has to stay refuted below the state that was asked, and what is proved
has to stay proved above it. -/

namespace ValueAnalysis

namespace Satisfiability

variable {a b : Satisfiability}

lemma of_and_eq_notSatisfied (h : a.and b = notSatisfied) : a = notSatisfied ∨ b = notSatisfied := by
  cases a <;> cases b <;> simp_all [Satisfiability.and]

lemma of_or_eq_notSatisfied (h : a.or b = notSatisfied) : a = notSatisfied ∧ b = notSatisfied := by
  cases a <;> cases b <;> simp_all [Satisfiability.or]

lemma and_eq_satisfied_iff : a.and b = satisfied ↔ a = satisfied ∧ b = satisfied := by
  cases a <;> cases b <;> simp [Satisfiability.and]

lemma of_or_eq_satisfied (h : a.or b = satisfied) : a = satisfied ∨ b = satisfied := by
  cases a <;> cases b <;> simp_all [Satisfiability.or]

lemma of_meet_eq_notSatisfied (h : a.meet b = notSatisfied) : a = notSatisfied ∨ b = notSatisfied := by
  cases a <;> cases b <;> simp_all [Satisfiability.meet]

end Satisfiability

namespace Expr

def negationDepth : Expr → Nat
  | unary .logicalNot e _ => e.negationDepth + 1
  | _ => 0

/-- Whether three negations stand directly inside each other, among the nodes that a condition is resolved through. -/
def stacksNegations : Expr → Bool
  | unary .logicalNot e _ => decide (2 ≤ e.negationDepth) || e.stacksNegations
  | binary .logicalAnd l r _ => l.stacksNegations || r.stacksNegations
  | binary .logicalOr l r _ => l.stacksNegations || r.stacksNegations
  | _ => false

lemma negationDepth_pos {e : Expr} (h : e.isNegation = true) : 0 < e.negationDepth := by
  cases e with
  | unary op a loc => cases op <;> simp_all [isNegation, negationDepth]
  | _ => cases h

lemma stacksNegations_atom {e : Expr} (h : e.isAtom = true) : e.stacksNegations = false ∧ e.negationDepth = 0 := by
  cases e with
  | unary op a loc => cases op <;> simp_all [isAtom, stacksNegations, negationDepth]
  | binary op l r loc => cases op <;> simp_all [isAtom, stacksNegations, negationDepth]
  | _ => exact ⟨rfl, rfl⟩

lemma stacksNegations_not {e : Expr} {loc : Value} (h : (unary .logicalNot e loc).stacksNegations = false) :
    e.negationDepth < 2 ∧ e.stacksNegations = false := by
  rw [stacksNegations, Bool.or_eq_false_iff, decide_eq_false_iff_not, Nat.not_le] at h
  exact h

lemma stacksNegations_comparison {op : BinaryOp} (h : op.isComparison = true) (l r : Expr) (loc : Value) :
    (binary op l r loc).stacksNegations = false := by
  cases op <;> simp_all [BinaryOp.isComparison, stacksNegations]

lemma stacksNegations_negate {e : Expr} (h : e.stacksNegations = false) : e.negate.stacksNegations = false := by
  induction e using condition_induction with
  | literal b loc => rfl
  | negation a loc =>
    simp only [negate]
    exact (stacksNegations_not h).2
  | conjunction l r loc ihl ihr =>
    simp only [negate, stacksNegations, Bool.or_eq_false_iff] at h ⊢
    exact ⟨ihl h.1, ihr h.2⟩
  | disjunction l r loc ihl ihr =>
    simp only [negate, stacksNegations, Bool.or_eq_false_iff] at h ⊢
    exact ⟨ihl h.1, ihr h.2⟩
  | comparison op l r loc ho =>
    obtain ⟨op', hop, he⟩ := negate_comparison ho l r loc
    rw [he]
    exact stacksNegations_comparison (BinaryOp.isComparison_of_negated hop).2 l r loc
  | atom e he =>
    obtain ⟨hstack, hdepth⟩ := stacksNegations_atom he
    rw [negate_atom he, stacksNegations, hstack, hdepth]
    rfl

lemma isAtom_of_negate {e : Expr} (hn : e.negate.isNegation = true) (hd : e.negationDepth < 2) : e.isAtom = true := by
  induction e using condition_induction with
  | literal b loc => cases hn
  | negation a loc =>
    simp only [negate] at hn
    simp only [negationDepth] at hd
    have hdepth := negationDepth_pos hn
    omega
  | conjunction l r loc => cases hn
  | disjunction l r loc => cases hn
  | comparison op l r loc ho =>
    obtain ⟨op', _, he⟩ := negate_comparison ho l r loc
    rw [he] at hn
    cases hn
  | atom e he => exact he

end Expr

namespace Condition

variable {decide : BinaryOp → Expr → Expr → Satisfiability}

lemma answer_atom (hother : ∀ {op} l r, op.isComparison = false → decide op l r ≠ .satisfied) {e : Expr}
    (h : e.isAtom = true) : answer decide e ≠ .satisfied := by
  cases e with
  | constant v loc => cases v <;> simp_all [Expr.isAtom, answer]
  | unary op a loc => cases op <;> simp_all [Expr.isAtom, answer]
  | binary op l r loc =>
    simp only [Expr.isAtom, Bool.and_eq_true, Bool.not_eq_true', decide_eq_true_eq] at h
    rw [answer_binary h.1.2 h.2]
    exact hother l r h.1.1
  | _ => simp [answer]

end Condition

namespace Env

section Restrict

variable {L : Type} [AbstractDomain L] [LatticeDomain L] {s t : Env L}
variable {decide : BinaryOp → Expr → Expr → Satisfiability} {refine : Env L → BinaryOp → Expr → Expr → Env L}
variable (hd : Condition.Complementary decide)
variable (hbelow : ∀ {a : Env L} op l r, a.WellFormed → Below (refine a op l r) a)
include hd hbelow

lemma isBottom_restrict_of_refuted
    (hother : ∀ {op} l r, op.isComparison = false → decide op l r ≠ .satisfied)
    (hrefute : ∀ {a : Env L} op l r, Below a s → decide op l r = .notSatisfied → (refine a op l r).isBottom = true)
    (h : Below t s) (e : Expr) (hc : e.stacksNegations = false)
    (ha : Condition.answer decide e = .notSatisfied) : (Condition.restrict refine t e).isBottom = true := by
  fun_induction Condition.restrict refine t e with
  | case1 t e hb => exact hb
  | case2 t hb loc => cases ha
  | case3 t hb loc => rfl
  | case4 t hb c loc hn =>
    -- With no third negation inside, only an atom keeps this one from moving inward, and no atom is ever proved.
    have hatom := Expr.isAtom_of_negate hn (Expr.stacksNegations_not hc).1
    have hproved : Condition.answer decide c = .satisfied := by
      rw [← Satisfiability.negate_negate (Condition.answer decide c)]
      exact congrArg Satisfiability.negate ha
    exact absurd hproved (Condition.answer_atom hother hatom)
  | case5 t hb c loc hn hw ih =>
    apply ih h (Expr.stacksNegations_negate (Expr.stacksNegations_not hc).2)
    rw [Condition.answer_negate hd]
    exact ha
  | case6 t hb l r loc ihl ihr =>
    simp only [Expr.stacksNegations, Bool.or_eq_false_iff] at hc
    rcases Satisfiability.of_and_eq_notSatisfied ha with hl | hr
    · have hbottom := ihl h hc.1 hl
      rwa [Condition.restrict_of_isBottom hbottom]
    · exact ihr ((restrict_below hbelow h.left l).trans h) hc.2 hr
  | case7 t hb l r loc ihl ihr =>
    simp only [Expr.stacksNegations, Bool.or_eq_false_iff] at hc
    obtain ⟨hl, hr⟩ := Satisfiability.of_or_eq_notSatisfied ha
    have hjoin : Env.join (Condition.restrict refine t l) (Condition.restrict refine t r) =
        Condition.restrict refine t r := join_of_isBottom_left (ihl h hc.1 hl) _
    change (Env.join _ _).isBottom = true
    rw [hjoin]
    exact ihr h hc.2 hr
  | case8 t hb op l r loc hand hor =>
    rw [Condition.answer_binary hand hor] at ha
    exact hrefute op l r h ha
  | case9 t e hb htrue hfalse hnot _ _ hbinary =>
    cases e with
    | constant v loc =>
      cases v with
      | bool b =>
        cases b with
        | true => exact (htrue loc rfl).elim
        | false => exact (hfalse loc rfl).elim
      | _ => cases ha
    | unary op a loc =>
      cases op with
      | logicalNot => exact (hnot a loc rfl).elim
      | _ => cases ha
    | binary op l r loc => exact (hbinary op l r loc rfl).elim
    | _ => cases ha

lemma below_restrict_of_proved
    (hprove : ∀ {a : Env L} op l r, Below s a → decide op l r = .satisfied → Below s (refine a op l r))
    (h : Below s t) (e : Expr) (ha : Condition.answer decide e = .satisfied) :
    Below s (Condition.restrict refine t e) := by
  fun_induction Condition.restrict refine t e with
  | case1 t e hb => exact h
  | case2 t hb loc => exact h
  | case3 t hb loc => cases ha
  | case4 t hb c loc hn => exact h
  | case5 t hb c loc hn hw ih =>
    apply ih h
    rw [Condition.answer_negate hd]
    exact ha
  | case6 t hb l r loc ihl ihr =>
    obtain ⟨hl, hr⟩ := Satisfiability.and_eq_satisfied_iff.mp ha
    exact ihr (ihl h hl) hr
  | case7 t hb l r loc ihl ihr =>
    have hwl := (restrict_below hbelow h.right l).left
    have hwr := (restrict_below hbelow h.right r).left
    rcases Satisfiability.of_or_eq_satisfied ha with hl | hr
    · exact (ihl h hl).trans ⟨hwl, hwl.join hwr, hwl.leq_join_left hwr⟩
    · exact (ihr h hr).trans ⟨hwr, hwl.join hwr, hwl.leq_join_right hwr⟩
  | case8 t hb op l r loc hand hor =>
    rw [Condition.answer_binary hand hor] at ha
    exact hprove op l r h ha
  | case9 t e hb => exact h

end Restrict

variable {env : Env Interval} {c : Expr}

lemma decideBinary_other {op : BinaryOp} (ho : op.isComparison = false) (env : Env Interval) (l r : Expr) :
    env.decideBinary op l r ≠ .satisfied := by
  simp only [decideBinary]
  split
  · exact Satisfiability.noConfusion
  · change Interval.satisfiesBinary op _ _ ≠ _
    rw [Interval.satisfiesBinary_other ho]
    exact Satisfiability.noConfusion

lemma isBottom_refine_of_refuted {a b : Env Interval} (h : Below a b) {op : BinaryOp} {l r : Expr}
    (hb : b.decideBinary op l r = .notSatisfied) : (a.refine op l r).isBottom = true := by
  have hbottom : a.refine op l r = .bottom := by
    rcases Satisfiability.join_eq_right_iff.mp (decideBinary_mono h op l r) with ha | hunknown | hab
    · simp [Env.refine, ha]
    · rw [hb] at hunknown
      cases hunknown
    · simp [Env.refine, hab, hb]
  simp [hbottom]

lemma below_refine_of_proved {a b : Env Interval} (h : Below a b) {op : BinaryOp} {l r : Expr}
    (ha : a.decideBinary op l r = .satisfied) : Below a (b.refine op l r) := by
  have hself : a.refine op l r = a := by simp [Env.refine, ha]
  have hrefine := h.refine op l r
  rwa [hself] at hrefine

namespace WellFormed

variable (h : env.WellFormed) (hb : env.isBottom = false)
include h hb

lemma isBottom_assume_of_refuted (hc : c.stacksNegations = false) (ha : env.satisfies c = .notSatisfied) :
    (env.assume c).isBottom = true := by
  simp only [satisfies, hb] at ha
  exact isBottom_restrict_of_refuted env.complementary_decideBinary (fun op l r h => h.refine_below op l r)
    (fun l r ho => decideBinary_other ho env l r) (fun op l r h => isBottom_refine_of_refuted h) (.refl h) c hc ha

lemma same_assume_of_proved (ha : env.satisfies c = .satisfied) : (env.assume c).same env = true := by
  simp only [satisfies, hb] at ha
  have habove : Below env (env.assume c) :=
    below_restrict_of_proved env.complementary_decideBinary (fun op l r h => h.refine_below op l r)
      (fun op l r h => below_refine_of_proved h) (.refl h) c ha
  have hbelow := h.assume_below c
  exact hbelow.left.same_of_leq h hbelow.le habove.le

end WellFormed

end Env

namespace Bounds

open Env (Below)

variable {a b : Bounds} {c : Expr} {x y : String}

lemma decideBinary_other {op : BinaryOp} (ho : op.isComparison = false) (b : Bounds) (l r : Expr) :
    decideBinary b op l r = .unknown := by
  simp only [decideBinary]
  split
  · cases op <;> simp_all [BinaryOp.isComparison]
  · rfl

lemma refuted_of_answerLt (h : answerLt b x y = .notSatisfied) : x = y ∨ x ∈ b.get y := by
  by_contra hne
  rw [answerLt, if_neg hne] at h
  split at h <;> cases h

lemma refuted_of_answerLe (h : answerLe b x y = .notSatisfied) : x ≠ y ∧ x ∈ b.get y := by
  rw [answerLe_eq, answerLt] at h
  split_ifs at h with hlt hle
  · cases h
  · exact ⟨fun heq => hlt (.inl heq.symm), hle⟩
  · cases h

section Refute

variable (ha : a.isBottom = false)
include ha

lemma refineLt_eq_none (h : x = y ∨ x ∈ a.get y) : refineLt? a x y = none := by
  have hxy := BoundSet.meet_ne_unreachable (Env.get_ne_bottom ha x) (Env.get_ne_bottom ha y)
  rw [refineLt?, if_pos]
  apply h.imp_right
  intro hx
  apply (BoundSet.mem_meet hxy (BoundSet.above_ne_unreachable _)).mpr
  exact .inl ((BoundSet.mem_meet (Env.get_ne_bottom ha x) (Env.get_ne_bottom ha y)).mpr (.inr hx))

lemma refineLe_eq_none (hxy : x ≠ y) (h : x ∈ a.get y) : refineLe? a x y = none := by
  rw [refineLe?, if_neg hxy, if_pos]
  rw [BoundSet.mem_meet (Env.get_ne_bottom ha x) (Env.get_ne_bottom ha y)]
  exact .inr h

end Refute

lemma refine_eq_bottom_of_refuted (h : Below a b) (ha : a.isBottom = false) {op : BinaryOp} {l r : Expr}
    (hb : decideBinary b op l r = .notSatisfied) : refine a op l r = .bottom := by
  have hlt {x y : String} (hb : answerLt b x y = .notSatisfied) : (refineLt? a x y).getD .bottom = .bottom := by
    rw [refineLt_eq_none ha ((refuted_of_answerLt hb).imp_right (mem_of_below h ha))]
    rfl
  have hle {x y : String} (hb : answerLe b x y = .notSatisfied) : (refineLe? a x y).getD .bottom = .bottom := by
    obtain ⟨hxy, hx⟩ := refuted_of_answerLe hb
    rw [refineLe_eq_none ha hxy (mem_of_below h ha hx)]
    rfl
  simp only [decideBinary] at hb
  split at hb
  · split at hb
    · exact hlt hb
    · exact hlt hb
    · exact hle hb
    · exact hle hb
    · cases hb
  · cases hb

lemma isBottom_refine_of_refuted (h : Below a b) {op : BinaryOp} {l r : Expr}
    (hb : decideBinary b op l r = .notSatisfied) : (refine a op l r).isBottom = true := by
  cases ha : a.isBottom with
  | true => exact Env.isBottom_of_leq (refine_below h.left op l r).le ha
  | false =>
    rw [refine_eq_bottom_of_refuted h ha hb]
    rfl

lemma isBottom_assume_of_refuted (h : b.WellFormed) (hb : b.isBottom = false) (hc : c.stacksNegations = false)
    (ha : satisfies b c = .notSatisfied) : (Bounds.assume b c).isBottom = true := by
  simp only [satisfies, hb] at ha
  apply Env.isBottom_restrict_of_refuted (complementary_decideBinary b) (fun op l r h => refine_below h op l r)
    _ (fun op l r h => isBottom_refine_of_refuted h) (.refl h) c hc ha
  intro op l r ho
  rw [decideBinary_other ho]
  exact Satisfiability.noConfusion

end Bounds

lemma Pentagon.WellFormed.isBottom_assume_of_refuted {p : Pentagon} {c : Expr} (h : p.WellFormed)
    (hb : p.isBottom = false) (hc : c.stacksNegations = false) (ha : p.satisfies c = .notSatisfied) :
    (p.assume c).isBottom = true := by
  have hopen : p.assumeOpen c = bottom := by
    rcases Satisfiability.of_meet_eq_notSatisfied ha with hi | hbounds
    · apply make_of_isBottom_intervals
      exact h.2.1.isBottom_assume_of_refuted (h.isBottom_intervals.trans hb) hc hi
    · apply make_of_isBottom_bounds
      exact Bounds.isBottom_assume_of_refuted h.1 (h.isBottom_bounds.trans hb) hc hbounds
  rw [Pentagon.assume, if_neg (Bool.not_eq_true _ ▸ hb), hopen]
  rfl

theorem assume_agrees_with_answer (c : Expr) (hc : c.stacksNegations = false) :
    (∀ env : Env Interval, env.WellFormed → env.isBottom = false →
      (env.satisfies c = .notSatisfied → (env.assume c).isBottom = true) ∧
      (env.satisfies c = .satisfied → (env.assume c).same env = true)) ∧
    (∀ b : Bounds, b.WellFormed → b.isBottom = false →
      Bounds.satisfies b c = .notSatisfied → (Bounds.assume b c).isBottom = true) ∧
    ∀ p : Pentagon, p.WellFormed → p.isBottom = false →
      p.satisfies c = .notSatisfied → (p.assume c).isBottom = true :=
  ⟨fun _ h hb => ⟨h.isBottom_assume_of_refuted hb hc, h.same_assume_of_proved hb⟩,
    fun _ h hb => Bounds.isBottom_assume_of_refuted h hb hc, fun _ h hb => h.isBottom_assume_of_refuted hb hc⟩

/-- `¬¬(y < x) ∨ ¬(x ≤ y ∨ x = z)` where `x < y`, which the pentagon knows from its bounds alone. -/
theorem assume_agrees_with_answer_alternatives :
    let x : Expr := .identifier ⟨"x", ∅, .null⟩
    let y : Expr := .identifier ⟨"y", ∅, .null⟩
    let z : Expr := .identifier ⟨"z", ∅, .null⟩
    let not (e : Expr) : Expr := .unary .logicalNot e .null
    let or (l r : Expr) : Expr := .binary .logicalOr l r .null
    let c := or (not (not (.binary .lt y x .null))) (not (or (.binary .le x y .null) (.binary .eq x z .null)))
    let env : Env Interval := ⟨.ofList [("x", .ofBounds (.fin 0) (.fin 2)), ("y", .ofBounds (.fin 3) .posInf)], false⟩
    let b : Bounds := ⟨.ofList [("x", .above (.ofList ["y"]))], false⟩
    let p : Pentagon := ⟨b, ⟨.ofList [("x", .ofBounds (.fin 0) (.fin 5)), ("y", .ofBounds (.fin 2) (.fin 4))], false⟩⟩
    (c.stacksNegations = false ∧ (not c).stacksNegations = false ∧ env.WellFormed ∧ b.WellFormed ∧ p.WellFormed) ∧
      (env.satisfies c = .notSatisfied ∧ env.satisfies (not c) = .satisfied ∧
        Bounds.satisfies b c = .notSatisfied ∧ p.satisfies c = .notSatisfied) ∧
      (env.assume c).isBottom = true ∧ (env.assume (not c)).same env = true ∧
      (Bounds.assume b c).isBottom = true ∧ (p.assume c).isBottom = true := by
  intro x y z not or c env b p
  have hc : c.stacksNegations = false ∧ (not c).stacksNegations = false := by decide
  have hwf : env.WellFormed ∧ b.WellFormed ∧ p.WellFormed := by decide
  have hrefuted : env.satisfies c = .notSatisfied := by decide +kernel
  have hproved : env.satisfies (not c) = .satisfied := by decide +kernel
  have hbounds : Bounds.satisfies b c = .notSatisfied := by decide +kernel
  have hboth : p.satisfies c = .notSatisfied := by decide +kernel
  obtain ⟨henv, hb, hp⟩ := assume_agrees_with_answer c hc.1
  obtain ⟨henv', -, -⟩ := assume_agrees_with_answer (not c) hc.2
  refine ⟨⟨hc.1, hc.2, hwf⟩, ⟨hrefuted, hproved, hbounds, hboth⟩, ?_, ?_, ?_, ?_⟩
  · exact (henv env hwf.1 rfl).1 hrefuted
  · exact (henv' env hwf.1 rfl).2 hproved
  · exact hb b hwf.2.1 rfl hbounds
  · exact hp p hwf.2.2 rfl hboth

end ValueAnalysis
