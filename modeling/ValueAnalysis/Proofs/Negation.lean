import ValueAnalysis.Proofs.Pentagon.Order
import ValueAnalysis.Proofs.Pentagon.Transfer

/-! Negations under which a condition is assumed. Moving a negation inward uncovers the operand of the next one, and
when that is a negation too it is taken for one that cannot be moved. Two negations around a condition thus cancel
unless the condition starts with a third, in which case nothing is assumed. -/

namespace ValueAnalysis

namespace Condition

variable {S : Type} [AbstractDomain S] {refine : S → BinaryOp → Expr → Expr → S}

lemma restrict_not_not (s : S) (c : Expr) (loc loc' : Value) :
    restrict refine s (.unary .logicalNot (.unary .logicalNot c loc) loc') =
      if c.isNegation = true then s else restrict refine s c := by
  have hmove : (Expr.unary .logicalNot c loc).negate = c := by rw [Expr.negate]
  rw [restrict_not, hmove]

end Condition

lemma Env.assume_not_not (env : Env Interval) (c : Expr) (loc loc' : Value) :
    env.assume (.unary .logicalNot (.unary .logicalNot c loc) loc') =
      if c.isNegation = true then env else env.assume c :=
  Condition.restrict_not_not env c loc loc'

lemma Bounds.assume_not_not (b : Bounds) (c : Expr) (loc loc' : Value) :
    Bounds.assume b (.unary .logicalNot (.unary .logicalNot c loc) loc') =
      if c.isNegation = true then b else Bounds.assume b c :=
  Condition.restrict_not_not b c loc loc'

namespace Pentagon

variable {p : Pentagon}

lemma WellFormed.make_eq (hp : p.WellFormed) (hb : p.isBottom = false) : make p.bounds p.intervals = p :=
  make_of_reachable (hp.isBottom_bounds.trans hb) (hp.isBottom_intervals.trans hb)

lemma WellFormed.assume_not_not (hp : p.WellFormed) (c : Expr) (loc loc' : Value) :
    p.assume (.unary .logicalNot (.unary .logicalNot c loc) loc') =
      if c.isNegation = true then p.closure else p.assume c := by
  cases hb : p.isBottom with
  | true =>
    have hassume (e : Expr) : p.assume e = p := by rw [Pentagon.assume, if_pos hb]
    rw [hassume, hassume, closure_of_isBottom hb, ite_self]
  | false =>
    have hassume (e : Expr) : p.assume e = (p.assumeOpen e).closure := by
      rw [Pentagon.assume, hb, if_neg Bool.false_ne_true]
    rw [hassume, hassume, Pentagon.assumeOpen, Bounds.assume_not_not, Env.assume_not_not]
    split
    · rw [hp.make_eq hb]
    · rfl

end Pentagon

lemma same_ite_iff {S : Type} {same : S → S → Bool} (s : S) {t : S} (ht : same t t = true) (b : Bool) :
    same (if b = true then s else t) t = true ↔ b = false ∨ same s t = true := by
  cases b <;> simp [ht]

theorem double_negation_transparent_iff (c : Expr) (loc loc' : Value) :
    let cc : Expr := .unary .logicalNot (.unary .logicalNot c loc) loc'
    (∀ env : Env Interval, (env.assume cc).same (env.assume c) = true ↔
      c.isNegation = false ∨ env.same (env.assume c) = true) ∧
    (∀ b : Bounds, Env.same (Bounds.assume b cc) (Bounds.assume b c) = true ↔
      c.isNegation = false ∨ Env.same b (Bounds.assume b c) = true) ∧
    ∀ p : Pentagon, p.WellFormed → ((p.assume cc).same (p.assume c) = true ↔
      c.isNegation = false ∨ p.closure.same (p.assume c) = true) := by
  intro cc
  refine ⟨fun env => ?_, fun b => ?_, fun p hp => ?_⟩
  · rw [Env.assume_not_not]
    exact same_ite_iff env (Env.same_refl _) c.isNegation
  · rw [Bounds.assume_not_not]
    exact same_ite_iff b (Env.same_refl _) c.isNegation
  · rw [hp.assume_not_not]
    exact same_ite_iff p.closure (hp.assume c).same_refl c.isNegation

/-- Three negations around `x ≥ y` in a pentagon whose intervals already prove `x < y`. -/
theorem double_negation_transparent_implied :
    let x : Expr := .identifier ⟨"x", ∅, .null⟩
    let y : Expr := .identifier ⟨"y", ∅, .null⟩
    let c : Expr := .unary .logicalNot (.binary .ge x y .null) .null
    let cc : Expr := .unary .logicalNot (.unary .logicalNot c .null) .null
    let p : Pentagon :=
      ⟨.top, ⟨.ofList [("x", .ofBounds .negInf (.fin 1)), ("y", .ofBounds (.fin 2) (.fin 3))], false⟩⟩
    p.WellFormed ∧ c.isNegation = true ∧ p.same (p.assume c) = false ∧ (p.assume cc).same (p.assume c) = true := by
  intro x y c cc p
  have hp : p.WellFormed := by decide
  obtain ⟨-, -, hiff⟩ := double_negation_transparent_iff c .null .null
  exact ⟨hp, rfl, by decide +kernel, (hiff p hp).mpr (.inr (by decide +kernel))⟩

/-- Two of the negations of `¬¬¬(x ≥ y)` do not cancel where `x < y` is news. -/
theorem triple_negation_ignored :
    let x : Expr := .identifier ⟨"x", ∅, .null⟩
    let y : Expr := .identifier ⟨"y", ∅, .null⟩
    let c : Expr := .unary .logicalNot (.binary .ge x y .null) .null
    let cc : Expr := .unary .logicalNot (.unary .logicalNot c .null) .null
    let b : Bounds := .top
    let env : Env Interval := ⟨.ofList [("y", .ofBounds .negInf (.fin 5))], false⟩
    let p : Pentagon := ⟨b, env⟩
    (env.WellFormed ∧ b.WellFormed ∧ p.WellFormed) ∧
      (env.assume cc).same (env.assume c) = false ∧
      Env.same (Bounds.assume b cc) (Bounds.assume b c) = false ∧
      (p.assume cc).same (p.assume c) = false := by
  intro x y c cc b env p
  exact ⟨by decide, by decide +kernel, by decide +kernel, by decide +kernel⟩

end ValueAnalysis
