import Mathlib.Tactic.Common
import ValueAnalysis.Env.Condition
import ValueAnalysis.Semantics.Concrete

/-! Soundness of the logical layer of conditions. Whatever is sound on comparisons is sound on every
condition, since a negation that moves inward exchanges the truth values. -/

namespace ValueAnalysis

namespace Satisfiability

lemma admits_iff (a : Satisfiability) (b : Bool) : a.Admits b ↔ a = unknown ∨ a = ofBool b := by
  cases a <;> cases b <;> simp [Admits, ofBool]

variable {a b : Satisfiability} {x y : Bool}

lemma Admits.negate (h : a.Admits x) : a.negate.Admits !x := by
  rw [admits_iff] at h ⊢
  rcases h with rfl | rfl <;> cases x <;> simp [Satisfiability.negate, ofBool]

lemma Admits.and (ha : a.Admits x) (hb : b.Admits y) : (a.and b).Admits (x && y) := by
  rw [admits_iff] at ha hb ⊢
  rcases ha with rfl | rfl <;> rcases hb with rfl | rfl <;> cases x <;> cases y <;>
    simp [Satisfiability.and, ofBool]

lemma Admits.or (ha : a.Admits x) (hb : b.Admits y) : (a.or b).Admits (x || y) := by
  rw [admits_iff] at ha hb ⊢
  rcases ha with rfl | rfl <;> rcases hb with rfl | rfl <;> cases x <;> cases y <;>
    simp [Satisfiability.or, ofBool]

lemma Admits.meet (ha : a.Admits x) (hb : b.Admits x) : (a.meet b).Admits x := by
  rw [admits_iff] at ha hb ⊢
  rcases ha with rfl | rfl <;> rcases hb with rfl | rfl <;> cases x <;> simp [Satisfiability.meet, ofBool]

end Satisfiability

lemma BinaryOp.holds_negated {op op' : BinaryOp} (h : op.negated? = some op') (m n : Int) :
    op'.holds m n = !op.holds m n := by
  cases op <;> simp [BinaryOp.negated?] at h <;> subst h <;>
    simp only [BinaryOp.holds, ← decide_not, decide_eq_decide] <;> omega

lemma BinaryOp.isComparison_of_negated {op op' : BinaryOp} (h : op.negated? = some op') :
    op.isComparison = true ∧ op'.isComparison = true := by
  cases op <;> simp [BinaryOp.negated?] at h <;> subst h <;> exact ⟨rfl, rfl⟩

lemma BinaryOp.ne_connective {op : BinaryOp} (ho : op.isComparison = true) :
    op ≠ .logicalAnd ∧ op ≠ .logicalOr := by
  constructor
  · rintro rfl
    cases ho
  · rintro rfl
    cases ho

/-- Induction along the nodes that a condition is resolved through. -/
@[elab_as_elim]
lemma Expr.condition_induction {motive : Expr → Prop} (literal : ∀ b loc, motive (.constant (.bool b) loc))
    (negation : ∀ a loc, motive a → motive (.unary .logicalNot a loc))
    (conjunction : ∀ l r loc, motive l → motive r → motive (.binary .logicalAnd l r loc))
    (disjunction : ∀ l r loc, motive l → motive r → motive (.binary .logicalOr l r loc))
    (comparison : ∀ op l r loc, op.isComparison = true → motive (.binary op l r loc))
    (atom : ∀ e, e.isAtom = true → motive e) (e : Expr) : motive e := by
  induction e with
  | constant v loc =>
    cases v with
    | bool b => exact literal b loc
    | _ => exact atom _ rfl
  | unary op a loc ih =>
    cases op with
    | logicalNot => exact negation a loc ih
    | _ => exact atom _ rfl
  | binary op l r loc ihl ihr =>
    cases op with
    | logicalAnd => exact conjunction l r loc ihl ihr
    | logicalOr => exact disjunction l r loc ihl ihr
    | lt | le | gt | ge | eq | ne => exact comparison _ l r loc rfl
    | _ => exact atom _ rfl
  | _ => exact atom _ rfl

lemma Expr.negate_atom {e : Expr} (h : e.isAtom = true) : e.negate = .unary .logicalNot e := by
  cases e with
  | constant v loc => cases v <;> simp_all [Expr.isAtom, Expr.negate]
  | identifier x => rfl
  | unknown loc => rfl
  | unary op a loc => cases op <;> simp_all [Expr.isAtom, Expr.negate]
  | binary op l r loc => cases op <;> simp_all [Expr.isAtom, Expr.negate, BinaryOp.isComparison, BinaryOp.negated?]
  | ternary op l m r loc => rfl
  | foreign v => rfl

lemma Expr.negate_comparison {op : BinaryOp} (h : op.isComparison = true) (l r : Expr) (loc : Value) :
    ∃ op', op.negated? = some op' ∧ (Expr.binary op l r loc).negate = .binary op' l r loc := by
  cases op <;> simp_all [BinaryOp.isComparison, BinaryOp.negated?, Expr.negate]

lemma Truth.negate {lazy : Bool} {s : Store} {e : Expr} {b : Bool} (h : Truth lazy s e b) :
    Truth lazy s e.negate !b := by
  induction h with
  | literal b loc => exact .literal (!b) loc
  | atom b ha h =>
    rw [Expr.negate_atom ha]
    exact .negation .null (.atom b ha h)
  | @comparison op l r m n loc ho hl hr =>
    obtain ⟨op', hneg, he⟩ := Expr.negate_comparison ho l r loc
    rw [he, ← BinaryOp.holds_negated hneg]
    exact .comparison loc (BinaryOp.isComparison_of_negated hneg).2 hl hr
  | negation loc h _ => rwa [Bool.not_not]
  | conjunction loc _ _ ihl ihr =>
    rw [Bool.not_and]
    exact .disjunction loc ihl ihr
  | disjunction loc _ _ ihl ihr =>
    rw [Bool.not_or]
    exact .conjunction loc ihl ihr
  | refuted r loc hz _ ihl => exact .settled r.negate loc hz ihl
  | settled r loc hz _ ihl => exact .refuted r.negate loc hz ihl

lemma Truth.of_not {lazy : Bool} {s : Store} {a : Expr} {loc : Value} {b : Bool}
    (h : Truth lazy s (.unary .logicalNot a loc) b) : Truth lazy s a !b := by
  cases h with
  | atom b ha h => simp [Expr.isAtom] at ha
  | negation loc h => rwa [Bool.not_not]

lemma Truth.of_and {lazy : Bool} {s : Store} {l r : Expr} {loc : Value} {b : Bool}
    (h : Truth lazy s (.binary .logicalAnd l r loc) b) (hb : b = true) :
    Truth lazy s l true ∧ Truth lazy s r true := by
  cases h with
  | atom b ha h => simp [Expr.isAtom] at ha
  | comparison loc ho hl hr => simp [BinaryOp.isComparison] at ho
  | conjunction loc hl hr =>
    obtain ⟨rfl, rfl⟩ := (Bool.and_eq_true _ _).mp hb
    exact ⟨hl, hr⟩
  | refuted r loc hz hl => cases hb

lemma Truth.of_or {lazy : Bool} {s : Store} {l r : Expr} {loc : Value} {b : Bool}
    (h : Truth lazy s (.binary .logicalOr l r loc) b) (hb : b = true) :
    Truth lazy s l true ∨ Truth lazy s r true := by
  cases h with
  | atom b ha h => simp [Expr.isAtom] at ha
  | comparison loc ho hl hr => simp [BinaryOp.isComparison] at ho
  | disjunction loc hl hr =>
    rcases (Bool.or_eq_true _ _).mp hb with rfl | rfl
    · exact .inl hl
    · exact .inr hr
  | settled r loc hz hl => exact .inl hl

lemma Truth.of_binary {lazy : Bool} {s : Store} {op : BinaryOp} {l r : Expr} {loc : Value} {b : Bool}
    (hand : op ≠ .logicalAnd) (hor : op ≠ .logicalOr) (h : Truth lazy s (.binary op l r loc) b) :
    ∃ m n, Evaluates s l m ∧ Evaluates s r n ∧ (op.isComparison = true → b = op.holds m n) := by
  cases h with
  | atom b ha h =>
    obtain ⟨m, hm⟩ := h l (by simp [Expr.operands])
    obtain ⟨n, hn⟩ := h r (by simp [Expr.operands])
    refine ⟨m, n, hm, hn, fun ho => ?_⟩
    simp [Expr.isAtom, ho] at ha
  | comparison loc ho hl hr => exact ⟨_, _, hl, hr, fun _ => rfl⟩
  | conjunction loc hl hr => exact absurd rfl hand
  | disjunction loc hl hr => exact absurd rfl hor
  | refuted r loc hz hl => exact absurd rfl hand
  | settled r loc hz hl => exact absurd rfl hor

namespace Condition

open AbstractDomain (isBottom bottom join)

structure DecidesSoundly (s : Store) (decide : BinaryOp → Expr → Expr → Satisfiability) : Prop where
  comparison : ∀ {op : BinaryOp} {l r : Expr} {m n : Int}, op.isComparison = true → Evaluates s l m →
    Evaluates s r n → (decide op l r).Admits (op.holds m n)
  other : ∀ {op : BinaryOp} {l r : Expr} {m n : Int}, op.isComparison = false → Evaluates s l m →
    Evaluates s r n → decide op l r = .unknown

lemma answer_admits {s : Store} {decide : BinaryOp → Expr → Expr → Satisfiability}
    (hd : DecidesSoundly s decide) {e : Expr} {b : Bool} (h : Truth false s e b) :
    (answer decide e).Admits b := by
  induction h with
  | literal b loc => exact (Satisfiability.admits_iff _ b).mpr (.inr rfl)
  | @atom e b ha h =>
    refine (Satisfiability.admits_iff _ b).mpr (.inl ?_)
    cases e with
    | constant v loc => cases v <;> simp_all [Expr.isAtom, answer]
    | unary op a loc => cases op <;> simp_all [Expr.isAtom, answer]
    | binary op l r loc =>
      obtain ⟨m, hm⟩ := h l (by simp [Expr.operands])
      obtain ⟨n, hn⟩ := h r (by simp [Expr.operands])
      simp only [Expr.isAtom, Bool.and_eq_true, Bool.not_eq_true', decide_eq_true_eq] at ha
      have hunknown := hd.other ha.1.1 hm hn
      cases op <;> simp_all [answer]
    | _ => simp [answer]
  | @comparison op l r m n loc ho hl hr =>
    have hadmits := hd.comparison ho hl hr
    cases op <;> simp_all [answer, BinaryOp.isComparison]
  | negation loc _ ih => exact ih.negate
  | conjunction loc _ _ ihl ihr => exact ihl.and ihr
  | disjunction loc _ _ ihl ihr => exact ihl.or ihr
  | refuted r loc hz => cases hz
  | settled r loc hz => cases hz

variable {S : Type} [AbstractDomain S] {refine : S → BinaryOp → Expr → Expr → S}

lemma restrict_of_isBottom {s : S} (hs : isBottom s = true) (e : Expr) : restrict refine s e = s := by
  rw [restrict.eq_def, if_pos hs]

lemma restrict_not (s : S) (c : Expr) (loc : Value) :
    restrict refine s (.unary .logicalNot c loc) =
      if c.negate.isNegation = true then s else restrict refine s c.negate := by
  cases hs : isBottom s with
  | true => rw [restrict_of_isBottom hs, restrict_of_isBottom hs, ite_self]
  | false =>
    rw [restrict, hs, if_neg Bool.false_ne_true]
    rfl

lemma restrict_and (s : S) (l r : Expr) (loc : Value) :
    restrict refine s (.binary .logicalAnd l r loc) = restrict refine (restrict refine s l) r := by
  cases hs : isBottom s with
  | true => rw [restrict_of_isBottom hs, restrict_of_isBottom hs, restrict_of_isBottom hs]
  | false => rw [restrict, hs, if_neg Bool.false_ne_true]

lemma restrict_or {s : S} (hs : isBottom s = false) (l r : Expr) (loc : Value) :
    restrict refine s (.binary .logicalOr l r loc) = join (restrict refine s l) (restrict refine s r) := by
  rw [restrict, hs, if_neg Bool.false_ne_true]

lemma restrict_comparison {s : S} {op : BinaryOp} (hs : isBottom s = false) (ho : op.isComparison = true) (l r : Expr)
    (loc : Value) : restrict refine s (.binary op l r loc) = refine s op l r := by
  obtain ⟨hand, hor⟩ := BinaryOp.ne_connective ho
  rw [restrict, hs, if_neg Bool.false_ne_true]
  · exact hand
  · exact hor

lemma restrict_preserves {P : S → Prop} (hbottom : P bottom) (hjoin : ∀ {a b}, P a → P b → P (join a b))
    (hrefine : ∀ {a} op l r, P a → P (refine a op l r)) (a : S) (e : Expr) (ha : P a) :
    P (restrict refine a e) := by
  fun_induction restrict refine a e with
  | case1 a e hb => exact ha
  | case2 a hb loc => exact ha
  | case3 a hb loc => exact hbottom
  | case4 a hb c loc hn => exact ha
  | case5 a hb c loc hn hw ih => exact ih ha
  | case6 a hb l r loc ihl ihr => exact ihr (ihl ha)
  | case7 a hb l r loc ihl ihr => exact hjoin (ihl ha) (ihr ha)
  | case8 a hb op l r loc => exact hrefine op l r ha
  | case9 a e hb => exact ha

structure RefinesSoundly (γ : S → Store → Prop) (refine : S → BinaryOp → Expr → Expr → S) : Prop where
  join_left : ∀ {a : S} {s : Store} (b : S), γ a s → γ (join a b) s
  join_right : ∀ {b : S} {s : Store} (a : S), γ b s → γ (join a b) s
  comparison : ∀ {a : S} {s : Store} {op : BinaryOp} {l r : Expr} {m n : Int}, γ a s →
    op.isComparison = true → Evaluates s l m → Evaluates s r n → op.holds m n = true → γ (refine a op l r) s
  other : ∀ {a : S} {s : Store} {op : BinaryOp} {l r : Expr} {m n : Int}, γ a s →
    op.isComparison = false → Evaluates s l m → Evaluates s r n → γ (refine a op l r) s

lemma restrict_sound {γ : S → Store → Prop} (hr : RefinesSoundly γ refine) {lazy : Bool} {s : Store} (a : S)
    (e : Expr) (h : Truth lazy s e true) (ha : γ a s) : γ (restrict refine a e) s := by
  fun_induction restrict refine a e with
  | case1 a e hb => exact ha
  | case2 a hb loc => exact ha
  | case3 a hb loc => cases h with | atom b hatom => simp [Expr.isAtom] at hatom
  | case4 a hb c loc hn => exact ha
  | case5 a hb c loc hn hw ih => exact ih h.of_not.negate ha
  | case6 a hb l r loc ihl ihr =>
    obtain ⟨hl, hr⟩ := h.of_and rfl
    exact ihr hr (ihl hl ha)
  | case7 a hb l r loc ihl ihr =>
    rcases h.of_or rfl with hl | hr'
    · exact hr.join_left _ (ihl hl ha)
    · exact hr.join_right _ (ihr hr' ha)
  | case8 a hb op l r loc hand hor =>
    obtain ⟨m, n, hm, hn, heq⟩ := h.of_binary hand hor
    cases ho : op.isComparison with
    | true => exact hr.comparison ha ho hm hn (heq ho).symm
    | false => exact hr.other ha ho hm hn
  | case9 a e hb => exact ha

end Condition

end ValueAnalysis
