import ValueAnalysis.Interval.Domain
import ValueAnalysis.Proofs.Condition
import ValueAnalysis.Semantics.Calls

/-! Restricting a state by a condition comes to an end. A negation that moves inward can leave more nodes than there
were, but every call is on a lighter condition, and a whole run makes no more calls than the condition has nodes. -/

namespace ValueAnalysis

namespace Expr

lemma nodes_pos (e : Expr) : 0 < e.nodes := by
  fun_cases nodes e <;> omega

lemma exists_eq_succ_of_nodes_le {e : Expr} {n : Nat} (h : e.nodes ≤ n) : ∃ k, n = k + 1 :=
  Nat.exists_eq_add_one.mpr (Nat.lt_of_lt_of_le e.nodes_pos h)

lemma weight_comparison {op : BinaryOp} (h : op.isComparison = true) (l r : Expr) (loc : Value) :
    (binary op l r loc).weight = 1 := by
  cases op <;> simp_all [BinaryOp.isComparison, weight]

lemma weight_atom {e : Expr} (h : e.isAtom = true) : e.weight = 1 := by
  cases e with
  | unary op a loc => cases op <;> simp_all [isAtom, weight]
  | binary op l r loc => cases op <;> simp_all [isAtom, weight]
  | _ => rfl

lemma isNegation_negate_atom {e : Expr} (h : e.isAtom = true) : e.negate.isNegation = true := by
  rw [negate_atom h]
  rfl

lemma negate_and_atoms {l r : Expr} (hl : l.isAtom = true) (hr : r.isAtom = true) (loc : Value) :
    (binary .logicalAnd l r loc).negate = binary .logicalOr (unary .logicalNot l) (unary .logicalNot r) loc := by
  rw [negate, negate_atom hl, negate_atom hr]

end Expr

namespace Condition

open AbstractDomain (isBottom bottom join)

variable {S : Type} [AbstractDomain S] {refine : S → BinaryOp → Expr → Expr → S} {s : S}

section Level

variable {m : Type → Type} [Monad m] {call : S → Expr → m S}

lemma level_of_isBottom (hs : isBottom s = true) (e : Expr) : level refine call s e = pure s := if_pos hs

lemma level_not (hs : isBottom s = false) (a : Expr) (loc : Value) :
    level refine call s (.unary .logicalNot a loc) =
      if a.negate.isNegation = true then pure s else call s a.negate := by
  rw [level, hs, if_neg Bool.false_ne_true]

lemma level_and (hs : isBottom s = false) (l r : Expr) (loc : Value) :
    level refine call s (.binary .logicalAnd l r loc) = call s l >>= fun t => call t r := by
  rw [level, hs, if_neg Bool.false_ne_true]

lemma level_or (hs : isBottom s = false) (l r : Expr) (loc : Value) :
    level refine call s (.binary .logicalOr l r loc) =
      call s l >>= fun t => call s r >>= fun u => pure (join t u) := by
  rw [level, hs, if_neg Bool.false_ne_true]

lemma level_of_weight_eq_one {e : Expr} (h : e.weight = 1) : level refine call s e = pure (restrict refine s e) := by
  fun_cases restrict refine s e with
  | case4 hs a loc hn | case5 hs a loc hn _ =>
    simp only [Expr.weight] at h
    omega
  | case6 hs l r loc | case7 hs l r loc =>
    have := l.weight_pos
    simp only [Expr.weight] at h
    omega
  | _ => simp_all [level]

end Level

lemma level_restrict (s : S) (e : Expr) :
    Id.run (level refine (fun t c => pure (restrict refine t c)) s e) = restrict refine s e := by
  fun_cases restrict refine s e <;> simp_all [level]

lemma calls_of_isBottom (hs : isBottom s = true) (e : Expr) : calls refine s e = [] := by
  rw [calls, level_of_isBottom hs]
  rfl

lemma calls_of_weight_eq_one {e : Expr} (h : e.weight = 1) (s : S) : calls refine s e = [] := by
  rw [calls, level_of_weight_eq_one h]
  rfl

lemma calls_not (hs : isBottom s = false) (a : Expr) (loc : Value) :
    calls refine s (.unary .logicalNot a loc) = if a.negate.isNegation = true then [] else [(s, a.negate)] := by
  rw [calls, level_not hs]
  split <;> rfl

lemma calls_and (hs : isBottom s = false) (l r : Expr) (loc : Value) :
    calls refine s (.binary .logicalAnd l r loc) = [(s, l), (restrict refine s l, r)] := by
  rw [calls, level_and hs]
  rfl

lemma calls_or (hs : isBottom s = false) (l r : Expr) (loc : Value) :
    calls refine s (.binary .logicalOr l r loc) = [(s, l), (s, r)] := by
  rw [calls, level_or hs]
  rfl

lemma calls_not_of_moved (hs : isBottom s = false) {a : Expr} (ha : a.negate.isNegation = false) (loc : Value) :
    calls refine s (.unary .logicalNot a loc) = [(s, a.negate)] := by
  rw [calls_not hs, ha, if_neg Bool.false_ne_true]

lemma calls_not_of_kept (s : S) {a : Expr} (ha : a.negate.isNegation = true) (loc : Value) :
    calls refine s (.unary .logicalNot a loc) = [] := by
  cases hs : isBottom s with
  | true => exact calls_of_isBottom hs _
  | false => rw [calls_not hs, if_pos ha]

lemma weight_lt_of_mem_calls {e c : Expr} {t : S} (h : (t, c) ∈ calls refine s e) : c.weight < e.weight := by
  cases hs : isBottom s with
  | true =>
    rw [calls_of_isBottom hs] at h
    cases h
  | false =>
    induction e using Expr.condition_induction with
    | literal b loc =>
      rw [calls_of_weight_eq_one rfl] at h
      cases h
    | negation a loc _ =>
      cases ha : a.negate.isNegation with
      | true =>
        rw [calls_not_of_kept s ha] at h
        cases h
      | false =>
        rw [calls_not_of_moved hs ha, List.mem_singleton] at h
        obtain ⟨rfl, rfl⟩ := Prod.mk.inj h
        exact a.weight_negate_lt ha
    | conjunction l r loc _ _ | disjunction l r loc _ _ =>
      simp only [calls_and hs, calls_or hs, List.mem_cons, Prod.mk.injEq, List.not_mem_nil, or_false] at h
      simp only [Expr.weight]
      rcases h with ⟨-, rfl⟩ | ⟨-, rfl⟩ <;> omega
    | comparison op l r loc ho =>
      rw [calls_of_weight_eq_one (Expr.weight_comparison ho l r loc)] at h
      cases h
    | atom e ha =>
      rw [calls_of_weight_eq_one (Expr.weight_atom ha)] at h
      cases h

lemma run_restrictWithin (depth : Nat) (s : S) (e : Expr) (i : Nat) :
    (restrictWithin refine (depth + 1) s e).run i =
      (level refine (restrictWithin refine depth) s e).run (i + 1) := rfl

namespace Returns

variable {depth bound bound' : Nat}

lemma mono {e : Expr} (h : Returns refine depth bound s e) (hb : bound ≤ bound') :
    Returns refine depth bound' s e := by
  obtain ⟨k, hk, hrun⟩ := h
  exact ⟨k, Nat.le_trans hk hb, hrun⟩

lemma of_level {e : Expr}
    (h : ∀ call : S → Expr → StateT Nat Option S, level refine call s e = pure (restrict refine s e)) :
    Returns refine (depth + 1) (bound + 1) s e := by
  refine ⟨1, bound.succ_pos, fun i => ?_⟩
  rw [run_restrictWithin, h]
  rfl

lemma of_weight_eq_one {e : Expr} (hb : 0 < bound) (hd : bound ≤ depth) (h : e.weight = 1) :
    Returns refine depth bound s e := by
  obtain ⟨depth, rfl⟩ := Nat.exists_eq_add_one.mpr (Nat.lt_of_lt_of_le hb hd)
  obtain ⟨bound, rfl⟩ := Nat.exists_eq_add_one.mpr hb
  exact of_level fun _ => level_of_weight_eq_one h

lemma of_reachable {e : Expr} (h : isBottom s = false → Returns refine (depth + 1) (bound + 1) s e) :
    Returns refine (depth + 1) (bound + 1) s e := by
  cases hs : isBottom s with
  | true =>
    refine of_level fun call => ?_
    rw [level_of_isBottom hs, restrict_of_isBottom hs]
  | false => exact h hs

lemma negation {a : Expr} (h : a.negate.isNegation = false → Returns refine depth bound s a.negate) (loc : Value) :
    Returns refine (depth + 1) (bound + 1) s (.unary .logicalNot a loc) := by
  refine of_reachable fun hs => ?_
  cases ha : a.negate.isNegation with
  | true =>
    refine of_level fun call => ?_
    rw [level_not hs, restrict_not, if_pos ha, if_pos ha]
  | false =>
    obtain ⟨k, hk, hrun⟩ := h ha
    refine ⟨k + 1, Nat.succ_le_succ hk, fun i => ?_⟩
    rw [run_restrictWithin, level_not hs, restrict_not, ha, if_neg Bool.false_ne_true, if_neg Bool.false_ne_true, hrun,
      Nat.add_right_comm, Nat.add_assoc]

lemma conjunction {l r : Expr} (hl : Returns refine depth bound s l)
    (hr : Returns refine depth bound' (restrict refine s l) r) (loc : Value) :
    Returns refine (depth + 1) (bound + bound' + 1) s (.binary .logicalAnd l r loc) := by
  refine of_reachable fun hs => ?_
  obtain ⟨k, hk, hl⟩ := hl
  obtain ⟨k', hk', hr⟩ := hr
  refine ⟨k + k' + 1, by omega, fun i => ?_⟩
  have hcount : i + 1 + k + k' = i + (k + k' + 1) := by omega
  rw [run_restrictWithin, level_and hs, restrict_and, StateT.run_bind, hl, ← hcount]
  exact hr _

lemma disjunction {l r : Expr} (hl : Returns refine depth bound s l) (hr : Returns refine depth bound' s r)
    (loc : Value) : Returns refine (depth + 1) (bound + bound' + 1) s (.binary .logicalOr l r loc) := by
  refine of_reachable fun hs => ?_
  obtain ⟨k, hk, hl⟩ := hl
  obtain ⟨k', hk', hr⟩ := hr
  refine ⟨k + k' + 1, by omega, fun i => ?_⟩
  have hcount : i + 1 + k + k' = i + (k + k' + 1) := by omega
  rw [run_restrictWithin, level_or hs, restrict_or hs, StateT.run_bind, hl, ← hcount]
  simp [hr]

end Returns

lemma returns_nodes (e : Expr) (s : S) (depth : Nat) (h : e.nodes ≤ depth) :
    Returns refine depth e.nodes s e ∧ Returns refine depth e.nodes s e.negate := by
  -- A negation goes on with what it leaves of its operand, which is no part of the condition, so the induction carries a
  -- condition and its negation.
  induction e using Expr.condition_induction generalizing s depth with
  | literal b loc => exact ⟨.of_weight_eq_one (Expr.nodes_pos _) h rfl, .of_weight_eq_one (Expr.nodes_pos _) h rfl⟩
  | negation a loc ih =>
    obtain ⟨depth, rfl⟩ := Expr.exists_eq_succ_of_nodes_le h
    have ha : a.nodes ≤ depth := Nat.le_of_succ_le_succ h
    have hwhole := (ih s (depth + 1) (Nat.le_succ_of_le ha)).1
    exact ⟨.negation (fun _ => (ih s depth ha).2) loc, hwhole.mono (Nat.le_succ _)⟩
  | conjunction l r loc ihl ihr =>
    obtain ⟨depth, rfl⟩ := Expr.exists_eq_succ_of_nodes_le h
    simp only [Expr.nodes] at h ⊢
    have hl := ihl s depth (by omega)
    have hr (t : S) := ihr t depth (by omega)
    exact ⟨.conjunction hl.1 (hr _).1 loc, .disjunction hl.2 (hr s).2 loc⟩
  | disjunction l r loc ihl ihr =>
    obtain ⟨depth, rfl⟩ := Expr.exists_eq_succ_of_nodes_le h
    simp only [Expr.nodes] at h ⊢
    have hl := ihl s depth (by omega)
    have hr (t : S) := ihr t depth (by omega)
    exact ⟨.disjunction hl.1 (hr s).1 loc, .conjunction hl.2 (hr _).2 loc⟩
  | comparison op l r loc ho =>
    obtain ⟨op', hneg, hmove⟩ := Expr.negate_comparison ho l r loc
    have ho' := (BinaryOp.isComparison_of_negated hneg).2
    rw [hmove]
    exact ⟨.of_weight_eq_one (Expr.nodes_pos _) h (Expr.weight_comparison ho l r loc),
      .of_weight_eq_one (Expr.nodes_pos _) h (Expr.weight_comparison ho' l r loc)⟩
  | atom e ha =>
    refine ⟨.of_weight_eq_one e.nodes_pos h (Expr.weight_atom ha), ?_⟩
    -- The negation stays where it is, so there is no call on it.
    obtain ⟨depth, rfl⟩ := Expr.exists_eq_succ_of_nodes_le h
    have hkept : Returns refine (depth + 1) (0 + 1) s (.unary .logicalNot e) :=
      .negation (fun hmoved => absurd (Expr.isNegation_negate_atom ha) (by simp [hmoved])) .null
    rw [Expr.negate_atom ha]
    exact hkept.mono e.nodes_pos

theorem restriction_terminates (refine : S → BinaryOp → Expr → Expr → S) :
    -- A level is all that `restrict` does between its calls, and each of these is on a lighter condition.
    (∀ s e, Id.run (level refine (fun t c => pure (restrict refine t c)) s e) = restrict refine s e) ∧
    (∀ s e t c, (t, c) ∈ calls refine s e → c.weight < e.weight) ∧
    -- There is a call for a negation that has moved, and none for one that would stay in front of an atom for good.
    (∀ s a loc, isBottom s = false → a.negate.isNegation = false →
      calls refine s (.unary .logicalNot a loc) = [(s, a.negate)]) ∧
    (∀ s a loc, a.isAtom = true →
      a.negate = .unary .logicalNot a ∧ calls refine s (.unary .logicalNot a loc) = []) ∧
    -- The call can be on more nodes than there were.
    (∀ s l r loc loc', isBottom s = false → l.isAtom = true → r.isAtom = true →
      let e : Expr := .unary .logicalNot (.binary .logicalAnd l r loc) loc'
      let c : Expr := .binary .logicalOr (.unary .logicalNot l) (.unary .logicalNot r) loc
      calls refine s e = [(s, c)] ∧ e.nodes < c.nodes) ∧
    -- Still every run ends, and its calls are no more than the nodes of the condition it started with.
    ∀ s e depth, e.nodes ≤ depth → Returns refine depth e.nodes s e := by
  refine ⟨level_restrict, fun _ _ _ _ => weight_lt_of_mem_calls, fun _ _ loc hs ha => calls_not_of_moved hs ha loc,
    fun s _ loc ha => ⟨Expr.negate_atom ha, calls_not_of_kept s (Expr.isNegation_negate_atom ha) loc⟩, ?_,
    fun s e depth h => (returns_nodes e s depth h).1⟩
  intro s l r loc loc' hs hl hr e c
  have hmove : (Expr.binary .logicalAnd l r loc).negate = c := Expr.negate_and_atoms hl hr loc
  have hmoved : (Expr.binary .logicalAnd l r loc).negate.isNegation = false := rfl
  refine ⟨?_, ?_⟩
  · rw [calls_not_of_moved hs hmoved, hmove]
  · simp only [e, c, Expr.nodes]
    omega

/-- Two variables that stand for truth values. The negation of their conjunction has four nodes and goes on with five,
and it takes all of the four calls. -/
theorem restriction_terminates_opaque :
    let x : Expr := .identifier ⟨"x", ∅, .null⟩
    let y : Expr := .identifier ⟨"y", ∅, .null⟩
    let a : Expr := .binary .logicalAnd x y .null
    let e : Expr := .unary .logicalNot a .null
    let s : Env Interval := ⟨.ofList [("x", .singleton 1)], false⟩
    (isBottom s = false ∧ x.isAtom = true ∧ y.isAtom = true ∧ a.negate.isNegation = false ∧ e.nodes = 4) ∧
      calls Env.refine s e = [(s, a.negate)] ∧ e.nodes < a.negate.nodes ∧ a.negate.weight < e.weight ∧
      x.negate = .unary .logicalNot x ∧ calls Env.refine s (.unary .logicalNot x) = [] ∧
      Returns Env.refine 4 4 s e ∧ ((restrictWithin Env.refine 4 s e).run 0).map Prod.snd = some 4 := by
  intro x y a e s
  obtain ⟨-, hweight, hmoved, hkept, hgrown, hreturns⟩ := restriction_terminates (Env.refine (L := Interval))
  have hs : isBottom s = false := by decide
  have hcall : calls Env.refine s e = [(s, a.negate)] := hmoved s a .null hs rfl
  obtain ⟨hnegate, hnone⟩ := hkept s x .null rfl
  exact ⟨⟨hs, rfl, rfl, rfl, rfl⟩, hcall, (hgrown s x y .null .null hs rfl rfl).2,
    hweight s e s a.negate (by simp [hcall]), hnegate, hnone, hreturns s e 4 (Nat.le_refl 4), by decide⟩

end Condition

end ValueAnalysis
