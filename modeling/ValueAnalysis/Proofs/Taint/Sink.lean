import ValueAnalysis.Proofs.Checked.Env
import ValueAnalysis.Proofs.Pentagon.Decidable
import ValueAnalysis.Proofs.Taint.Flow

/-! The sink check is exact. An expression evaluates to tainted just if one of its live leaves brings in taint, so
the check warns about the sinks that get such an argument and about no others, from left to right. -/

namespace ValueAnalysis

variable {env : Env Taint} {call : CallSite} {e : Expr}

namespace Report

lemma failure_foldl {α : Type} {f : α → Report} {l : List α} {r : Report} (hr : r.failure = none)
    (h : ∀ a ∈ l, (f a).failure = none) : (l.foldl (fun r a => r ++ f a) r).failure = none := by
  induction l generalizing r with
  | nil => exact hr
  | cons a l ih =>
    rw [List.foldl_cons]
    apply ih
    · rw [failure_append hr]
      exact h a List.mem_cons_self
    · intro b hb
      exact h b (List.mem_cons_of_mem a hb)

end Report

namespace Taint

lemma join_eq_tainted_iff (a b : Taint) : a.join b = .tainted ↔ a = .tainted ∨ b = .tainted := by
  cases a <;> cases b <;> simp [join]

lemma evalIdentifier_eq_tainted_iff (x : Identifier) (a : Taint) :
    evalIdentifier x a = .tainted ↔
      x.isMarked taintedMark = true ∨ x.isMarked cleanMark = false ∧ a = .tainted := by
  rw [evalIdentifier]
  cases x.isMarked taintedMark <;> cases x.isMarked cleanMark <;> simp

end Taint

namespace Env

section Eval

variable (hwf : env.WellFormed) (h : env.isBottom = false)
include hwf h

lemma get_eq_tainted_iff (x : String) : env.get x = .tainted ↔ env.facts.get? x ≠ some .clean := by
  rw [get_eq (reachable_of_isBottom h)]
  cases hx : env.facts.get? x with
  | none => exact iff_of_true rfl nofun
  | some a =>
    obtain ⟨htop, hbottom⟩ := (wellFormed_iff.mp hwf).1 x a hx
    cases a with
    | bottom => exact absurd rfl hbottom
    | clean => simp
    | tainted => exact absurd rfl htop

lemma evalNode_eq_tainted_iff (he : e.isProper = true) :
    env.evalNode e = .tainted ↔ ∃ a ∈ e.liveLeaves, a.isTaintSource env = true := by
  induction e with
  | constant c loc => simp [Expr.liveLeaves, Expr.isTaintSource, evalNode, EvalDomain.evalConstant]
  | identifier x =>
    have hx : env.evalNode (.identifier x) = Taint.evalIdentifier x (env.get x.name) := rfl
    rw [hx, Taint.evalIdentifier_eq_tainted_iff, get_eq_tainted_iff hwf h]
    simp [Expr.liveLeaves, Expr.isTaintSource]
  | unknown loc => simp [Expr.liveLeaves, Expr.isTaintSource, evalNode, EvalDomain.evalUnknown]
  | unary op a loc ih =>
    rw [evalNode_unary h, Expr.liveLeaves]
    exact ih he
  | binary op l r loc ihl ihr =>
    obtain ⟨hl, hr⟩ := Bool.and_eq_true_iff.mp he
    rw [evalNode_binary h, Expr.liveLeaves]
    cases hop : op.isCast with
    | true =>
      rw [Taint.evalBinary_of_isCast hop, if_pos rfl]
      exact ihl hl
    | false =>
      rw [Taint.evalBinary_of_not_isCast hop, Taint.join_eq_tainted_iff, ihl hl, ihr hr,
        if_neg Bool.false_ne_true]
      simp only [List.mem_append, or_and_right, exists_or]
  | ternary op l m r loc ihl ihm ihr =>
    obtain ⟨hlm, hr⟩ := Bool.and_eq_true_iff.mp he
    obtain ⟨hl, hm⟩ := Bool.and_eq_true_iff.mp hlm
    rw [evalNode_ternary h, Taint.evalTernary, Taint.join_eq_tainted_iff, Taint.join_eq_tainted_iff, ihl hl,
      ihm hm, ihr hr, Expr.liveLeaves]
    simp only [List.mem_append, or_and_right, exists_or]
  | foreign v => cases he

end Eval

end Env

namespace CallSite

lemma pairwise_warnings (call : CallSite) (env : Env Taint) :
    ((call.warnings env).map (·.index)).Pairwise (· < ·) := by
  have hbindings : call.bindings.Pairwise fun a b => a.2 < b.2 := by
    apply List.pairwise_map.mp
    rw [bindings, List.zipIdx_map_snd]
    exact List.pairwise_lt_range'
  rw [List.pairwise_map, warnings]
  apply hbindings.filterMap
  intro a b hab w hw v hv
  split at hw
  · split at hv
    · cases hw
      cases hv
      exact hab
    · cases hv
  · cases hw

lemma failure_warningsReport (h : ∀ e ∈ call.arguments, ∀ point, (env.evalReport point e).failure = none)
    (point : Value) : (call.warningsReport env point).failure = none := by
  apply Report.failure_foldl rfl
  rintro ⟨⟨p, e⟩, i⟩ hb
  have he : e ∈ call.arguments := List.mem_of_getElem? (mem_bindings.mp hb).2
  rw [warningReport]
  split
  · rw [Report.failure_append (h e he _)]
    split <;> rfl
  · rfl

lemma index_mem_warnings {i : Nat} :
    i ∈ (call.warnings env).map (·.index) ↔
      ∃ p e, call.parameters[i]? = some p ∧ call.arguments[i]? = some e ∧ p.isSink = true ∧
        env.eval e = .tainted := by
  rw [List.mem_map]
  constructor
  · rintro ⟨w, hw, rfl⟩
    obtain ⟨_, hsink, hp, e, he, htaint⟩ := mem_warnings.mp hw
    exact ⟨w.parameter, e, hp, he, hsink, htaint⟩
  · rintro ⟨p, e, hp, he, hsink, htaint⟩
    exact ⟨⟨call, i, p⟩, mem_warnings.mpr ⟨rfl, hsink, hp, e, he, htaint⟩, rfl⟩

theorem sink_check_exact :
    (∀ (env : Env Taint) (call : CallSite), env.WellFormed → env.isBottom = false →
      (∀ e ∈ call.arguments, e.isProper = true) →
      (∀ point, (call.warningsReport env point).failure = none) ∧
      ((call.warnings env).map (·.index)).Pairwise (· < ·) ∧
      (∀ i, i ∈ (call.warnings env).map (·.index) ↔
        ∃ p e, call.parameters[i]? = some p ∧ call.arguments[i]? = some e ∧ p.isSink = true ∧
          ∃ a ∈ e.liveLeaves, a.isTaintSource env = true) ∧
      ∀ w ∈ call.warnings env, w.call = call ∧ call.parameters[w.index]? = some w.parameter) ∧
    ∀ (env : Env Taint) (call : CallSite), env.isBottom = true →
      call.warnings env = [] ∧ ∀ point, (call.warningsReport env point).failure = none := by
  constructor
  · intro env call hwf h hproper
    refine ⟨failure_warningsReport fun e he point => Env.failure_evalReport env point (hproper e he),
      call.pairwise_warnings env, fun i => ?_, fun w hw => ?_⟩
    · rw [index_mem_warnings]
      refine exists₂_congr fun p e => and_congr_right fun _ => and_congr_right fun he => and_congr_right fun _ => ?_
      rw [Env.eval_eq_evalNode h]
      exact Env.evalNode_eq_tainted_iff hwf h (hproper e (List.mem_of_getElem? he))
    · obtain ⟨hcall, _, hp, _⟩ := mem_warnings.mp hw
      exact ⟨hcall, hp⟩
  · intro env call h
    constructor
    · rw [List.eq_nil_iff_forall_not_mem]
      intro w hw
      obtain ⟨_, _, _, e, _, htaint⟩ := mem_warnings.mp hw
      rw [Env.eval, if_pos h] at htaint
      cases htaint
    · apply failure_warningsReport
      intro e _ point
      rw [Env.evalReport, if_pos h]
      rfl

/-- The types that the casts name carry no taint into the first argument, and the last one meets no parameter. -/
theorem sink_check_exact_cast :
    let x : Expr := .identifier ⟨"x", ∅, .null⟩
    let u : Expr := .identifier ⟨"u", ∅, .null⟩
    let trusted : Expr := .identifier ⟨"u", .ofList ["taint.Clean"], .null⟩
    let sum : Expr := .binary .add trusted (.unary .negation u .null) .null
    let sink : Parameter := ⟨"p", .ofList ["taint.Sink"]⟩
    let call : CallSite :=
      ⟨"send", [sink, sink, ⟨"q", ∅⟩], [.binary .typeCast x (.binary .typeConv u u .null) .null, sum, u, u], .null⟩
    let env : Env Taint := ⟨.ofList [("x", .clean)], false⟩
    (env.WellFormed ∧ env.isBottom = false ∧ ∀ e ∈ call.arguments, e.isProper = true) ∧
      (call.warningsReport env .null).failure = none ∧ 1 ∈ (call.warnings env).map (·.index) ∧
      (∀ i ∈ (call.warnings env).map (·.index), i = 1) ∧ call.warnings .bottom = [] := by
  intro x u trusted sum sink call env
  have hwf : env.WellFormed := by decide
  have h : env.isBottom = false := by decide
  have hproper : ∀ e ∈ call.arguments, e.isProper = true := by decide
  obtain ⟨hexact, hbottom⟩ := sink_check_exact
  obtain ⟨hreport, _, hindex, _⟩ := hexact env call hwf h hproper
  have hone := (hindex 1).mpr ⟨sink, sum, rfl, rfl, by decide, u, .tail _ (.head _), by decide⟩
  refine ⟨⟨hwf, h, hproper⟩, hreport .null, hone, fun i hi => ?_, (hbottom .bottom call rfl).1⟩
  obtain ⟨p, e, hp, he, hsink, a, ha, hsource⟩ := (hindex i).mp hi
  match i, hp, he with
  | 0, _, he =>
    cases he
    cases ha with
    | head => cases hsource
    | tail _ hnil => cases hnil
  | 1, _, _ => rfl
  | 2, hp, _ =>
    cases hp
    cases hsink

end CallSite

end ValueAnalysis
