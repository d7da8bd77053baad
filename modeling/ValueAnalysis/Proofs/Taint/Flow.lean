import ValueAnalysis.Proofs.Taint.Lattice
import ValueAnalysis.Semantics.Flow

/-! Clean means independent of what comes from outside. Two runs of the same assignments that start from equal
values at the clean variables, and read equal values at the trusted ones, end in equal values wherever the
environment says clean, and pass equal values to every sink that is not warned about. -/

namespace ValueAnalysis

universe u

variable {V : Type u} {I : Interpretation V} {env : Env Taint} {s t : Valuation V}

namespace Taint

variable {a b : Taint}

lemma not_isSource_of_clean {x : Identifier} (h : evalIdentifier x a = .clean) : x.isSource = false := by
  cases hs : x.isSource with
  | false => rfl
  | true =>
    have htainted : evalIdentifier x a = .tainted := if_pos hs
    rw [htainted] at h
    cases h

lemma evalIdentifier_of_stored {x : Identifier} (hs : x.isSource = false) (ht : x.isTrusted = false)
    (a : Taint) : evalIdentifier x a = a := by
  have hclean : x.isMarked cleanMark = false := by
    simpa [Identifier.isTrusted, hs] using ht
  have hsource : x.isMarked taintedMark = false := hs
  simp [evalIdentifier, hsource, hclean]

lemma evalIdentifier_ne_bottom (x : Identifier) (ha : a ≠ .bottom) : evalIdentifier x a ≠ .bottom := by
  rw [evalIdentifier]
  split
  · exact nofun
  · split
    · exact nofun
    · exact ha

lemma join_ne_bottom (ha : a ≠ .bottom) (b : Taint) : a.join b ≠ .bottom :=
  fun h => ha ((join_eq_bottom_iff a b).mp h).1

lemma clean_of_join (ha : a ≠ .bottom) (hb : b ≠ .bottom) (h : a.join b = .clean) : a = .clean ∧ b = .clean := by
  cases a <;> cases b <;> simp_all [join]

lemma evalBinary_of_isCast {op : BinaryOp} (h : op.isCast = true) (a b : Taint) : evalBinary op a b = a := by
  cases op <;> first | rfl | cases h

lemma evalBinary_of_not_isCast {op : BinaryOp} (h : op.isCast = false) (a b : Taint) :
    evalBinary op a b = a.join b := by
  cases op <;> first | rfl | cases h

lemma evalBinary_ne_bottom (op : BinaryOp) (ha : a ≠ .bottom) (b : Taint) : evalBinary op a b ≠ .bottom := by
  cases hop : op.isCast with
  | true => rwa [evalBinary_of_isCast hop]
  | false =>
    rw [evalBinary_of_not_isCast hop]
    exact join_ne_bottom ha b

end Taint

namespace Env

lemma evalNode_ne_bottom (h : env.isBottom = false) (e : Expr) : env.evalNode e ≠ .bottom := by
  induction e with
  | constant => exact nofun
  | identifier x => exact Taint.evalIdentifier_ne_bottom x (get_ne_bottom h x.name)
  | unknown => exact nofun
  | unary op a loc ih =>
    rw [evalNode]
    split
    · exact ih
    · exact ih
  | binary op l r loc ihl ihr =>
    simp only [evalNode]
    split
    · exact ihl
    · split
      · exact ihr
      · exact Taint.evalBinary_ne_bottom op ihl _
  | ternary op l m r loc ihl ihm ihr =>
    rw [evalNode]
    split
    · exact ihl
    · split
      · exact ihm
      · split
        · exact ihr
        · exact Taint.join_ne_bottom (Taint.join_ne_bottom ihl _) _
  | foreign => exact nofun

lemma isBottom_evalNode (h : env.isBottom = false) (e : Expr) : AbstractDomain.isBottom (env.evalNode e) = false :=
  (LawfulDomain.isBottom_eq_false_iff _).mpr (evalNode_ne_bottom h e)

lemma eval_eq_evalNode (h : env.isBottom = false) (e : Expr) : env.eval e = env.evalNode e := by
  simp [eval, h]

lemma evalNode_unary (h : env.isBottom = false) (op : UnaryOp) (a : Expr) (loc : Value) :
    env.evalNode (.unary op a loc) = env.evalNode a := by
  rw [evalNode, isBottom_evalNode h]
  rfl

lemma evalNode_binary (h : env.isBottom = false) (op : BinaryOp) (l r : Expr) (loc : Value) :
    env.evalNode (.binary op l r loc) = Taint.evalBinary op (env.evalNode l) (env.evalNode r) := by
  simp only [evalNode, isBottom_evalNode h]
  rfl

lemma evalNode_ternary (h : env.isBottom = false) (op : TernaryOp) (l m r : Expr) (loc : Value) :
    env.evalNode (.ternary op l m r loc) =
      Taint.evalTernary op (env.evalNode l) (env.evalNode m) (env.evalNode r) := by
  rw [evalNode, isBottom_evalNode h, isBottom_evalNode h, isBottom_evalNode h]
  rfl

lemma isBottom_assign (h : env.isBottom = false) (x : Identifier) (e : Expr) :
    (env.assign x e).isBottom = false := by
  simp only [assign, h, Bool.false_eq_true, if_false]
  rw [eval_eq_evalNode h]
  exact isBottom_put h (evalNode_ne_bottom h e)

lemma get_assign (h : env.isBottom = false) (x : Identifier) (e : Expr) (z : String) :
    (env.assign x e).get z = if z = x.name then env.evalNode e else env.get z := by
  simp only [assign, h, Bool.false_eq_true, if_false]
  rw [eval_eq_evalNode h]
  exact get_put_of_ne_bottom (reachable_of_isBottom h) (evalNode_ne_bottom h e) z

lemma isBottom_assignAll (h : env.isBottom = false) (as : List (Identifier × Expr)) :
    (env.assignAll as).isBottom = false := by
  induction as generalizing env with
  | nil => exact h
  | cons a as ih => exact ih (isBottom_assign h a.1 a.2)

end Env

namespace Interpretation

variable {e : Expr} {v w : V} {reads reads' rest rest' : List V}

lemma not_isTrusted {x : Identifier} (h : x.isSource = true) : x.isTrusted ≠ true := by
  simp [Identifier.isTrusted, h]

lemma Evaluates.length_reads (hv : I.Evaluates s e reads v) (hw : I.Evaluates t e reads' w) :
    reads.length = reads'.length := by
  induction hv generalizing reads' w with
  | constant => cases hw; rfl
  | source h =>
    cases hw with
    | source => rfl
    | trusted h' => exact absurd h' (not_isTrusted h)
    | stored => rfl
  | trusted h =>
    cases hw with
    | source h' => exact absurd h (not_isTrusted h')
    | trusted => rfl
    | stored _ h' => rw [h] at h'; cases h'
  | stored _ h =>
    cases hw with
    | source => rfl
    | trusted h' => rw [h] at h'; cases h'
    | stored => rfl
  | unknown => cases hw; rfl
  | unary _ _ _ ih =>
    cases hw with
    | unary _ _ ha => exact ih ha
  | binary _ _ _ _ ihl ihr =>
    cases hw with
    | binary _ _ hl hr => rw [List.length_append, List.length_append, ihl hl, ihr hr]
  | ternary _ _ _ _ _ ihl ihm ihr =>
    cases hw with
    | ternary _ _ hl hm hr => simp only [List.length_append, ihl hl, ihm hm, ihr hr]

lemma Evaluates.reads_inj (hv : I.Evaluates s e reads v) (hw : I.Evaluates t e reads' w)
    (h : reads ++ rest = reads' ++ rest') : reads = reads' ∧ rest = rest' :=
  List.append_inj h (hv.length_reads hw)

lemma evaluates_trusted {x : Identifier} (ht : x.isTrusted = true) (h : I.Evaluates s (.identifier x) reads v) :
    reads = [v] := by
  cases h with
  | source hs => exact absurd ht (not_isTrusted hs)
  | trusted => rfl
  | stored _ hn =>
    rw [ht] at hn
    cases hn

lemma evaluates_stored {x : Identifier} (hs : x.isSource = false) (ht : x.isTrusted = false)
    (h : I.Evaluates s (.identifier x) reads v) : v = s x.name := by
  cases h with
  | source hn =>
    rw [hs] at hn
    cases hn
  | trusted hn =>
    rw [ht] at hn
    cases hn
  | stored => rfl

lemma evaluates_binary {op : BinaryOp} {l r : Expr} {loc : Value}
    (h : I.Evaluates s (.binary op l r loc) reads v) :
    ∃ readsL readsR x y, reads = readsL ++ readsR ∧ v = I.binary op x y ∧
      I.Evaluates s l readsL x ∧ I.Evaluates s r readsR y := by
  cases h with
  | binary _ _ hl hr => exact ⟨_, _, _, _, rfl, rfl, hl, hr⟩

lemma evaluates_ternary {op : TernaryOp} {l m r : Expr} {loc : Value}
    (h : I.Evaluates s (.ternary op l m r loc) reads v) :
    ∃ readsL readsM readsR x y z, reads = readsL ++ (readsM ++ readsR) ∧ v = I.ternary op x y z ∧
      I.Evaluates s l readsL x ∧ I.Evaluates s m readsM y ∧ I.Evaluates s r readsR z := by
  cases h with
  | ternary _ _ hl hm hr => exact ⟨_, _, _, _, _, _, List.append_assoc _ _ _, rfl, hl, hm, hr⟩

lemma run_cons {x : Identifier} {as : List (Identifier × Expr)} (h : I.Run ((x, e) :: as) s reads t) :
    ∃ readsE readsA v, reads = readsE ++ readsA ∧ I.Evaluates s e readsE v ∧
      I.Run as (s.set x.name v) readsA t := by
  cases h with
  | cons he hr => exact ⟨_, _, _, rfl, he, hr⟩

lemma Evaluates.eq_of_clean (h : env.isBottom = false) (hst : env.Agree s t) (hv : I.Evaluates s e reads v)
    (hw : I.Evaluates t e reads w) (hclean : env.evalNode e = .clean) : v = w := by
  induction e generalizing reads v w with
  | constant c loc =>
    cases hv
    cases hw
    rfl
  | identifier x =>
    have hs : x.isSource = false := Taint.not_isSource_of_clean hclean
    cases ht : x.isTrusted with
    | true =>
      have hread : [v] = [w] := (evaluates_trusted ht hv).symm.trans (evaluates_trusted ht hw)
      exact List.head_eq_of_cons_eq hread
    | false =>
      have hstored : env.get x.name = .clean := (Taint.evalIdentifier_of_stored hs ht _).symm.trans hclean
      rw [evaluates_stored hs ht hv, evaluates_stored hs ht hw]
      exact hst x.name hstored
  | unknown loc => cases hclean
  | unary op a loc ih =>
    cases hv with
    | unary _ _ ha =>
      cases hw with
      | unary _ _ hb =>
        rw [Env.evalNode_unary h] at hclean
        rw [ih ha hb hclean]
  | binary op l r loc ihl ihr =>
    obtain ⟨readsL, readsR, x, y, rfl, rfl, hl, hr⟩ := evaluates_binary hv
    obtain ⟨readsL', readsR', x', y', hreads, rfl, hl', hr'⟩ := evaluates_binary hw
    -- Both records begin with what the left operand read, so they come apart at the same place.
    obtain ⟨rfl, rfl⟩ := hl.reads_inj hl' hreads
    rw [Env.evalNode_binary h] at hclean
    cases hop : op.isCast with
    | true =>
      -- The right operand can be tainted and differ, so only the left one is compared.
      rw [Taint.evalBinary_of_isCast hop] at hclean
      rw [ihl hl hl' hclean]
      exact I.cast_right hop x' y y'
    | false =>
      rw [Taint.evalBinary_of_not_isCast hop] at hclean
      obtain ⟨hcl, hcr⟩ := Taint.clean_of_join (Env.evalNode_ne_bottom h l) (Env.evalNode_ne_bottom h r) hclean
      rw [ihl hl hl' hcl, ihr hr hr' hcr]
  | ternary op l m r loc ihl ihm ihr =>
    obtain ⟨readsL, readsM, readsR, x, y, z, rfl, rfl, hl, hm, hr⟩ := evaluates_ternary hv
    obtain ⟨readsL', readsM', readsR', x', y', z', hreads, rfl, hl', hm', hr'⟩ := evaluates_ternary hw
    obtain ⟨rfl, hrest⟩ := hl.reads_inj hl' hreads
    obtain ⟨rfl, rfl⟩ := hm.reads_inj hm' hrest
    rw [Env.evalNode_ternary h, Taint.evalTernary] at hclean
    have hnl := Env.evalNode_ne_bottom h l
    obtain ⟨hclean, hcr⟩ :=
      Taint.clean_of_join (Taint.join_ne_bottom hnl _) (Env.evalNode_ne_bottom h r) hclean
    obtain ⟨hcl, hcm⟩ := Taint.clean_of_join hnl (Env.evalNode_ne_bottom h m) hclean
    rw [ihl hl hl' hcl, ihm hm hm' hcm, ihr hr hr' hcr]
  | foreign => cases hv

/-- One step of both runs. A variable that gets a clean value gets the same one twice. -/
lemma Evaluates.agree_assign (h : env.isBottom = false) (hst : env.Agree s t) (x : Identifier)
    (hv : I.Evaluates s e reads v) (hw : I.Evaluates t e reads w) :
    (env.assign x e).Agree (s.set x.name v) (t.set x.name w) := by
  intro z hz
  rw [Env.get_assign h] at hz
  by_cases hzx : z = x.name
  · subst hzx
    rw [if_pos rfl] at hz
    rw [Valuation.set_self, Valuation.set_self]
    exact hv.eq_of_clean h hst hw hz
  · rw [if_neg hzx] at hz
    rw [Valuation.set_ne s v hzx, Valuation.set_ne t w hzx]
    exact hst z hz

lemma Run.agree {as : List (Identifier × Expr)} {s' t' : Valuation V} (h : env.isBottom = false)
    (hst : env.Agree s t) (hs : I.Run as s reads s') (ht : I.Run as t reads t') :
    (env.assignAll as).Agree s' t' := by
  induction as generalizing env s t reads with
  | nil =>
    cases hs
    cases ht
    exact hst
  | cons a as ih =>
    obtain ⟨readsE, readsA, v, rfl, hv, hs⟩ := run_cons hs
    obtain ⟨readsE', readsA', w, hreads, hw, ht⟩ := run_cons ht
    obtain ⟨rfl, rfl⟩ := hv.reads_inj hw hreads
    exact ih (Env.isBottom_assign h a.1 a.2) (hv.agree_assign h hst a.1 hw) hs ht

end Interpretation

namespace CallSite

variable {call : CallSite}

lemma mem_bindings {p : Parameter} {e : Expr} {i : Nat} :
    ((p, e), i) ∈ call.bindings ↔ call.parameters[i]? = some p ∧ call.arguments[i]? = some e := by
  rw [bindings, List.mem_zipIdx_iff_getElem?, List.getElem?_zip_eq_some]

lemma mem_warnings {w : SinkWarning} :
    w ∈ call.warnings env ↔
      w.call = call ∧ w.parameter.isSink = true ∧ call.parameters[w.index]? = some w.parameter ∧
        ∃ e, call.arguments[w.index]? = some e ∧ env.eval e = .tainted := by
  rw [warnings, List.mem_filterMap]
  constructor
  · rintro ⟨⟨⟨p, e⟩, i⟩, hb, hw⟩
    obtain ⟨hp, he⟩ := mem_bindings.mp hb
    split at hw
    · rename_i hsink
      obtain ⟨hsink, htaint⟩ := (Bool.and_eq_true_iff).mp hsink
      cases hw
      exact ⟨rfl, hsink, hp, e, he, beq_iff_eq.mp htaint⟩
    · cases hw
  · obtain ⟨called, i, p⟩ := w
    rintro ⟨rfl, hsink, hp, e, he, htaint⟩
    refine ⟨((p, e), i), mem_bindings.mpr ⟨hp, he⟩, ?_⟩
    simp only at hsink
    rw [hsink, htaint]
    rfl

lemma eval_ne_tainted {i : Nat} {p : Parameter} {e : Expr} (hp : call.parameters[i]? = some p)
    (he : call.arguments[i]? = some e) (hsink : p.isSink = true)
    (hquiet : ∀ w ∈ call.warnings env, w.index ≠ i) : env.eval e ≠ .tainted := by
  intro htaint
  have hw : (⟨call, i, p⟩ : SinkWarning) ∈ call.warnings env :=
    mem_warnings.mpr ⟨rfl, hsink, hp, e, he, htaint⟩
  exact hquiet _ hw rfl

end CallSite

namespace Env

lemma eval_clean {e : Expr} (h : env.isBottom = false) (he : env.eval e ≠ .tainted) : env.evalNode e = .clean := by
  rw [eval_eq_evalNode h] at he
  cases hv : env.evalNode e with
  | bottom => exact absurd hv (evalNode_ne_bottom h e)
  | clean => rfl
  | tainted => exact absurd hv he

theorem explicit_flow_noninterference (h : env.isBottom = false) {as : List (Identifier × Expr)}
    {reads : List V} {s' t' : Valuation V} (hst : env.Agree s t) (hs : I.Run as s reads s')
    (ht : I.Run as t reads t') :
    (env.assignAll as).Agree s' t' ∧
      ∀ (call : CallSite) (i : Nat) (p : Parameter) (e : Expr), call.parameters[i]? = some p →
        call.arguments[i]? = some e → p.isSink = true →
        (∀ w ∈ call.warnings (env.assignAll as), w.index ≠ i) →
        ∀ (argumentReads : List V) (v w : V), I.Evaluates s' e argumentReads v →
          I.Evaluates t' e argumentReads w → v = w := by
  have hagree := hs.agree h hst ht
  have hreach := isBottom_assignAll h as
  refine ⟨hagree, ?_⟩
  intro call i p e hp he hsink hquiet argumentReads v w hv hw
  have hclean := eval_clean hreach (CallSite.eval_ne_tainted hp he hsink hquiet)
  exact hv.eq_of_clean hreach hagree hw hclean

/-- The runs differ in the type that a cast names, which it does not read, and in a variable overwritten with an
unknown value, which is warned about. -/
theorem explicit_flow_noninterference_cast :
    let I : Interpretation Int :=
      ⟨fun c => c.integerLiteral?.getD 0, fun _ v => -v, fun op v w => if op.isCast then v else v + w,
        fun _ v w k => v + w + k, fun h _ _ _ => by simp [h]⟩
    let x : Identifier := ⟨"x", ∅, .null⟩
    let z : Identifier := ⟨"z", ∅, .null⟩
    let sum : Expr := .binary .add (.identifier x) (.identifier ⟨"c", .ofList ["taint.Clean"], .null⟩) .null
    let as : List (Identifier × Expr) :=
      [(z, .binary .typeCast sum (.identifier ⟨"u", ∅, .null⟩) .null), (x, .unknown .null)]
    let env : Env Taint := ⟨.ofList [("x", .clean)], false⟩
    let s : Valuation Int := fun v => if v = "u" then 5 else 1
    let t : Valuation Int := fun v => if v = "u" then 9 else 1
    let argument : Expr := .binary .add (.identifier z) (.constant (.int 1) .null) .null
    let sink : Parameter := ⟨"p", .ofList ["taint.Sink"]⟩
    let call : CallSite := ⟨"send", [sink, sink], [.identifier x, argument], .null⟩
    let s' := (s.set "z" 8).set "x" 0
    let t' := (t.set "z" 8).set "x" 3
    env.isBottom = false ∧ env.Agree s t ∧ I.Run as s [7] s' ∧ I.Run as t [7] t' ∧
      (call.warnings (env.assignAll as)).map (·.index) = [0] ∧ (env.assignAll as).Agree s' t' ∧
      ∀ v w, I.Evaluates s' argument [] v → I.Evaluates t' argument [] w → v = w := by
  intro I x z sum as env s t argument sink call s' t'
  have h : env.isBottom = false := by decide
  have hst : env.Agree s t := by
    have hreach : env.unreachable = false := rfl
    refine (forall_get_iff (P := fun y a => a = Taint.clean → s y = t y) hreach fun y hy => ?_).mpr ?_
    · cases hy
    · decide
  have hrun {r : Valuation Int} (hr : r "x" = 1) (n : Int) : I.Run as r [7] ((r.set "z" 8).set "x" n) := by
    have hsum : I.Evaluates r sum [7] 8 := by
      have hx : I.Evaluates r (.identifier x) [] (r "x") := .stored (by decide) (by decide)
      rw [hr] at hx
      exact .binary .add .null hx (.trusted (by decide) 7)
    have hcast := hsum.binary .typeCast .null (.stored (x := ⟨"u", ∅, .null⟩) (by decide) (by decide))
    exact .cons hcast (.cons (.unknown .null n) (.nil _))
  have hwarnings : (call.warnings (env.assignAll as)).map (·.index) = [0] := by decide
  have hs : I.Run as s [7] s' := hrun rfl 0
  have ht : I.Run as t [7] t' := hrun rfl 3
  obtain ⟨hagree, hcalls⟩ := explicit_flow_noninterference h hst hs ht
  refine ⟨h, hst, hs, ht, hwarnings, hagree, hcalls call 1 sink argument rfl rfl (by decide) ?_ []⟩
  intro w hw hindex
  have hmem : w.index ∈ (call.warnings (env.assignAll as)).map (·.index) := List.mem_map_of_mem hw
  rw [hwarnings, hindex] at hmem
  cases List.mem_singleton.mp hmem

end Env

end ValueAnalysis
