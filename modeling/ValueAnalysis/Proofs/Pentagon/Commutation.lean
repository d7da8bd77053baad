import ValueAnalysis.Proofs.Bounds.Monotone
import ValueAnalysis.Proofs.Pentagon.Closed

/-! Assignments to different variables that do not read each other commute. In either order the state ends up with
the same two new intervals. Closing it after the first assignment records bounds that the second one can inherit
or find a difference positive by, but whatever it draws from them, the final intervals show as well. -/

namespace ValueAnalysis

lemma Env.evalNode_congr {L : Type} [EvalDomain L] {a b : Env L} {e : Expr}
    (h : ∀ x ∈ e.variables, a.get x = b.get x) : a.evalNode e = b.evalNode e := by
  induction e with
  | constant => rfl
  | identifier x => rw [evalNode, evalNode, h x.name (List.mem_singleton.mpr rfl)]
  | unknown => rfl
  | unary op a loc ih => simp only [evalNode, ih h]
  | binary op l r loc ihl ihr =>
    have hl := ihl fun x hx => h x (List.mem_append_left _ hx)
    have hr := ihr fun x hx => h x (List.mem_append_right _ hx)
    simp only [evalNode, hl, hr]
  | ternary op l m r loc ihl ihm ihr =>
    have hl := ihl fun x hx => h x (List.mem_append_left _ (List.mem_append_left _ hx))
    have hm := ihm fun x hx => h x (List.mem_append_left _ (List.mem_append_right _ hx))
    have hr := ihr fun x hx => h x (List.mem_append_right _ hx)
    simp only [evalNode, hl, hm, hr]
  | foreign => rfl

lemma Bounds.offsetSource_mem {target w : String} {e : Expr} (h : offsetSource? target e = some w) :
    w ∈ e.variables := by
  revert h
  fun_cases offsetSource? target e with
  | case1 z r loc c hc hcond | case4 l z loc c hc hcond | case7 z r loc _ c hc hcond =>
    intro h
    obtain rfl := Option.some.inj h
    simp [Expr.variables]
  | _ =>
    intro h
    cases h

namespace Interval

variable {a b : Interval}

lemma isEmpty_meet_left (h : a.isEmpty = true) (b : Interval) : (a.meet b).isEmpty = true := by
  rw [← Bool.not_eq_false] at h ⊢
  intro hne
  exact h (nonempty_of_leq (meet_leq_left a b) hne)

lemma meet_eq_left (h : a.leq b = true) : a.meet b = a :=
  leq_antisymm (meet_leq_left a b) (leq_meet (leq_refl a) h)

end Interval

namespace Env

variable {env : Env Interval} {e r : Expr}

lemma WellFormed.put_spec (henv : env.WellFormed) (h : env.isBottom = false) (x : String) (v : Interval) :
    (env.put x v).isBottom = v.isEmpty ∧
      (v.isEmpty = false → ∀ t, (env.put x v).get t = if t = x then v else env.get t) := by
  constructor
  · cases hv : v.isEmpty with
    | true =>
      rw [← Bool.not_eq_false]
      intro hput
      exact (henv.reachable_of_put hput).2 ((Interval.isEmpty_iff v).mp hv)
    | false => exact isBottom_put h ((Interval.ne_empty_iff v).mpr hv)
  · intro hv
    exact get_put_of_ne_bottom (reachable_of_isBottom h) ((Interval.ne_empty_iff v).mpr hv)

lemma mem_literal {k n : Int} (hr : r.integerLiteral? = some k) (hn : n ∈ env.evalNode r) : n = k := by
  cases r with
  | constant v loc =>
    have hv : Interval.evalConstant v = .singleton k := by
      simp only [Expr.integerLiteral?] at hr
      simp [Interval.evalConstant, hr]
    have hmem : n ∈ Interval.evalConstant v := hn
    rw [hv] at hmem
    exact Interval.mem_singleton.mp hmem
  | _ => cases hr

/-- A variable that gets another one less an offset gets nothing above that one. -/
lemma evalNode_offset_leq {target w : String} (h : Bounds.offsetSource? target e = some w) :
    (env.evalNode e).leq (.atMost (env.get w).high) = true := by
  have hbelow {m n : Int} (hm : m ∈ env.get w) (hle : n ≤ m) : n ∈ Interval.atMost (env.get w).high :=
    Interval.mem_atMost.mpr (ExtInt.le_trans ((ExtInt.fin_le_fin n m).mpr hle) hm.2)
  revert h
  fun_cases Bounds.offsetSource? target e with
  | case1 z r loc k hk hcond =>
    intro h
    obtain rfl := Option.some.inj h
    refine evalNode_binary_leq loc fun hl hr => Interval.evalBinary_sub_leq hl hr fun m hm n hn => ?_
    have hnk := mem_literal hk hn
    exact hbelow hm (by omega)
  | case4 l z loc k hk hcond =>
    intro h
    obtain rfl := Option.some.inj h
    refine evalNode_binary_leq loc fun hl hr => Interval.evalBinary_add_leq hl hr fun m hm n hn => ?_
    have hmk := mem_literal hk hm
    exact hbelow hn (by omega)
  | case7 z r loc _ k hk hcond =>
    intro h
    obtain rfl := Option.some.inj h
    refine evalNode_binary_leq loc fun hl hr => Interval.evalBinary_add_leq hl hr fun m hm n hn => ?_
    have hnk := mem_literal hk hn
    exact hbelow hm (by omega)
  | _ =>
    intro h
    cases h

lemma evalNode_difference_leq {y z : Identifier} (h : (env.get z.name).high < (env.get y.name).low) (loc : Value) :
    (env.evalNode (.binary .sub (.identifier y) (.identifier z) loc)).leq (.atLeast (.fin 1)) = true := by
  refine evalNode_binary_leq loc fun hl hr => Interval.evalBinary_sub_leq hl hr fun m hm n hn => ?_
  have hlt : n < m := Interval.lt_of_high_lt_low hn hm h
  exact Interval.mem_atLeast.mpr ((ExtInt.fin_le_fin 1 (m - n)).mpr (by omega))

end Env

namespace Pentagon

variable {p q : Pentagon} {x z : Identifier} {e f : Expr} {t w y : String}

/-- The interval that an assignment of `e` stores. -/
def assigned (p : Pentagon) (e : Expr) : Interval :=
  if isPositiveDifference p.bounds e then (p.intervals.evalNode e).meet (.atLeast (.fin 1))
  else p.intervals.evalNode e

lemma assigned_high_le (ha : (p.assigned e).isEmpty = false) (h : Bounds.offsetSource? t e = some w) :
    (p.assigned e).high ≤ (p.intervals.get w).high := by
  have heval : (p.assigned e).leq (p.intervals.evalNode e) = true := by
    rw [assigned]
    split
    · exact Interval.meet_leq_left _ _
    · exact Interval.leq_refl _
  have hle := Interval.leq_trans heval (Env.evalNode_offset_leq h)
  have hbound := ((Interval.leq_iff ha).mp hle).2
  rwa [Interval.atMost, (Interval.ofBounds_bounds (Interval.nonempty_of_leq hle ha)).2] at hbound

/-- A difference that only the intervals show to be positive evaluates to a positive interval anyway. -/
lemma assigned_of_orders {y z : Identifier} (h : p.Orders z.name y.name) (loc : Value) :
    p.assigned (.binary .sub (.identifier y) (.identifier z) loc) =
      (p.intervals.evalNode (.binary .sub (.identifier y) (.identifier z) loc)).meet (.atLeast (.fin 1)) := by
  rw [assigned]
  split
  · rfl
  · rename_i hd
    rcases h with hy | hlt
    · exact absurd (decide_eq_true hy) hd
    · exact (Interval.meet_eq_left (Env.evalNode_difference_leq hlt loc)).symm

lemma assigned_of_not_orders {y z : Identifier} (h : ¬ p.Orders z.name y.name) (loc : Value) :
    p.assigned (.binary .sub (.identifier y) (.identifier z) loc) =
      p.intervals.evalNode (.binary .sub (.identifier y) (.identifier z) loc) :=
  if_neg fun hd => h (.inl (of_decide_eq_true hd))

lemma assigned_congr (hi : ∀ u ∈ e.variables, q.intervals.get u = p.intervals.get u)
    (ho : ∀ u ∈ e.variables, ∀ v ∈ e.variables, q.Orders u v ↔ p.Orders u v) : q.assigned e = p.assigned e := by
  have heval : q.intervals.evalNode e = p.intervals.evalNode e := Env.evalNode_congr hi
  fun_cases isPositiveDifference p.bounds e with
  | case1 y z loc =>
    have hiff := ho z.name (by simp [Expr.variables]) y.name (by simp [Expr.variables])
    by_cases h : p.Orders z.name y.name
    · rw [assigned_of_orders h, assigned_of_orders (hiff.mpr h), heval]
    · rw [assigned_of_not_orders h, assigned_of_not_orders fun hq => h (hiff.mp hq), heval]
  | case2 hother =>
    simp only [assigned, isPositiveDifference, heval, Bool.false_eq_true, if_false]

lemma assign_of_reachable (hpb : p.isBottom = false) (x : Identifier) (e : Expr) :
    p.assign x e = (make (Bounds.assign p.bounds x e) (p.assignIntervals x e)).closure := by
  simp [assign, assignOpen, hpb]

/-- Assigning `e` to `x` puts `x` below `y` because `e` is a variable less an offset. -/
def Inherits (p : Pentagon) (x : String) (e : Expr) (y : String) : Prop :=
  ∃ w, Bounds.offsetSource? x e = some w ∧ (y = w ∨ y ∈ p.bounds.get w)

namespace WellFormed

section Assign

variable (hp : p.WellFormed) (hpb : p.isBottom = false)
include hp hpb

lemma assignIntervals_spec (x : Identifier) (e : Expr) :
    (p.assignIntervals x e).isBottom = (p.assigned e).isEmpty ∧
      ((p.assigned e).isEmpty = false → ∀ t, (p.assignIntervals x e).get t =
        if t = x.name then p.assigned e else p.intervals.get t) := by
  have hib := hp.isBottom_intervals.trans hpb
  have hassign : p.intervals.assign x e = p.intervals.put x.name (p.intervals.evalNode e) := by
    simp only [Env.assign, Env.eval, hib, Bool.false_eq_true, if_false]
  obtain ⟨hbottom, hget⟩ := hp.2.1.put_spec hib x.name (p.intervals.evalNode e)
  simp only [Pentagon.assignIntervals, assigned, hassign]
  split
  · cases hv : (p.intervals.evalNode e).isEmpty with
    | true =>
      rw [Interval.isEmpty_meet_left hv]
      refine ⟨?_, fun hne => by cases hne⟩
      rw [← Bool.not_eq_false]
      intro hput
      simp [((hp.2.1.put x.name _).reachable_of_put hput).1, hv] at hbottom
    | false =>
      rw [hget hv, if_pos rfl]
      obtain ⟨hbottom', hget'⟩ := (hp.2.1.put x.name _).put_spec (hbottom.trans hv) x.name
        ((p.intervals.evalNode e).meet (.atLeast (.fin 1)))
      refine ⟨hbottom', fun hne t => ?_⟩
      rw [hget' hne, hget hv]
      split <;> rfl
  · exact ⟨hbottom, hget⟩

lemma isBottom_assign (x : Identifier) (e : Expr) : (p.assign x e).isBottom = (p.assigned e).isEmpty := by
  rw [assign_of_reachable hpb, isBottom_closure_make (Bounds.wellFormed_assign hp.1 x e) (hp.assignIntervals x e)
    (Bounds.isBottom_assign hp.1 (hp.isBottom_bounds.trans hpb) x e)]
  exact (hp.assignIntervals_spec hpb x e).1

lemma get_intervals_assign (he : (p.assigned e).isEmpty = false) (t : String) :
    (p.assign x e).intervals.get t = if t = x.name then p.assigned e else p.intervals.get t := by
  obtain ⟨hbottom, hget⟩ := hp.assignIntervals_spec hpb x e
  rw [assign_of_reachable hpb, intervals_closure_make (Bounds.wellFormed_assign hp.1 x e)
    (hp.assignIntervals x e) (Bounds.isBottom_assign hp.1 (hp.isBottom_bounds.trans hpb) x e) (hbottom.trans he)]
  exact hget he t

lemma mem_bounds_assign (he : (p.assigned e).isEmpty = false) :
    y ∈ (p.assign x e).bounds.get t ↔
      y ≠ x.name ∧ (t ≠ x.name ∧ y ∈ p.bounds.get t ∨ t = x.name ∧ p.Inherits x.name e y) ∨
        ((p.assign x e).intervals.get t).high < ((p.assign x e).intervals.get y).low := by
  have hbounds := Bounds.isBottom_assign hp.1 (hp.isBottom_bounds.trans hpb) x e
  have hintervals := (hp.assignIntervals_spec hpb x e).1.trans he
  have hwf := Bounds.wellFormed_assign hp.1 x e
  rw [assign_of_reachable hpb, mem_closure_make hwf (hp.assignIntervals x e) hbounds hintervals,
    intervals_closure_make hwf (hp.assignIntervals x e) hbounds hintervals,
    Bounds.mem_assign (hp.isBottom_bounds.trans hpb)]
  rfl

lemma orders_assign_of_ne (he : (p.assigned e).isEmpty = false) (ht : t ≠ x.name) (hy : y ≠ x.name) :
    (p.assign x e).Orders t y ↔ p.Orders t y := by
  rw [Orders, hp.mem_bounds_assign hpb he, hp.get_intervals_assign hpb he, hp.get_intervals_assign hpb he,
    if_neg ht, if_neg hy, or_assoc, or_self, Orders]
  simp [ht, hy]

lemma assigned_assign (he : (p.assigned e).isEmpty = false) (hx : x.name ∉ f.variables) :
    (p.assign x e).assigned f = p.assigned f := by
  have hne {u : String} (hu : u ∈ f.variables) : u ≠ x.name := by
    rintro rfl
    exact hx hu
  apply assigned_congr
  · intro u hu
    rw [hp.get_intervals_assign hpb he, if_neg (hne hu)]
  · intro u hu v hv
    exact hp.orders_assign_of_ne hpb he (hne hu) (hne hv)

end Assign

section AssignTwice

variable (hp : p.WellFormed) (hpb : p.isBottom = false) (hxf : x.name ∉ f.variables)
include hp hpb hxf

lemma isBottom_assign_assign (e : Expr) (z : Identifier) :
    ((p.assign x e).assign z f).isBottom = ((p.assigned e).isEmpty || (p.assigned f).isEmpty) := by
  have hfirst := hp.isBottom_assign hpb x e
  cases he : (p.assigned e).isEmpty with
  | true =>
    rw [Pentagon.assign, if_pos (hfirst.trans he), hfirst, he]
    rfl
  | false =>
    rw [(hp.assign x e).isBottom_assign (hfirst.trans he), hp.assigned_assign hpb he hxf, Bool.false_or]

variable (he : (p.assigned e).isEmpty = false) (hf : (p.assigned f).isEmpty = false)
include he hf

lemma get_intervals_assign_assign (z : Identifier) (t : String) :
    ((p.assign x e).assign z f).intervals.get t =
      if t = z.name then p.assigned f else if t = x.name then p.assigned e else p.intervals.get t := by
  have hassigned := hp.assigned_assign hpb he hxf
  rw [(hp.assign x e).get_intervals_assign ((hp.isBottom_assign hpb x e).trans he) (hassigned ▸ hf), hassigned,
    hp.get_intervals_assign hpb he]

/-- The bounds after two assignments, without those that the first one was closed with. -/
lemma mem_bounds_assign_assign (hxz : x.name ≠ z.name) :
    y ∈ ((p.assign x e).assign z f).bounds.get t ↔
      y ≠ x.name ∧ y ≠ z.name ∧ (t ≠ x.name ∧ t ≠ z.name ∧ y ∈ p.bounds.get t ∨
        t = x.name ∧ p.Inherits x.name e y ∨ t = z.name ∧ p.Inherits z.name f y) ∨
      (((p.assign x e).assign z f).intervals.get t).high < (((p.assign x e).assign z f).intervals.get y).low := by
  have hassigned := hp.assigned_assign hpb he hxf
  have hget := hp.get_intervals_assign (x := x) hpb he
  have hfirst {u : String} := hp.mem_bounds_assign (x := x) (t := u) (y := y) hpb he
  have hsource {w : String} (hw : Bounds.offsetSource? z.name f = some w) : w ≠ x.name := by
    rintro rfl
    exact hxf (Bounds.offsetSource_mem hw)
  rw [(hp.assign x e).mem_bounds_assign ((hp.isBottom_assign hpb x e).trans he) (hassigned ▸ hf)]
  have hfinal := hp.get_intervals_assign_assign hpb hxf he hf z
  constructor
  · rintro (⟨hyz, ⟨htz, hy⟩ | ⟨rfl, w, hw, rfl | hy⟩⟩ | hlt)
    · rcases hfirst.mp hy with ⟨hyx, ⟨htx, hy⟩ | ⟨htx, hy⟩⟩ | hlt
      · exact .inl ⟨hyx, hyz, .inl ⟨htx, htz, hy⟩⟩
      · exact .inl ⟨hyx, hyz, .inr (.inl ⟨htx, hy⟩)⟩
      · -- The intervals of both variables are still those that the first closing compared.
        right
        rwa [hfinal, hfinal, if_neg htz, if_neg hyz, ← hget, ← hget]
    · exact .inl ⟨hsource hw, hyz, .inr (.inr ⟨rfl, _, hw, .inl rfl⟩)⟩
    · rcases hfirst.mp hy with ⟨hyx, ⟨_, hy⟩ | ⟨hwx, _⟩⟩ | hlt
      · exact .inl ⟨hyx, hyz, .inr (.inr ⟨rfl, w, hw, .inr hy⟩)⟩
      · exact absurd hwx (hsource hw)
      · -- A bound of `w` that its interval shows is one of `z`, whose interval ends no higher.
        right
        rw [hget, if_neg (hsource hw)] at hlt
        rw [hfinal, hfinal, if_pos rfl, if_neg hyz, ← hget]
        exact ExtInt.lt_of_le_of_lt (assigned_high_le hf hw) hlt
    · exact .inr hlt
  · rintro (⟨hyx, hyz, ⟨htx, htz, hy⟩ | ⟨rfl, hy⟩ | ⟨rfl, w, hw, hy⟩⟩ | hlt)
    · exact .inl ⟨hyz, .inl ⟨htz, hfirst.mpr (.inl ⟨hyx, .inl ⟨htx, hy⟩⟩)⟩⟩
    · exact .inl ⟨hyz, .inl ⟨hxz, hfirst.mpr (.inl ⟨hyx, .inr ⟨rfl, hy⟩⟩)⟩⟩
    · refine .inl ⟨hyz, .inr ⟨rfl, w, hw, hy.imp_right fun hy => ?_⟩⟩
      exact hfirst.mpr (.inl ⟨hyx, .inl ⟨hsource hw, hy⟩⟩)
    · exact .inr hlt

end AssignTwice

end WellFormed

theorem independent_assignments_commute (hp : p.WellFormed) (hxz : x.name ≠ z.name) (hze : z.name ∉ e.variables)
    (hxf : x.name ∉ f.variables) : ((p.assign x e).assign z f).same ((p.assign z f).assign x e) = true := by
  have hwf := (hp.assign x e).assign z f
  have hwf' := (hp.assign z f).assign x e
  cases hpb : p.isBottom with
  | true =>
    have hassign : ∀ v g, p.assign v g = p := fun v g => if_pos hpb
    simp only [hassign]
    exact hp.same_refl
  | false =>
    have hb := hp.isBottom_assign_assign hpb hxf e z
    have hb' := hp.isBottom_assign_assign hpb hze f x
    rw [Bool.or_comm] at hb'
    cases h : ((p.assigned e).isEmpty || (p.assigned f).isEmpty) with
    | true => exact hwf.same_of_isBottom hwf' (hb.trans h) (hb'.trans h)
    | false =>
      obtain ⟨he, hf⟩ := Bool.or_eq_false_iff.mp h
      have hget : ∀ t, ((p.assign x e).assign z f).intervals.get t = ((p.assign z f).assign x e).intervals.get t := by
        intro t
        rw [hp.get_intervals_assign_assign hpb hxf he hf, hp.get_intervals_assign_assign hpb hze hf he]
        by_cases htz : t = z.name
        · rw [if_pos htz, if_neg fun htx => hxz (htx.symm.trans htz), if_pos htz]
        · rw [if_neg htz, if_neg htz]
      refine (hwf.same_iff_get hwf').mpr ⟨hb.trans hb'.symm, fun t => ⟨?_, hget t⟩⟩
      apply BoundSet.ext (hwf.bounds_ne (hb.trans h) t) (hwf'.bounds_ne (hb'.trans h) t)
      intro y
      rw [hp.mem_bounds_assign_assign hpb hxf he hf hxz, hp.mem_bounds_assign_assign hpb hze hf he hxz.symm,
        hget, hget, and_left_comm (a := y ≠ x.name), and_left_comm (a := t ≠ x.name),
        or_comm (a := t = x.name ∧ _)]

/-- The state is not closed. Whichever assignment comes second finds more bounds recorded than the first did: `z`
gets a difference that only then is known to be positive, and `x` inherits a bound of `y`. -/
theorem independent_assignments_commute_unclosed :
    let p : Pentagon := ⟨⟨.ofList [("y", .singleton "u")], false⟩,
      ⟨.ofList [("y", .ofBounds (.fin 0) (.fin 1)), ("v", .ofBounds (.fin 5) (.fin 9)),
        ("w", .ofBounds (.fin 0) (.fin 2))], false⟩⟩
    let x : Identifier := ⟨"x", ∅, .null⟩
    let z : Identifier := ⟨"z", ∅, .null⟩
    let e : Expr := .binary .sub (.identifier ⟨"y", ∅, .null⟩) (.constant (.int 1) .null) .null
    let f : Expr := .binary .sub (.identifier ⟨"v", ∅, .null⟩) (.identifier ⟨"w", ∅, .null⟩) .null
    (p.WellFormed ∧ x.name ≠ z.name ∧ z.name ∉ e.variables ∧ x.name ∉ f.variables) ∧
      ("v" ∉ p.bounds.get "w" ∧ "v" ∈ (p.assign x e).bounds.get "w") ∧
      ("v" ∉ p.bounds.get "y" ∧ "v" ∈ (p.assign z f).bounds.get "y") ∧
      (((p.assign x e).assign z f).intervals.get "x" = .ofBounds (.fin (-1)) (.fin 0) ∧
        ((p.assign x e).assign z f).intervals.get "z" = .ofBounds (.fin 3) (.fin 9) ∧
        ((p.assign x e).assign z f).bounds.get "x" = .above (.ofList ["u", "v", "y", "z"])) ∧
      ((p.assign x e).assign z f).same ((p.assign z f).assign x e) = true := by
  intro p x z e f
  have hp : p.WellFormed := by decide
  have hxz : x.name ≠ z.name := by decide
  have hze : z.name ∉ e.variables := by decide
  have hxf : x.name ∉ f.variables := by decide
  exact ⟨⟨hp, hxz, hze, hxf⟩, by decide +kernel, by decide +kernel, by decide +kernel,
    independent_assignments_commute hp hxz hze hxf⟩

end Pentagon

end ValueAnalysis
