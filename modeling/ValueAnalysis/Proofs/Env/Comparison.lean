import ValueAnalysis.Proofs.Env.Monotone
import ValueAnalysis.Proofs.Env.Stores

/-! Comparisons over interval environments are exact. The answer to a comparison of two intervals is definite just
when all pairs of members agree, and assuming a comparison between independent operands keeps, for every variable,
just the values that some store gives it where the comparison holds. -/

namespace ValueAnalysis

/-- Two operands whose values do not restrict each other: different variables, or a variable and a literal. -/
inductive Expr.Independent : Expr → Expr → Prop where
  | names {x y : Identifier} (h : x.name ≠ y.name) : Independent (.identifier x) (.identifier y)
  | literalRight (x : Identifier) (n : Int) (loc : Value) : Independent (.identifier x) (.constant (.int n) loc)
  | literalLeft (n : Int) (loc : Value) (y : Identifier) : Independent (.constant (.int n) loc) (.identifier y)

lemma Expr.Independent.name_ne {x y : Identifier} (h : Expr.Independent (.identifier x) (.identifier y)) :
    x.name ≠ y.name := by
  cases h with
  | names hne => exact hne

lemma BinaryOp.swapped_ne_ne {op : BinaryOp} (h : op ≠ .ne) : op.swapped ≠ .ne := by
  cases op <;> simp_all [BinaryOp.swapped]

lemma Store.set_eq_of_eq {s : Store} {x v : String} {i n : Int} (hs : s v = n) (hx : v = x → i = n) :
    s.set x i v = n := by
  by_cases hv : v = x
  · rw [← hv, Store.set_self]
    exact hx hv
  · rw [Store.set_ne s i hv]
    exact hs

lemma Evaluates.of_eq {s : Store} {x : Identifier} {n : Int} (h : s x.name = n) : Evaluates s (.identifier x) n := by
  subst h
  exact .identifier x

lemma Interval.exists_refined {op : BinaryOp} (ho : op.isComparison = true) (hne : op ≠ .ne) (a b : Interval) :
    ∃ r, refined? op a b = some r := by
  cases op <;> simp_all [BinaryOp.isComparison, refined?]

namespace Env

variable {env : Env Interval} {s : Store} {x v : String} {op : BinaryOp} {u w : Expr} {m n k : Int}

lemma mem_of_mem_put {a : Interval} (h : n ∈ (env.put x a).get v) : if v = x then n ∈ a else n ∈ env.get v := by
  cases hu : env.unreachable with
  | true =>
    have hput : env.put x a = env := by simp only [put, hu, if_true]
    rw [hput, get_of_unreachable hu] at h
    exact absurd h (Interval.not_mem_empty n)
  | false =>
    cases ha : a.isEmpty with
    | true =>
      have hput : env.put x a = .bottom := by
        simp only [put, hu, Bool.false_eq_true, if_false]
        exact if_pos ha
      rw [hput] at h
      exact absurd h (Interval.not_mem_empty n)
    | false =>
      rw [get_put_of_ne_bottom hu ((Interval.ne_empty_iff a).mpr ha)] at h
      split at h
      · rwa [if_pos ‹_›]
      · rwa [if_neg ‹_›]

section Refinement

variable (ho : op.isComparison = true) (hne : op ≠ .ne)
include ho hne

lemma mem_of_mem_refineVariable {bound : Interval} (h : n ∈ (Interval.refineVariable env x op bound).get v) :
    n ∈ env.get v ∧ (v = x → ∃ k ∈ bound, op.holds n k = true) := by
  cases hb : bound.isEmpty with
  | true =>
    simp only [Interval.refineVariable, hb, if_true] at h
    exact absurd h (Interval.not_mem_empty n)
  | false =>
    obtain ⟨r, hr⟩ := Interval.exists_refined ho hne (env.get x) bound
    simp only [Interval.refineVariable, hb, hr] at h
    have hmem := mem_of_mem_put h
    split at hmem
    · obtain ⟨hx, hk⟩ := (Interval.mem_refined_iff hb hr).mp hmem
      subst v
      exact ⟨hx, fun _ => hk⟩
    · exact ⟨hmem, fun hv => absurd hv ‹_›⟩

lemma mem_of_mem_refineLeft (h : n ∈ (Interval.refineLeft env op u w).get v) :
    n ∈ env.get v ∧ ∀ x : Identifier, u = .identifier x → v = x.name → ∃ k ∈ env.eval w, op.holds n k = true := by
  cases u with
  | identifier x =>
    obtain ⟨hv, hk⟩ := mem_of_mem_refineVariable ho hne h
    refine ⟨hv, ?_⟩
    rintro _ ⟨rfl⟩
    exact hk
  | _ => exact ⟨h, fun x hx => by cases hx⟩

lemma mem_of_mem_assumeBinary (h : n ∈ (Interval.assumeBinary env op u w).get v) :
    n ∈ env.get v ∧
    (∀ x : Identifier, u = .identifier x → v = x.name → ∃ k ∈ env.eval w, op.holds n k = true) ∧
    ∀ y : Identifier, w = .identifier y → v = y.name → ∃ k ∈ env.eval u, op.holds k n = true := by
  simp only [Interval.assumeBinary, ho, if_true] at h
  cases w with
  | identifier y =>
    have hright := mem_of_mem_refineVariable (op.isComparison_swapped.trans ho) (BinaryOp.swapped_ne_ne hne) h
    simp only [BinaryOp.holds_swapped] at hright
    obtain ⟨hleft, hk⟩ := hright
    obtain ⟨hv, hx⟩ := mem_of_mem_refineLeft ho hne hleft
    refine ⟨hv, hx, ?_⟩
    rintro _ ⟨rfl⟩
    exact hk
  | _ =>
    obtain ⟨hv, hx⟩ := mem_of_mem_refineLeft ho hne h
    exact ⟨hv, hx, fun y hy => by cases hy⟩

end Refinement

lemma eval_identifier (h : env.isBottom = false) (x : Identifier) : env.eval (.identifier x) = env.get x.name := by
  simp only [eval, h]
  rfl

lemma nonempty_eval_identifier (h : env.isBottom = false) (x : Identifier) :
    (env.eval (.identifier x)).isEmpty = false := by
  rw [eval_identifier h]
  exact (Interval.ne_empty_iff _).mp (get_ne_bottom h x.name)

lemma eval_literal (h : env.isBottom = false) (n : Int) (loc : Value) :
    env.eval (.constant (.int n) loc) = .singleton n := by
  simp only [eval, h]
  rfl

lemma nonempty_eval (hi : u.Independent w) (h : env.isBottom = false) :
    (env.eval u).isEmpty = false ∧ (env.eval w).isEmpty = false := by
  have hvar := nonempty_eval_identifier h
  have hlit (n : Int) (loc : Value) : (env.eval (.constant (.int n) loc)).isEmpty = false := by
    rw [eval_literal h]
    exact Interval.nonempty_of_mem (Interval.mem_singleton.mpr rfl)
  cases hi with
  | names _ => exact ⟨hvar _, hvar _⟩
  | literalRight x n loc => exact ⟨hvar x, hlit n loc⟩
  | literalLeft n loc y => exact ⟨hlit n loc, hvar y⟩

lemma exists_models_operands (hi : u.Independent w) (h : env.isBottom = false) (hm : m ∈ env.eval u)
    (hk : k ∈ env.eval w) (hn : n ∈ env.get v) (hu : ∀ x : Identifier, u = .identifier x → v = x.name → m = n)
    (hw : ∀ y : Identifier, w = .identifier y → v = y.name → k = n) :
    ∃ s, env.Models s ∧ Evaluates s u m ∧ Evaluates s w k ∧ s v = n := by
  obtain ⟨t, ht, htv⟩ := exists_models h hn
  cases hi with
  | @names x y hxy =>
    rw [eval_identifier h] at hm hk
    have hx : (t.set x.name m).set y.name k x.name = m := by
      rw [Store.set_ne _ k hxy, Store.set_self]
    refine ⟨(t.set x.name m).set y.name k, (ht.set hm).set hk, ?_, ?_, ?_⟩
    · exact .of_eq hx
    · exact .of_eq (Store.set_self _ y.name k)
    · exact Store.set_eq_of_eq (Store.set_eq_of_eq htv (hu x rfl)) (hw y rfl)
  | literalRight x i loc =>
    rw [eval_identifier h] at hm
    rw [eval_literal h, Interval.mem_singleton] at hk
    subst k
    refine ⟨t.set x.name m, ht.set hm, ?_, .literal i loc, Store.set_eq_of_eq htv (hu x rfl)⟩
    exact .of_eq (Store.set_self t x.name m)
  | literalLeft i loc y =>
    rw [eval_identifier h] at hk
    rw [eval_literal h, Interval.mem_singleton] at hm
    subst m
    refine ⟨t.set y.name k, ht.set hk, .literal i loc, ?_, Store.set_eq_of_eq htv (hw y rfl)⟩
    exact .of_eq (Store.set_self t y.name k)

lemma assume_comparison (h : env.isBottom = false) (ho : op.isComparison = true) (loc : Value) :
    env.assume (.binary op u w loc) = env.refine op u w :=
  Condition.restrict_comparison h ho u w loc

lemma mem_of_mem_collapse (h : n ∈ env.collapse.get v) : n ∈ env.get v := by
  rw [collapse] at h
  split at h
  · exact absurd h (Interval.not_mem_empty n)
  · exact h

section Comparison

variable (ho : op.isComparison = true) (hne : op ≠ .ne) (h : env.isBottom = false)
include ho hne h

lemma exists_holds_of_mem_refine (hi : u.Independent w) (hn : n ∈ (env.refine op u w).get v) :
    n ∈ env.get v ∧
    (∃ m ∈ env.eval u, ∃ k ∈ env.eval w, op.holds m k = true) ∧
    (∀ x : Identifier, u = .identifier x → v = x.name → ∃ k ∈ env.eval w, op.holds n k = true) ∧
    ∀ y : Identifier, w = .identifier y → v = y.name → ∃ m ∈ env.eval u, op.holds m n = true := by
  obtain ⟨hu, hw⟩ := nonempty_eval hi h
  obtain ⟨i, hiu⟩ := Interval.exists_mem hu
  obtain ⟨j, hjw⟩ := Interval.exists_mem hw
  have hdecides := Interval.decides_satisfiesBinary hu hw ho
  rw [refine, decideBinary_of_nonempty hu hw] at hn
  cases ha : Interval.satisfiesBinary op (env.eval u) (env.eval w) with
  | bottom => exact absurd ha hdecides.reachable
  | notSatisfied =>
    rw [ha] at hn
    exact absurd hn (Interval.not_mem_empty n)
  | satisfied =>
    rw [ha] at hn
    have hall := hdecides.satisfied_iff.mp ha
    refine ⟨hn, ⟨i, hiu, j, hjw, hall i hiu j hjw⟩, ?_, ?_⟩
    · rintro x rfl rfl
      rw [eval_identifier h] at hall
      exact ⟨j, hjw, hall n hn j hjw⟩
    · rintro y rfl rfl
      rw [eval_identifier h] at hall
      exact ⟨i, hiu, hall i hiu n hn⟩
  | unknown =>
    rw [ha] at hn
    obtain ⟨hv, hleft, hright⟩ := mem_of_mem_assumeBinary ho hne (mem_of_mem_collapse hn)
    refine ⟨hv, ?_, hleft, hright⟩
    by_contra hnone
    have hno := hdecides.notSatisfied_iff.mpr fun m hm k hk =>
      Bool.eq_false_iff.mpr fun hmk => hnone ⟨m, hm, k, hk, hmk⟩
    rw [ha] at hno
    cases hno

lemma exists_models_of_mem_refine (hi : u.Independent w) (hn : n ∈ (env.refine op u w).get v) :
    ∃ s, env.Models s ∧ (∃ m k, Evaluates s u m ∧ Evaluates s w k ∧ op.holds m k = true) ∧ s v = n := by
  obtain ⟨hv, ⟨i, hiu, j, hjw, hij⟩, hleft, hright⟩ := exists_holds_of_mem_refine ho hne h hi hn
  -- If `v` is an operand, the pair that satisfies the comparison is chosen around its value.
  by_cases hx : ∃ x : Identifier, u = .identifier x ∧ v = x.name
  · obtain ⟨x, rfl, rfl⟩ := hx
    obtain ⟨k, hk, hnk⟩ := hleft x rfl rfl
    have hnu : n ∈ env.eval (.identifier x) := by rwa [eval_identifier h]
    have hother (y : Identifier) (hw : w = .identifier y) (hxy : x.name = y.name) : k = n := by
      subst hw
      exact absurd hxy hi.name_ne
    obtain ⟨s, hs, hsu, hsw, hsv⟩ := exists_models_operands hi h hnu hk hv (fun _ _ _ => rfl) hother
    exact ⟨s, hs, ⟨n, k, hsu, hsw, hnk⟩, hsv⟩
  · by_cases hy : ∃ y : Identifier, w = .identifier y ∧ v = y.name
    · obtain ⟨y, rfl, rfl⟩ := hy
      obtain ⟨m, hm, hmn⟩ := hright y rfl rfl
      have hnw : n ∈ env.eval (.identifier y) := by rwa [eval_identifier h]
      have hother (x : Identifier) (hu : u = .identifier x) (hyx : y.name = x.name) : m = n := by
        subst hu
        exact absurd hyx.symm hi.name_ne
      obtain ⟨s, hs, hsu, hsw, hsv⟩ := exists_models_operands hi h hm hnw hv hother (fun _ _ _ => rfl)
      exact ⟨s, hs, ⟨m, n, hsu, hsw, hmn⟩, hsv⟩
    · obtain ⟨s, hs, hsu, hsw, hsv⟩ := exists_models_operands hi h hiu hjw hv
        (fun x hux hvx => absurd ⟨x, hux, hvx⟩ hx) (fun y hwy hvy => absurd ⟨y, hwy, hvy⟩ hy)
      exact ⟨s, hs, ⟨i, j, hsu, hsw, hij⟩, hsv⟩

lemma mem_assume_iff (hi : u.Independent w) (lazy : Bool) (loc : Value) :
    n ∈ (env.assume (.binary op u w loc)).get v ↔
      ∃ s, env.Models s ∧ Truth lazy s (.binary op u w loc) true ∧ s v = n := by
  constructor
  · intro hn
    rw [assume_comparison h ho] at hn
    obtain ⟨s, hs, ⟨m, k, hm, hk, hholds⟩, hv⟩ := exists_models_of_mem_refine ho hne h hi hn
    exact ⟨s, hs, hholds ▸ .comparison loc ho hm hk, hv⟩
  · rintro ⟨s, hs, ht, rfl⟩
    exact hs.assume ht v

end Comparison

theorem comparison_exact (ho : op.isComparison = true) :
    (∀ a b : Interval, a.isEmpty = false → b.isEmpty = false →
      (Interval.satisfiesBinary op a b = .satisfied ↔ ∀ m ∈ a, ∀ n ∈ b, op.holds m n = true) ∧
      (Interval.satisfiesBinary op a b = .notSatisfied ↔ ∀ m ∈ a, ∀ n ∈ b, op.holds m n = false)) ∧
    ∀ (env : Env Interval) (u w : Expr) (loc : Value), env.isBottom = false → op ≠ .ne → u.Independent w →
      ∀ (lazy : Bool) (v : String) (n : Int), n ∈ (env.assume (.binary op u w loc)).get v ↔
        ∃ s, env.Models s ∧ Truth lazy s (.binary op u w loc) true ∧ s v = n := by
  refine ⟨fun a b ha hb => ?_, fun env u w loc h hne hi lazy v n => mem_assume_iff ho hne h hi lazy loc⟩
  have hdecides := Interval.decides_satisfiesBinary ha hb ho
  exact ⟨hdecides.satisfied_iff, hdecides.notSatisfied_iff⟩

/-- Two half-lines that overlap, `x` from 0 and `y` up to 5: `x < y` leaves 4 for `x` and takes 0 from `y`, and a
value of a variable outside the comparison stays. -/
theorem comparison_exact_half_lines :
    let env : Env Interval :=
      ⟨.ofList [("x", .ofBounds (.fin 0) .posInf), ("y", .ofBounds .negInf (.fin 5))], false⟩
    let x : Identifier := ⟨"x", ∅, .null⟩
    let y : Identifier := ⟨"y", ∅, .null⟩
    let c : Expr := .binary .lt (.identifier x) (.identifier y) .null
    env.isBottom = false ∧ Expr.Independent (.identifier x) (.identifier y) ∧
      (∃ s, env.Models s ∧ Truth false s c true ∧ s "x" = 4) ∧
      (¬ ∃ s, env.Models s ∧ Truth false s c true ∧ s "y" = 0) ∧
      (∃ s, env.Models s ∧ Truth false s c true ∧ s "z" = 7) ∧
      ¬ ∀ m ∈ env.get "x", ∀ n ∈ env.get "y", BinaryOp.lt.holds m n = false := by
  intro env x y c
  have hb : env.isBottom = false := by decide
  have hi : Expr.Independent (.identifier x) (.identifier y) := .names (by decide)
  have hlt : BinaryOp.lt.isComparison = true := rfl
  obtain ⟨hanswer, hassume⟩ := comparison_exact hlt
  have hmem (v : String) (n : Int) :
      n ∈ (env.refine .lt (.identifier x) (.identifier y)).get v ↔
        ∃ s, env.Models s ∧ Truth false s c true ∧ s v = n := by
    rw [← assume_comparison hb hlt .null]
    exact hassume env _ _ .null hb (by decide) hi false v n
  refine ⟨hb, hi, (hmem "x" 4).mp (by decide), (hmem "y" 0).not.mp (by decide), (hmem "z" 7).mp (by decide), ?_⟩
  rw [← (hanswer (env.get "x") (env.get "y") (by decide) (by decide)).2]
  decide

end Env

end ValueAnalysis
