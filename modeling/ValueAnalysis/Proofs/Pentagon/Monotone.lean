import ValueAnalysis.Proofs.Bounds.Monotone
import ValueAnalysis.Proofs.Pentagon.Closed

/-! Transfer functions of pentagons are monotone. A closed pentagon that is below another is so in each component,
and each component is transferred monotonically; closing keeps the order of the results. A difference that is
positive by the bounds of the larger pentagon is so by those of the smaller one, which records them too. -/

namespace ValueAnalysis.Pentagon

open Env (Below)

variable {p q : Pentagon} {b c : Bounds} {i j : Env Interval}

lemma IsClosed.below (hp : p.IsClosed) (hq : q.WellFormed) (h : p.leq q = true) :
    Below p.bounds q.bounds ∧ Below p.intervals q.intervals := by
  have hpb' := hp.wellFormed.1
  have hpi' := hp.wellFormed.2.1
  cases hpb : p.isBottom with
  | true =>
    exact ⟨.of_isBottom hpb' hq.1 (hp.wellFormed.isBottom_bounds.trans hpb),
      .of_isBottom hpi' hq.2.1 (hp.wellFormed.isBottom_intervals.trans hpb)⟩
  | false =>
    obtain ⟨hqb, hintervals, hbounds⟩ := (hp.wellFormed.leq_iff hq hpb).mp h
    refine ⟨⟨hpb', hq.1, ?_⟩, .of_get hpi' hq.2.1 hintervals⟩
    rw [Bounds.leq_iff (hp.wellFormed.isBottom_bounds.trans hpb) (hq.isBottom_bounds.trans hqb)]
    intro x y hy
    exact hp.mem_of_orders (hbounds x y hy)

lemma make_leq (hq : q.WellFormed) (hb : Below b q.bounds) (hi : Below i q.intervals) :
    (make b i).leq q = true := by
  have hwf := wellFormed_make hb.left hi.left
  rcases make_cases b i with hmake | ⟨hbb, hib, hmake⟩
  · rw [hmake]
    exact wellFormed_bottom.leq_of_isBottom rfl q
  · rw [hmake] at hwf ⊢
    rw [hwf.leq_iff hq (by simp [isBottom, hbb])]
    refine ⟨hq.isBottom_bounds.symm.trans (hb.reachable hbb), hi.get, fun x y hy => .inl ?_⟩
    exact Bounds.mem_of_below hb hbb hy

lemma make_leq_make (hb : Below b c) (hi : Below i j) : (make b i).leq (make c j) = true := by
  rcases make_cases b i with hmake | ⟨hbb, hib, _⟩
  · rw [hmake]
    exact wellFormed_bottom.leq_of_isBottom rfl _
  · have hmake := make_of_reachable (hb.reachable hbb) (hi.reachable hib)
    apply make_leq (wellFormed_make hb.right hi.right)
    · rwa [hmake]
    · rwa [hmake]

namespace WellFormed

variable (hp : p.WellFormed)
include hp

lemma closure_leq_closure (hq : q.WellFormed) (h : p.leq q = true) : p.closure.leq q.closure = true := by
  cases hpb : p.isBottom with
  | true =>
    rw [closure_of_isBottom hpb]
    exact hp.leq_of_isBottom hpb _
  | false =>
    obtain ⟨hqb, hintervals, _⟩ := (hp.leq_iff hq hpb).mp h
    rw [hp.closure.leq_iff hq.closure (hp.isBottom_closure hpb)]
    refine ⟨hq.isBottom_closure hqb, ?_, fun x y hy => .inl ?_⟩
    · rw [hp.intervals_closure hpb, hq.intervals_closure hqb]
      exact hintervals
    · rw [hq.mem_closure_bounds hqb] at hy
      exact (hp.mem_closure_bounds hpb).mpr (Orders.of_leq hp hq hpb h hy)

lemma assume_leq (e : Expr) : (p.assume e).leq p = true := by
  rw [Pentagon.assume]
  split
  · exact hp.leq_refl
  · have hopen := hp.assumeOpen e
    apply hopen.closure.leq_trans hopen hp hopen.closure_leq
    exact make_leq hp (Bounds.assume_below hp.1 e) (hp.2.1.assume_below e)

end WellFormed

lemma isPositiveDifference_of_below (h : Below b c) (hb : b.isBottom = false) {e : Expr}
    (he : isPositiveDifference c e = true) : isPositiveDifference b e = true := by
  simp only [isPositiveDifference] at he ⊢
  split at he
  · exact decide_eq_true (Bounds.mem_of_below h hb (of_decide_eq_true he))
  · cases he

lemma below_assignIntervals (hb : Below p.bounds q.bounds) (hi : Below p.intervals q.intervals)
    (hpb : p.bounds.isBottom = false) (x : Identifier) (e : Expr) :
    Below (p.assignIntervals x e) (q.assignIntervals x e) := by
  have hassigned := hi.assign x e
  simp only [assignIntervals]
  cases hq : isPositiveDifference q.bounds e with
  | true =>
    rw [isPositiveDifference_of_below hb hpb hq]
    exact hassigned.put (LatticeDomain.meet_mono (hassigned.get x.name) (Interval.leq_refl _)) x.name
  | false =>
    cases hp : isPositiveDifference p.bounds e with
    | true =>
      apply hassigned.put_left
      exact Interval.leq_trans (Interval.meet_leq_left _ _) (hassigned.get x.name)
    | false => exact hassigned

namespace IsClosed

variable (hp : p.IsClosed) (hq : q.WellFormed) (h : p.leq q = true)
include hp hq h

lemma assign_leq_assign (x : Identifier) (e : Expr) : (p.assign x e).leq (q.assign x e) = true := by
  cases hpb : p.isBottom with
  | true => exact (hp.wellFormed.assign x e).leq_of_isBottom (by simp [Pentagon.assign, hpb]) _
  | false =>
    obtain ⟨hqb, _⟩ := (hp.wellFormed.leq_iff hq hpb).mp h
    obtain ⟨hb, hi⟩ := hp.below hq h
    simp only [Pentagon.assign, hpb, hqb, Bool.false_eq_true, if_false]
    apply (hp.wellFormed.assignOpen x e).closure_leq_closure (hq.assignOpen x e)
    apply make_leq_make (Bounds.below_assign hb x e)
    exact below_assignIntervals hb hi (hp.wellFormed.isBottom_bounds.trans hpb) x e

lemma assume_leq_assume (e : Expr) : (p.assume e).leq (q.assume e) = true := by
  cases hpb : p.isBottom with
  | true => exact (hp.wellFormed.assume e).leq_of_isBottom (by simp [Pentagon.assume, hpb]) _
  | false =>
    obtain ⟨hqb, _⟩ := (hp.wellFormed.leq_iff hq hpb).mp h
    obtain ⟨hb, hi⟩ := hp.below hq h
    simp only [Pentagon.assume, hpb, hqb, Bool.false_eq_true, if_false]
    apply (hp.wellFormed.assumeOpen e).closure_leq_closure (hq.assumeOpen e)
    exact make_leq_make (Bounds.below_assume hb e) (hi.assume e)

lemma forget_leq_forget (x : String) : (p.forget x).leq (q.forget x) = true := by
  obtain ⟨hb, hi⟩ := hp.below hq h
  exact make_leq_make (Bounds.below_forgetIf hb _) (hi.forget x)

end IsClosed

theorem transfer_monotone (hp : p.IsClosed) (hq : q.WellFormed) (h : p.leq q = true) :
    (∀ x e, (p.assign x e).leq (q.assign x e) = true) ∧ (∀ e, (p.assume e).leq (q.assume e) = true) ∧
      (∀ x, (p.forget x).leq (q.forget x) = true) ∧ ∀ e, (p.assume e).leq p = true :=
  ⟨hp.assign_leq_assign hq h, hp.assume_leq_assume hq h, hp.forget_leq_forget hq h, hp.wellFormed.assume_leq⟩

/-- The smaller pentagon finds the guard satisfied where the larger one refines, and knows a difference to be
positive where the larger one does not. -/
theorem transfer_monotone_sharper_answer :
    let p : Pentagon := closure
      ⟨⟨.ofList [("x", .singleton "y")], false⟩, ⟨.ofList [("x", .ofBounds (.fin 0) (.fin 2))], false⟩⟩
    let q : Pentagon := ⟨.top, ⟨.ofList [("x", .ofBounds (.fin 0) (.fin 9))], false⟩⟩
    let x : Expr := .identifier ⟨"x", ∅, .null⟩
    let y : Expr := .identifier ⟨"y", ∅, .null⟩
    let guard : Expr := .binary .lt x (.constant (.int 5) .null) .null
    let difference : Expr := .binary .sub y x .null
    (p.IsClosed ∧ q.WellFormed ∧ p.leq q = true) ∧
      (p.satisfies guard = .satisfied ∧ q.satisfies guard = .unknown) ∧
      ((p.assign ⟨"z", ∅, .null⟩ difference).intervals.get "z" = .atLeast (.fin 1) ∧
        (q.assign ⟨"z", ∅, .null⟩ difference).intervals.get "z" = .all) ∧
      ((p.assume guard).intervals.get "x" = .ofBounds (.fin 0) (.fin 2) ∧
        (q.assume guard).intervals.get "x" = .ofBounds (.fin 0) (.fin 4)) ∧
      ("y" ∈ p.bounds.get "x" ∧ (p.forget "x").bounds.get "x" = .top ∧ (q.forget "x").intervals.get "x" = .all) ∧
      (p.assume guard).leq (q.assume guard) = true ∧
      (p.assign ⟨"z", ∅, .null⟩ difference).leq (q.assign ⟨"z", ∅, .null⟩ difference) = true ∧
      (p.forget "x").leq (q.forget "x") = true ∧ (p.assume guard).leq p = true := by
  intro p q x y guard difference
  have hp : p.IsClosed := WellFormed.isClosed_closure (by decide)
  have hq : q.WellFormed := by decide
  have hpq : p.leq q = true := by decide
  obtain ⟨hassign, hassume, hforget, hbelow⟩ := transfer_monotone hp hq hpq
  exact ⟨⟨hp, hq, hpq⟩, by decide +kernel, by decide +kernel, by decide +kernel, by decide +kernel, hassume guard,
    hassign _ difference, hforget "x", hbelow guard⟩

end ValueAnalysis.Pentagon
