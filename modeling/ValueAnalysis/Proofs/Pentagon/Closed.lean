import ValueAnalysis.Proofs.Pentagon.Order
import ValueAnalysis.Proofs.Pentagon.Transfer

/-! Closed pentagons. A join does not close its result, but where its intervals imply a bound those of both
sides do, so two closed pentagons record it and the join keeps it. Among closed pentagons the recorded bounds
decide the order, and joins are least. -/

namespace ValueAnalysis.Pentagon

variable {p q r : Pentagon} {x y : String} {test : String → Bool}

structure IsClosed (p : Pentagon) : Prop where
  wellFormed : p.WellFormed
  closed : p.Closed

namespace WellFormed

lemma isClosed_of_isBottom (hp : p.WellFormed) (hpb : p.isBottom = true) : p.IsClosed := by
  refine ⟨hp, fun x y _ hlt => ?_⟩
  rw [(hp.get_of_isBottom hpb x).2] at hlt
  exact absurd rfl (ExtInt.left_ne_nan (ExtInt.le_of_lt hlt))

lemma isClosed_closure (hp : p.WellFormed) : p.closure.IsClosed := by
  cases hpb : p.isBottom with
  | true =>
    rw [closure_of_isBottom hpb]
    exact hp.isClosed_of_isBottom hpb
  | false =>
    refine ⟨hp.closure, fun x y _ hlt => ?_⟩
    rw [hp.intervals_closure hpb] at hlt
    exact (hp.mem_closure_bounds hpb).mpr (.inr hlt)

lemma closure_leq (hp : p.WellFormed) : p.closure.leq p = true := by
  cases hpb : p.isBottom with
  | true =>
    rw [closure_of_isBottom hpb]
    exact hp.leq_refl
  | false =>
    rw [hp.closure.leq_iff hp (hp.isBottom_closure hpb), hp.intervals_closure hpb]
    refine ⟨hpb, fun x => Interval.leq_refl _, fun x y hy => .inl ?_⟩
    exact (hp.mem_closure_bounds hpb).mpr (.inl hy)

lemma isClosed_assign (hp : p.WellFormed) (x : Identifier) (e : Expr) : (p.assign x e).IsClosed := by
  rw [Pentagon.assign]
  split
  · exact hp.isClosed_of_isBottom ‹_›
  · exact (hp.assignOpen x e).isClosed_closure

lemma isClosed_assume (hp : p.WellFormed) (e : Expr) : (p.assume e).IsClosed := by
  rw [Pentagon.assume]
  split
  · exact hp.isClosed_of_isBottom ‹_›
  · exact (hp.assumeOpen e).isClosed_closure

lemma isClosed_meet (hp : p.WellFormed) (hq : q.WellFormed) : (p.meet q).IsClosed := by
  rw [Pentagon.meet]
  split
  · exact hp.isClosed_of_isBottom ‹_›
  · split
    · exact hq.isClosed_of_isBottom ‹_›
    · exact (hp.meetOpen hq).isClosed_closure

lemma narrowOpen (hp : p.WellFormed) (hq : q.WellFormed) : (p.narrowOpen q).WellFormed :=
  wellFormed_make (hp.1.narrow hq.1) (hp.2.1.narrow hq.2.1)

lemma isClosed_narrow (hp : p.WellFormed) (hq : q.WellFormed) : (p.narrow q).IsClosed := by
  rw [Pentagon.narrow]
  split
  · exact hp.isClosed_of_isBottom ‹_›
  · split
    · exact hq.isClosed_of_isBottom ‹_›
    · exact (hp.narrowOpen hq).isClosed_closure

end WellFormed

lemma isClosed_bottom : bottom.IsClosed := wellFormed_bottom.isClosed_of_isBottom rfl

namespace IsClosed

lemma mem_of_orders (hp : p.IsClosed) (h : p.Orders x y) : y ∈ p.bounds.get x := by
  rcases h with hy | hlt
  · exact hy
  · apply hp.closed x y _ hlt
    rintro rfl
    exact Interval.not_high_lt_low _ hlt

lemma make_forgetIf (hp : p.IsClosed) {i : Env Interval} (hi : i.WellFormed)
    (hget : p.isBottom = false →
      i.isBottom = false ∧ ∀ x, i.get x = if test x = true then .all else p.intervals.get x) :
    (make (Bounds.forgetIf p.bounds test) i).IsClosed := by
  cases hpb : p.isBottom with
  | true =>
    have hb := hp.wellFormed.isBottom_bounds.trans hpb
    rw [Bounds.forgetIf_of_isBottom hb, make_of_isBottom_bounds hb]
    exact isClosed_bottom
  | false =>
    have hb := hp.wellFormed.isBottom_bounds.trans hpb
    obtain ⟨hib, hget⟩ := hget hpb
    refine ⟨wellFormed_make (Bounds.wellFormed_forgetIf hp.wellFormed.1 test) hi, ?_⟩
    rw [make_of_reachable (Bounds.isBottom_forgetIf hb test) hib]
    intro x y hne hlt
    dsimp only at hlt ⊢
    rw [hget, hget] at hlt
    rw [Bounds.mem_forgetIf hb]
    -- A forgotten variable has no interval left that could imply a bound.
    cases hx : test x with
    | true =>
      rw [if_pos hx] at hlt
      exact absurd hlt (ExtInt.not_posInf_lt _)
    | false =>
      cases hy : test y with
      | true =>
        rw [if_pos hy] at hlt
        exact absurd hlt (ExtInt.not_lt_negInf _)
      | false =>
        rw [if_neg (by simp [hx]), if_neg (by simp [hy])] at hlt
        exact ⟨hp.closed x y hne hlt, rfl, rfl⟩

lemma forget (hp : p.IsClosed) (x : String) : (p.forget x).IsClosed := by
  apply hp.make_forgetIf (hp.wellFormed.2.1.forget x)
  intro hpb
  refine ⟨Env.isBottom_forget (hp.wellFormed.isBottom_intervals.trans hpb) x, fun z => ?_⟩
  rw [Env.get_forget (hp.wellFormed.reachable_intervals hpb)]
  simp only [decide_eq_true_eq]
  rfl

lemma forgetIf (hp : p.IsClosed) (test : String → Bool) : (p.forgetIf test).IsClosed := by
  apply hp.make_forgetIf (hp.wellFormed.2.1.forgetIf test)
  intro hpb
  refine ⟨Env.isBottom_forgetIf (hp.wellFormed.isBottom_intervals.trans hpb) test, fun z => ?_⟩
  exact Env.get_forgetIf (hp.wellFormed.reachable_intervals hpb) test z

lemma join (hp : p.IsClosed) (hq : q.IsClosed) : (p.join q).IsClosed := by
  have hwf := hp.wellFormed.join hq.wellFormed
  cases hpb : p.isBottom with
  | true =>
    rw [join_of_isBottom_left hpb]
    exact hq
  | false =>
    cases hqb : q.isBottom with
    | true =>
      rw [join_of_isBottom_right hpb hqb]
      exact hp
    | false =>
      refine ⟨hwf, fun x y _ hlt => ?_⟩
      -- Intervals that are apart in the join are apart on both sides, which are closed.
      have hnumeric : (p.join q).Orders x y := .inr hlt
      have hpo := Orders.of_leq hp.wellFormed hwf hpb (hp.wellFormed.leq_join_left hq.wellFormed) hnumeric
      have hqo := Orders.of_leq hq.wellFormed hwf hqb (hp.wellFormed.leq_join_right hq.wellFormed) hnumeric
      rw [hp.wellFormed.mem_join_bounds hq.wellFormed hpb hqb]
      exact ⟨hpo, hqo, .inl (hp.mem_of_orders hpo)⟩

lemma leq_antisymm (hp : p.IsClosed) (hq : q.IsClosed) (hpq : p.leq q = true) (hqp : q.leq p = true) :
    p.same q = true := by
  cases hpb : p.isBottom with
  | true =>
    cases hqb : q.isBottom with
    | true => exact hp.wellFormed.same_of_isBottom hq.wellFormed hpb hqb
    | false =>
      have hpb' := ((hq.wellFormed.leq_iff hp.wellFormed hqb).mp hqp).1
      simp [hpb] at hpb'
  | false =>
    obtain ⟨hqb, hpqi, hpqb⟩ := (hp.wellFormed.leq_iff hq.wellFormed hpb).mp hpq
    obtain ⟨_, hqpi, hqpb⟩ := (hq.wellFormed.leq_iff hp.wellFormed hqb).mp hqp
    refine (hp.wellFormed.same_iff_get hq.wellFormed).mpr ⟨hpb.trans hqb.symm, fun x => ⟨?_, ?_⟩⟩
    · apply BoundSet.ext (hp.wellFormed.bounds_ne hpb x) (hq.wellFormed.bounds_ne hqb x)
      intro y
      exact ⟨fun hy => hq.mem_of_orders (hqpb x y hy), fun hy => hp.mem_of_orders (hpqb x y hy)⟩
    · exact Interval.leq_antisymm (hpqi x) (hqpi x)

lemma join_leq (hp : p.IsClosed) (hq : q.WellFormed) (hr : r.WellFormed) (hpr : p.leq r = true)
    (hqr : q.leq r = true) : (p.join q).leq r = true := by
  cases hpb : p.isBottom with
  | true =>
    rw [join_of_isBottom_left hpb]
    exact hqr
  | false =>
    cases hqb : q.isBottom with
    | true =>
      rw [join_of_isBottom_right hpb hqb]
      exact hpr
    | false =>
      obtain ⟨hrb, hpri, hpro⟩ := (hp.wellFormed.leq_iff hr hpb).mp hpr
      obtain ⟨_, hqri, hqro⟩ := (hq.leq_iff hr hqb).mp hqr
      have hjb := hp.wellFormed.isBottom_join hq hpb
      refine ((hp.wellFormed.join hq).leq_iff hr hjb).mpr ⟨hrb, fun x => ?_, fun x y hy => .inl ?_⟩
      · rw [hp.wellFormed.get_intervals_join hq hpb hqb]
        exact Interval.hull_leq (hpri x) (hqri x)
      · -- Both sides know the bound; the join keeps it because one of them is closed and records it.
        rw [hp.wellFormed.mem_join_bounds hq hpb hqb]
        exact ⟨hpro x y hy, hqro x y hy, .inl (hp.mem_of_orders (hpro x y hy))⟩

section Associativity

variable (hp : p.IsClosed) (hq : q.IsClosed) (hr : r.IsClosed)
include hp hq hr

lemma join_join_leq : ((p.join q).join r).leq (p.join (q.join r)) = true := by
  have hqr := hq.join hr
  have hall := hp.join hqr
  have hright := hp.wellFormed.leq_join_right hqr.wellFormed
  apply (hp.join hq).join_leq hr.wellFormed hall.wellFormed
  · apply hp.join_leq hq.wellFormed hall.wellFormed
    · exact hp.wellFormed.leq_join_left hqr.wellFormed
    · apply hq.wellFormed.leq_trans hqr.wellFormed hall.wellFormed _ hright
      exact hq.wellFormed.leq_join_left hr.wellFormed
  · apply hr.wellFormed.leq_trans hqr.wellFormed hall.wellFormed _ hright
    exact hq.wellFormed.leq_join_right hr.wellFormed

lemma leq_join_join : (p.join (q.join r)).leq ((p.join q).join r) = true := by
  have hpq := hp.join hq
  have hall := hpq.join hr
  have hleft := hpq.wellFormed.leq_join_left hr.wellFormed
  apply hp.join_leq (hq.join hr).wellFormed hall.wellFormed
  · apply hp.wellFormed.leq_trans hpq.wellFormed hall.wellFormed _ hleft
    exact hp.wellFormed.leq_join_left hq.wellFormed
  · apply hq.join_leq hr.wellFormed hall.wellFormed
    · apply hq.wellFormed.leq_trans hpq.wellFormed hall.wellFormed _ hleft
      exact hp.wellFormed.leq_join_right hq.wellFormed
    · exact hpq.wellFormed.leq_join_right hr.wellFormed

lemma join_assoc : ((p.join q).join r).same (p.join (q.join r)) = true :=
  ((hp.join hq).join hr).leq_antisymm (hp.join (hq.join hr)) (hp.join_join_leq hq hr) (hp.leq_join_join hq hr)

end Associativity

end IsClosed

theorem closed_lattice :
    (∀ p : Pentagon, p.WellFormed → (∀ x e, (p.assign x e).IsClosed) ∧ (∀ e, (p.assume e).IsClosed) ∧
      ∀ q : Pentagon, q.WellFormed → (p.meet q).IsClosed ∧ (p.narrow q).IsClosed) ∧
    (∀ p : Pentagon, p.IsClosed → (∀ x, (p.forget x).IsClosed) ∧ ∀ test, (p.forgetIf test).IsClosed) ∧
    ∀ p q : Pentagon, p.IsClosed → q.IsClosed →
      (p.join q).IsClosed ∧ (p.leq q = true → q.leq p = true → p.same q = true) ∧
      (p.leq (p.join q) = true ∧ q.leq (p.join q) = true) ∧
      ∀ r : Pentagon, r.IsClosed →
        (p.leq r = true → q.leq r = true → (p.join q).leq r = true) ∧
        ((p.join q).join r).same (p.join (q.join r)) = true := by
  refine ⟨fun p hp => ?_, fun p hp => ⟨hp.forget, hp.forgetIf⟩, fun p q hp hq => ?_⟩
  · exact ⟨hp.isClosed_assign, hp.isClosed_assume, fun q hq => ⟨hp.isClosed_meet hq, hp.isClosed_narrow hq⟩⟩
  · refine ⟨hp.join hq, hp.leq_antisymm hq, ?_, fun r hr => ⟨?_, hp.join_assoc hq hr⟩⟩
    · exact ⟨hp.wellFormed.leq_join_left hq.wellFormed, hp.wellFormed.leq_join_right hq.wellFormed⟩
    · exact hp.join_leq hq.wellFormed hr.wellFormed

/-- The intervals of the join do not imply the bound that both sides record. -/
theorem closed_lattice_shifted :
    let low : Pentagon :=
      ⟨.top, ⟨.ofList [("x", .ofBounds (.fin 0) (.fin 1)), ("y", .ofBounds (.fin 2) (.fin 3))], false⟩⟩
    let high : Pentagon :=
      ⟨.top, ⟨.ofList [("x", .ofBounds (.fin 7) (.fin 8)), ("y", .ofBounds (.fin 9) (.fin 9))], false⟩⟩
    let p := low.closure
    let q := high.closure
    let r : Pentagon := ⟨⟨.ofList [("x", .singleton "y")], false⟩, .top⟩
    low.WellFormed ∧ (∀ e, (low.assume e).IsClosed) ∧ p.IsClosed ∧ q.IsClosed ∧ r.IsClosed ∧
      ¬ ((p.join q).intervals.get "x").high < ((p.join q).intervals.get "y").low ∧
      p.leq r = true ∧ q.leq r = true ∧ (p.join q).leq r = true ∧ (p.forget "x").IsClosed ∧
      ((p.join q).join r).same (p.join (q.join r)) = true := by
  intro low high p q r
  have hlow : low.WellFormed := by decide
  have hhigh : high.WellFormed := by decide
  have hp : p.IsClosed := hlow.isClosed_closure
  have hq : q.IsClosed := hhigh.isClosed_closure
  have hr : r.IsClosed := by
    refine ⟨by decide, fun x y _ hlt => ?_⟩
    exact absurd hlt (ExtInt.not_posInf_lt _)
  have hpr : p.leq r = true := by decide
  have hqr : q.leq r = true := by decide
  obtain ⟨htransfer, hforget, hjoin⟩ := closed_lattice
  obtain ⟨_, _, _, hleast⟩ := hjoin p q hp hq
  exact ⟨hlow, (htransfer low hlow).2.1, hp, hq, hr, by decide, hpr, hqr, (hleast r hr).1 hpr hqr,
    (hforget p hp).1 "x", (hleast r hr).2⟩

end ValueAnalysis.Pentagon
