import ValueAnalysis.Proofs.Env.Laws
import ValueAnalysis.Proofs.Invariant

/-! The order of merging. A join keeps a bound that one side records and the other side's intervals imply. If
two of three pentagons only imply a bound, their join may do so no longer, and then it is too late for the
third one, which records it. Closed pentagons record what they imply, and widening is the one operation whose
results need not be closed. -/

namespace ValueAnalysis

namespace Pentagon

variable {p q r : Pentagon} {x y : String}

def Separates (p : Pentagon) (x y : String) : Prop := (p.intervals.get x).high < (p.intervals.get y).low

def Implies (p : Pentagon) (x y : String) : Prop := y ∉ p.bounds.get x ∧ p.Separates x y

instance (p : Pentagon) (x y : String) : Decidable (p.Separates x y) :=
  inferInstanceAs (Decidable ((p.intervals.get x).high < (p.intervals.get y).low))

instance (p : Pentagon) (x y : String) : Decidable (p.Implies x y) :=
  inferInstanceAs (Decidable (y ∉ p.bounds.get x ∧ p.Separates x y))

namespace WellFormed

section Reachable

variable (hp : p.WellFormed) (hq : q.WellFormed) (hr : r.WellFormed)
variable (hpb : p.isBottom = false) (hqb : q.isBottom = false) (hrb : r.isBottom = false)
include hp hq hpb hqb

lemma separates_of_join (h : (p.join q).Separates x y) : p.Separates x y ∧ q.Separates x y := by
  rw [Separates, hp.get_intervals_join hq hpb hqb, hp.get_intervals_join hq hpb hqb] at h
  constructor
  · exact Interval.high_lt_low_of_leq (hp.nonempty hpb x) (hp.nonempty hpb y) (Interval.leq_hull_left _ _)
      (Interval.leq_hull_left _ _) h
  · exact Interval.high_lt_low_of_leq (hq.nonempty hqb x) (hq.nonempty hqb y) (Interval.leq_hull_right _ _)
      (Interval.leq_hull_right _ _) h

lemma orders_join_iff : (p.join q).Orders x y ↔
    p.Orders x y ∧ q.Orders x y ∧ (y ∈ p.bounds.get x ∨ y ∈ q.bounds.get x ∨ (p.join q).Separates x y) := by
  have hsep := hp.separates_of_join hq hpb hqb (x := x) (y := y)
  rw [Orders, hp.mem_join_bounds hq hpb hqb]
  change _ ∨ (p.join q).Separates x y ↔ _
  constructor
  · rintro (⟨hpo, hqo, h⟩ | h)
    · exact ⟨hpo, hqo, by tauto⟩
    · exact ⟨.inr (hsep h).1, .inr (hsep h).2, .inr (.inr h)⟩
  · tauto

include hr hrb

lemma mem_join_join_left : y ∈ ((p.join q).join r).bounds.get x ↔
    p.Orders x y ∧ q.Orders x y ∧ r.Orders x y ∧
      (y ∈ p.bounds.get x ∨ y ∈ q.bounds.get x ∨ (p.join q).Separates x y ∧ y ∈ r.bounds.get x) := by
  rw [(hp.join hq).mem_join_bounds hr (hp.isBottom_join hq hpb) hrb, hp.orders_join_iff hq hpb hqb,
    hp.mem_join_bounds hq hpb hqb]
  tauto

lemma mem_join_join_right : y ∈ (p.join (q.join r)).bounds.get x ↔
    p.Orders x y ∧ q.Orders x y ∧ r.Orders x y ∧
      (y ∈ q.bounds.get x ∨ y ∈ r.bounds.get x ∨ (q.join r).Separates x y ∧ y ∈ p.bounds.get x) := by
  rw [hp.mem_join_bounds (hq.join hr) hpb (hq.isBottom_join hr hqb), hq.orders_join_iff hr hqb hrb,
    hq.mem_join_bounds hr hqb hrb]
  tauto

lemma mem_join_join_iff : (y ∈ ((p.join q).join r).bounds.get x ↔ y ∈ (p.join (q.join r)).bounds.get x) ↔
    (q.Implies x y →
      (y ∈ p.bounds.get x → r.Implies x y → (q.join r).Separates x y) ∧
      (y ∈ r.bounds.get x → p.Implies x y → (p.join q).Separates x y)) := by
  have ho {s : Pentagon} : s.Orders x y ↔ y ∈ s.bounds.get x ∨ s.Separates x y := Iff.rfl
  rw [hp.mem_join_join_left hq hr hpb hqb hrb, hp.mem_join_join_right hq hr hpb hqb hrb]
  simp only [ho, Implies]
  by_cases hyq : y ∈ q.bounds.get x
  · simp [hyq]
  · -- Without a record in the middle, the orders differ in which pair has to imply the bound.
    by_cases hyp : y ∈ p.bounds.get x
    · by_cases hyr : y ∈ r.bounds.get x
      · simp [hyp, hyq, hyr]
      · simp [hyp, hyq, hyr]
    · by_cases hyr : y ∈ r.bounds.get x
      · simpa [hyp, hyq, hyr] using imp.swap
      · simp [hyp, hyq, hyr]

lemma same_join_join_iff : ((p.join q).join r).same (p.join (q.join r)) = true ↔
    ∀ x y, q.Implies x y →
      (y ∈ p.bounds.get x → r.Implies x y → (q.join r).Separates x y) ∧
      (y ∈ r.bounds.get x → p.Implies x y → (p.join q).Separates x y) := by
  have hpq := hp.join hq
  have hqr := hq.join hr
  have hpqb := hp.isBottom_join hq hpb
  have hqrb := hq.isBottom_join hr hqb
  have hleft := hpq.isBottom_join hr hpqb
  have hright := hp.isBottom_join hqr hpb
  have hintervals (x : String) :
      ((p.join q).join r).intervals.get x = (p.join (q.join r)).intervals.get x := by
    rw [hpq.get_intervals_join hr hpqb hrb, hp.get_intervals_join hqr hpb hqrb, hp.get_intervals_join hq hpb hqb,
      hq.get_intervals_join hr hqb hrb]
    exact LatticeDomain.join_assoc _ _ _
  rw [(hpq.join hr).same_iff_get (hp.join hqr), and_iff_right (hleft.trans hright.symm)]
  refine forall_congr' fun x => ?_
  rw [and_iff_left (hintervals x)]
  constructor
  · intro h y
    rw [← hp.mem_join_join_iff hq hr hpb hqb hrb, h]
  · intro h
    apply BoundSet.ext ((hpq.join hr).bounds_ne hleft x) ((hp.join hqr).bounds_ne hright x)
    intro y
    exact (hp.mem_join_join_iff hq hr hpb hqb hrb).mpr (h y)

end Reachable

variable (hp : p.WellFormed) (hq : q.WellFormed) (hr : r.WellFormed)
include hp hq hr

lemma join_assoc_iff : ((p.join q).join r).same (p.join (q.join r)) = true ↔
    p.isBottom = true ∨ q.isBottom = true ∨ r.isBottom = true ∨ ∀ x y, q.Implies x y →
      (y ∈ p.bounds.get x → r.Implies x y → (q.join r).Separates x y) ∧
      (y ∈ r.bounds.get x → p.Implies x y → (p.join q).Separates x y) := by
  cases hpb : p.isBottom with
  | true =>
    rw [join_of_isBottom_left hpb, join_of_isBottom_left hpb]
    exact iff_of_true (hq.join hr).same_refl (.inl rfl)
  | false =>
    cases hqb : q.isBottom with
    | true =>
      rw [join_of_isBottom_right hpb hqb, join_of_isBottom_left hqb]
      exact iff_of_true (hp.join hr).same_refl (.inr (.inl rfl))
    | false =>
      cases hrb : r.isBottom with
      | true =>
        rw [join_of_isBottom_right (hp.isBottom_join hq hpb) hrb, join_of_isBottom_right hqb hrb]
        exact iff_of_true (hp.join hq).same_refl (.inr (.inr (.inl rfl)))
      | false =>
        simp only [Bool.false_eq_true, false_or]
        exact hp.same_join_join_iff hq hr hpb hqb hrb

lemma join_assoc_of_closed (h : q.Closed ∨ p.Closed ∧ r.Closed) :
    ((p.join q).join r).same (p.join (q.join r)) = true := by
  have hno {s : Pentagon} (hs : s.WellFormed) (hc : s.Closed) (x y : String) : ¬ s.Implies x y :=
    fun h => h.1 (IsClosed.mem_of_orders ⟨hs, hc⟩ (.inr h.2))
  refine (hp.join_assoc_iff hq hr).mpr (.inr (.inr (.inr fun x y hqi => ?_)))
  rcases h with hqc | ⟨hpc, hrc⟩
  · exact absurd hqi (hno hq hqc x y)
  · exact ⟨fun _ hri => absurd hri (hno hr hrc x y), fun _ hpi => absurd hpi (hno hp hpc x y)⟩

end WellFormed

end Pentagon

namespace Derivation

lemma wellFormed (d : Derivation) : (d.state Pentagon.closure).WellFormed := (Pentagon.preserved.state d).wellFormed

lemma isClosed (d : Derivation) (hw : .widen ∉ d.operations) : (d.state Pentagon.closure).IsClosed := by
  induction d with
  | top => exact ⟨wellFormed .top, fun x y _ hlt => absurd hlt (ExtInt.not_posInf_lt _)⟩
  | bottom => exact Pentagon.isClosed_bottom
  | assign d x e => exact d.wellFormed.isClosed_assign x e
  | assume d e => exact d.wellFormed.isClosed_assume e
  | smallStep d ih =>
    simp only [operations, List.mem_cons, not_or] at hw
    have hd := ih hw.2
    change (Pentagon.make (d.state Pentagon.closure).bounds (d.state Pentagon.closure).intervals).IsClosed
    rcases Pentagon.make_cases (d.state Pentagon.closure).bounds (d.state Pentagon.closure).intervals with
      hmake | ⟨_, _, hmake⟩
    · rw [hmake]
      exact Pentagon.isClosed_bottom
    · rw [hmake]
      exact hd
  | closure d => exact d.wellFormed.isClosed_closure
  | forget d x ih =>
    simp only [operations, List.mem_cons, not_or] at hw
    exact (ih hw.2).forget x
  | forgetIf d test ih =>
    simp only [operations, List.mem_cons, not_or] at hw
    exact (ih hw.2).forgetIf test
  | join l r ihl ihr =>
    simp only [operations, List.mem_cons, List.mem_append, not_or] at hw
    exact (ihl hw.2.1).join (ihr hw.2.2)
  | meet l r => exact l.wellFormed.isClosed_meet r.wellFormed
  | widen l r => simp [operations] at hw
  | narrow l r => exact l.wellFormed.isClosed_narrow r.wellFormed

theorem merge_order (d₁ d₂ d₃ : Derivation) :
    let p : Pentagon := d₁.state Pentagon.closure
    let q : Pentagon := d₂.state Pentagon.closure
    let r : Pentagon := d₃.state Pentagon.closure
    (((p.join q).join r).same (p.join (q.join r)) = true ↔
      p.isBottom = true ∨ q.isBottom = true ∨ r.isBottom = true ∨ ∀ x y, q.Implies x y →
        (y ∈ p.bounds.get x → r.Implies x y → (q.join r).Separates x y) ∧
        (y ∈ r.bounds.get x → p.Implies x y → (p.join q).Separates x y)) ∧
    (q.Closed ∨ p.Closed ∧ r.Closed → ((p.join q).join r).same (p.join (q.join r)) = true) ∧
    (.widen ∉ d₂.operations ∨ .widen ∉ d₁.operations ∧ .widen ∉ d₃.operations →
      ((p.join q).join r).same (p.join (q.join r)) = true) := by
  have hclosed := d₁.wellFormed.join_assoc_of_closed d₂.wellFormed d₃.wellFormed
  refine ⟨d₁.wellFormed.join_assoc_iff d₂.wellFormed d₃.wellFormed, hclosed, fun hw => hclosed ?_⟩
  rcases hw with hw | ⟨hw₁, hw₃⟩
  · exact .inl (d₂.isClosed hw).closed
  · exact .inr ⟨(d₁.isClosed hw₁).closed, (d₃.isClosed hw₃).closed⟩

/-- The outer states only imply a bound, and their join would not; the one in the middle records it. -/
theorem merge_order_recorded_between :
    let x : Identifier := ⟨"x", ∅, .null⟩
    let y : Identifier := ⟨"y", ∅, .null⟩
    let z : Identifier := ⟨"z", ∅, .null⟩
    let below (u v : Identifier) : Expr := .binary .lt (.identifier u) (.identifier v) .null
    let assigned (m n : Int) : Derivation :=
      .assign (.assign .top x (.constant (.int m) .null)) y (.constant (.int n) .null)
    let widened (m n : Int) : Derivation := .widen (.assume (assigned m n) (below x z)) (assigned m n)
    let recorded : Derivation := .assume .top (below x y)
    let p : Pentagon := (widened 0 5).state Pentagon.closure
    let q : Pentagon := recorded.state Pentagon.closure
    let r : Pentagon := (widened 10 15).state Pentagon.closure
    (p.Implies "x" "y" ∧ r.Implies "x" "y" ∧ ¬ (p.join r).Separates "x" "y") ∧ .widen ∉ recorded.operations ∧
      "y" ∈ ((p.join q).join r).bounds.get "x" ∧ ((p.join q).join r).same (p.join (q.join r)) = true := by
  intro x y z below assigned widened recorded p q r
  have hw : .widen ∉ recorded.operations := by decide
  obtain ⟨_, _, hfree⟩ := merge_order (widened 0 5) recorded (widened 10 15)
  exact ⟨by decide +kernel, hw, by decide +kernel, hfree (.inl hw)⟩

/-- Widening has dropped a bound that the intervals of two states still imply, and that a third one records. Their
join does not imply it, so joining them first loses it. -/
theorem merge_order_matters :
    let x : Identifier := ⟨"x", ∅, .null⟩
    let y : Identifier := ⟨"y", ∅, .null⟩
    let z : Identifier := ⟨"z", ∅, .null⟩
    let below (u v : Identifier) : Expr := .binary .lt (.identifier u) (.identifier v) .null
    let assigned (m n : Int) : Derivation :=
      .assign (.assign .top x (.constant (.int m) .null)) y (.constant (.int n) .null)
    let widened (m n : Int) : Derivation := .widen (.assume (assigned m n) (below x z)) (assigned m n)
    let p : Pentagon := (widened 0 5).state Pentagon.closure
    let q : Pentagon := (widened 10 15).state Pentagon.closure
    let r : Pentagon := (Derivation.assume .top (below x y)).state Pentagon.closure
    ((p.join q).join r).same (p.join (q.join r)) = false := by
  intro x y z below assigned widened p q r
  decide +kernel

end Derivation

end ValueAnalysis
