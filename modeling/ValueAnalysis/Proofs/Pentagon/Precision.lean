import ValueAnalysis.Proofs.Pentagon.Monotone
import ValueAnalysis.Semantics.Derivation

/-! The product against its components. Run on the same operations, a pentagon stays below the intervals and the
bounds that run on their own. What the components tell each other only shrinks them, and every operation but
widening and narrowing keeps what is smaller smaller. -/

namespace ValueAnalysis

namespace Pentagon

open Env (Below)

variable {p q : Pentagon} {b c : Bounds} {i j : Env Interval}

structure Refines (p : Pentagon) (b : Bounds) (i : Env Interval) : Prop where
  wellFormed : p.WellFormed
  bounds : Below p.bounds b
  intervals : Below p.intervals i

namespace Refines

lemma of_isBottom (hp : p.WellFormed) (hpb : p.isBottom = true) (hb : b.WellFormed) (hi : i.WellFormed) :
    Refines p b i where
  wellFormed := hp
  bounds := .of_isBottom hp.1 hb (hp.isBottom_bounds.trans hpb)
  intervals := .of_isBottom hp.2.1 hi (hp.isBottom_intervals.trans hpb)

lemma trans (h : Refines p b i) (hb : Below b c) (hi : Below i j) : Refines p c j where
  wellFormed := h.wellFormed
  bounds := h.bounds.trans hb
  intervals := h.intervals.trans hi

lemma make (hb : Below b c) (hi : Below i j) : Refines (make b i) c j := by
  have hwf := wellFormed_make hb.left hi.left
  rcases make_cases b i with hmake | ⟨_, _, hmake⟩
  · rw [hmake]
    exact of_isBottom wellFormed_bottom rfl hb.right hi.right
  · rw [hmake] at hwf ⊢
    exact ⟨hwf, hb, hi⟩

lemma closure (h : Refines p b i) : Refines p.closure b i := by
  cases hpb : p.isBottom with
  | true => rwa [closure_of_isBottom hpb]
  | false =>
    have hp := h.wellFormed
    have hbounds : Below p.closure.bounds p.bounds := by
      refine ⟨hp.closure.1, hp.1, ?_⟩
      rw [Bounds.leq_iff (hp.closure.isBottom_bounds.trans (hp.isBottom_closure hpb)) (hp.isBottom_bounds.trans hpb)]
      intro x y hy
      exact (hp.mem_closure_bounds hpb).mpr (.inl hy)
    refine ⟨hp.closure, hbounds.trans h.bounds, ?_⟩
    rw [hp.intervals_closure hpb]
    exact h.intervals

lemma assign (h : Refines p b i) (x : Identifier) (e : Expr) :
    Refines (p.assign x e) (Bounds.assign b x e) (i.assign x e) := by
  have hassigned := h.intervals.assign x e
  have hbounds := Bounds.below_assign h.bounds x e
  rw [Pentagon.assign]
  split
  case isTrue hpb => exact of_isBottom h.wellFormed hpb hbounds.right hassigned.right
  case isFalse =>
    refine closure (make hbounds ?_)
    simp only [assignIntervals]
    split
    · apply hassigned.put_left
      exact Interval.leq_trans (Interval.meet_leq_left _ _) (hassigned.get x.name)
    · exact hassigned

lemma assume (h : Refines p b i) (e : Expr) : Refines (p.assume e) (Bounds.assume b e) (i.assume e) := by
  have hintervals := h.intervals.assume e
  have hbounds := Bounds.below_assume h.bounds e
  rw [Pentagon.assume]
  split
  case isTrue hpb => exact of_isBottom h.wellFormed hpb hbounds.right hintervals.right
  case isFalse => exact closure (make hbounds hintervals)

lemma forget (h : Refines p b i) (x : String) : Refines (p.forget x) (Bounds.forget b x) (i.forget x) :=
  make (Bounds.below_forgetIf h.bounds _) (h.intervals.forget x)

lemma forgetIf (h : Refines p b i) (test : String → Bool) :
    Refines (p.forgetIf test) (Bounds.forgetIf b test) (i.forgetIf test) :=
  make (Bounds.below_forgetIf h.bounds test) (h.intervals.forgetIf test)

section Lattice

variable (hp : Refines p b i) (hq : Refines q c j)
include hp hq

lemma join : Refines (p.join q) (b.join c) (i.join j) := by
  have hb := hp.bounds.right
  have hc := hq.bounds.right
  have hi := hp.intervals.right
  have hj := hq.intervals.right
  cases hpb : p.isBottom with
  | true =>
    rw [join_of_isBottom_left hpb]
    exact hq.trans ⟨hc, hb.join hc, hb.leq_join_right hc⟩ ⟨hj, hi.join hj, hi.leq_join_right hj⟩
  | false =>
    cases hqb : q.isBottom with
    | true =>
      rw [join_of_isBottom_right hpb hqb]
      exact hp.trans ⟨hb, hb.join hc, hb.leq_join_left hc⟩ ⟨hi, hi.join hj, hi.leq_join_left hj⟩
    | false =>
      have hwf := hp.wellFormed.join hq.wellFormed
      have hpbb := hp.wellFormed.isBottom_bounds.trans hpb
      have hqbb := hq.wellFormed.isBottom_bounds.trans hqb
      rw [hp.wellFormed.join_eq hq.wellFormed hpb hqb] at hwf ⊢
      refine ⟨hwf, ?_, hp.intervals.join hq.intervals⟩
      have hshared : Below (joinBounds p q) (p.bounds.join q.bounds) := by
        refine ⟨hwf.1, hp.bounds.left.join hq.bounds.left, ?_⟩
        rw [Bounds.leq_iff (isBottom_joinBounds hpbb hqbb) (Env.isBottom_join hpbb hqbb)]
        intro x y hy
        rw [Env.get_join hpbb hqbb] at hy
        have hmem := (BoundSet.mem_join (Env.get_ne_bottom hpbb x) (Env.get_ne_bottom hqbb x)).mp hy
        exact (mem_joinBounds hpbb hqbb).mpr (.inl hmem)
      exact hshared.trans (hp.bounds.join hq.bounds)

lemma meet : Refines (p.meet q) (b.meet c) (i.meet j) := by
  have hbounds := hp.bounds.meet hq.bounds
  have hintervals := hp.intervals.meet hq.intervals
  rw [Pentagon.meet]
  split
  case isTrue hpb => exact of_isBottom hp.wellFormed hpb hbounds.right hintervals.right
  case isFalse =>
    split
    case isTrue hqb => exact of_isBottom hq.wellFormed hqb hbounds.right hintervals.right
    case isFalse => exact closure (make hbounds hintervals)

end Lattice

end Refines

end Pentagon

lemma Derivation.refines (d : Derivation) (hw : .widen ∉ d.operations) (hn : .narrow ∉ d.operations) :
    Pentagon.Refines (d.state Pentagon.closure) (d.state id) (d.state id) := by
  induction d with
  | top => exact ⟨⟨Env.wellFormed_top, Env.wellFormed_top, rfl⟩, .refl Env.wellFormed_top, .refl Env.wellFormed_top⟩
  | bottom => exact .of_isBottom Pentagon.wellFormed_bottom rfl Env.wellFormed_bottom Env.wellFormed_bottom
  | assign d x e ih =>
    simp only [operations, List.mem_cons, not_or] at hw hn
    exact (ih hw.2 hn.2).assign x e
  | assume d e ih =>
    simp only [operations, List.mem_cons, not_or] at hw hn
    exact (ih hw.2 hn.2).assume e
  | smallStep d ih =>
    simp only [operations, List.mem_cons, not_or] at hw hn
    exact .make (ih hw.2 hn.2).bounds (ih hw.2 hn.2).intervals
  | closure d ih =>
    simp only [operations, List.mem_cons, not_or] at hw hn
    exact (ih hw.2 hn.2).closure
  | forget d x ih =>
    simp only [operations, List.mem_cons, not_or] at hw hn
    exact (ih hw.2 hn.2).forget x
  | forgetIf d test ih =>
    simp only [operations, List.mem_cons, not_or] at hw hn
    exact (ih hw.2 hn.2).forgetIf test
  | join l r ihl ihr =>
    simp only [operations, List.mem_cons, List.mem_append, not_or] at hw hn
    exact (ihl hw.2.1 hn.2.1).join (ihr hw.2.2 hn.2.2)
  | meet l r ihl ihr =>
    simp only [operations, List.mem_cons, List.mem_append, not_or] at hw hn
    exact (ihl hw.2.1 hn.2.1).meet (ihr hw.2.2 hn.2.2)
  | widen l r ihl ihr => simp [operations] at hw
  | narrow l r ihl ihr => simp [operations] at hn

/-- The components are below those that run on their own, also where the product is unreachable. -/
theorem Derivation.product_precise (d : Derivation) (hw : .widen ∉ d.operations) (hn : .narrow ∉ d.operations) :
    let p : Pentagon := d.state Pentagon.closure
    let intervals : Env Interval := d.state id
    let bounds : Bounds := d.state id
    p.intervals.leq intervals = true ∧ p.bounds.leq bounds = true :=
  ⟨(d.refines hw hn).intervals.le, (d.refines hw hn).bounds.le⟩

/-- Only the product sees that the guarded branch cannot be taken, and keeps the other one as it is. -/
theorem Derivation.product_precise_dead_branch :
    let x : Identifier := ⟨"x", ∅, .null⟩
    let y : Identifier := ⟨"y", ∅, .null⟩
    let z : Identifier := ⟨"z", ∅, .null⟩
    let ordered : Derivation := .assume .top (.binary .lt (.identifier x) (.identifier y) .null)
    let difference : Derivation := .assign ordered z (.binary .sub (.identifier y) (.identifier x) .null)
    let dead : Derivation := .assume difference (.binary .lt (.identifier z) (.constant (.int 1) .null) .null)
    let live : Derivation := .forget (.assign .top z (.constant (.int 5) .null)) "x"
    let d : Derivation := .join dead (.meet live .top)
    let p : Pentagon := d.state Pentagon.closure
    let intervals : Env Interval := d.state id
    let bounds : Bounds := d.state id
    (.widen ∉ d.operations ∧ .narrow ∉ d.operations) ∧
      ((dead.state Pentagon.closure).isBottom = true ∧ (dead.state id : Env Interval).isBottom = false ∧
        (dead.state id : Bounds).isBottom = false) ∧
      (p.isBottom = false ∧ intervals.leq p.intervals = false) ∧
      p.intervals.leq intervals = true ∧ p.bounds.leq bounds = true := by
  intro x y z ordered difference dead live d p intervals bounds
  have hw : .widen ∉ d.operations := by decide
  have hn : .narrow ∉ d.operations := by decide
  exact ⟨⟨hw, hn⟩, by decide +kernel, by decide +kernel, d.product_precise hw hn⟩

end ValueAnalysis
