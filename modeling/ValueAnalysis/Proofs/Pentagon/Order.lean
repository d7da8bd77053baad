import ValueAnalysis.Proofs.Interval.Lattice
import ValueAnalysis.Proofs.Pentagon.Decidable

/-! The order of pentagons. A pentagon puts `x` below `y` when it records the bound or its intervals show
it, and whatever is below it in the order puts `x` below `y` too. So the order can be read off the intervals
and this relation alone, whether or not the pentagons are closed. -/

namespace ValueAnalysis.Pentagon

variable {p q r : Pentagon} {s : Store} {x y : String}

/-- The pentagon knows that `x < y`, from a recorded bound or from its intervals. -/
def Orders (p : Pentagon) (x y : String) : Prop :=
  y ∈ p.bounds.get x ∨ (p.intervals.get x).high < (p.intervals.get y).low

lemma join_of_isBottom_left (hpb : p.isBottom = true) : p.join q = q := by
  simp [join, hpb]

lemma join_of_isBottom_right (hpb : p.isBottom = false) (hqb : q.isBottom = true) : p.join q = p := by
  simp [join, hpb, hqb]

lemma widen_of_isBottom_left (hpb : p.isBottom = true) : p.widen q = q := by
  simp [widen, hpb]

lemma widen_of_isBottom_right (hpb : p.isBottom = false) (hqb : q.isBottom = true) : p.widen q = p := by
  simp [widen, hpb, hqb]

lemma closure_of_isBottom (hpb : p.isBottom = true) : p.closure = p := by
  simp [closure, hpb]

namespace WellFormed

lemma reachable_bounds (hp : p.WellFormed) (hpb : p.isBottom = false) : p.bounds.unreachable = false :=
  Env.reachable_of_isBottom (hp.isBottom_bounds.trans hpb)

lemma reachable_intervals (hp : p.WellFormed) (hpb : p.isBottom = false) : p.intervals.unreachable = false :=
  Env.reachable_of_isBottom (hp.isBottom_intervals.trans hpb)

lemma bounds_ne (hp : p.WellFormed) (hpb : p.isBottom = false) (x : String) : p.bounds.get x ≠ .unreachable :=
  Env.get_ne_bottom (hp.isBottom_bounds.trans hpb) x

lemma nonempty (hp : p.WellFormed) (hpb : p.isBottom = false) (x : String) :
    (p.intervals.get x).isEmpty = false :=
  (Interval.ne_empty_iff _).mp (Env.get_ne_bottom (hp.isBottom_intervals.trans hpb) x)

lemma leq_of_isBottom (hp : p.WellFormed) (hpb : p.isBottom = true) (q : Pentagon) : p.leq q = true := by
  simp [leq, hp.isBottom_bounds, hpb]

lemma leq_iff (hp : p.WellFormed) (hq : q.WellFormed) (hpb : p.isBottom = false) :
    p.leq q = true ↔ q.isBottom = false ∧
      (∀ x, (p.intervals.get x).leq (q.intervals.get x) = true) ∧ ∀ x, ∀ y ∈ q.bounds.get x, p.Orders x y := by
  have hpb' := hp.isBottom_bounds.trans hpb
  have hpi := hp.isBottom_intervals.trans hpb
  cases hqb : q.isBottom with
  | true => simp [leq, hpb', hpi, hqb]
  | false =>
    have hqi := hq.isBottom_intervals.trans hqb
    have hbounds := Env.forall_get_iff (P := fun x v => ∀ y ∈ v, p.Orders x y) (hq.reachable_bounds hqb)
      fun x y hy => absurd hy BoundSet.not_mem_top
    -- The test skips a `y` without an interval, and nothing lies below such a `y` anyway.
    have hall : ∀ x y, (p.intervals.get x).high < (p.intervals.get y).low →
        (p.intervals.get y).isAll = false := by
      intro x y hlt
      rw [← Bool.not_eq_true, Interval.isAll_iff]
      exact (Interval.ne_all_of_high_lt_low hlt).2
    rw [hbounds]
    simp only [leq, hpb', hpi, hqb, Bool.or_self, Bool.false_eq_true, if_false, Bool.and_eq_true,
      Env.leq_iff hpi, hqi, true_and, List.all_eq_true, Bool.or_eq_true, decide_eq_true_eq, Bool.not_eq_true']
    refine and_congr_right fun _ => forall₂_congr fun e _ => forall₂_congr fun y _ => ?_
    exact or_congr_right ⟨fun h => h.2, fun h => ⟨hall _ _ h, h⟩⟩

end WellFormed

lemma Orders.of_leq (hp : p.WellFormed) (hq : q.WellFormed) (hpb : p.isBottom = false)
    (hle : p.leq q = true) (h : q.Orders x y) : p.Orders x y := by
  obtain ⟨_, hintervals, hbounds⟩ := (hp.leq_iff hq hpb).mp hle
  rcases h with hy | hlt
  · exact hbounds x y hy
  · exact .inr (Interval.high_lt_low_of_leq (hp.nonempty hpb x) (hp.nonempty hpb y) (hintervals x)
      (hintervals y) hlt)

namespace WellFormed

lemma leq_refl (hp : p.WellFormed) : p.leq p = true := by
  cases hpb : p.isBottom with
  | true => exact hp.leq_of_isBottom hpb p
  | false => exact (hp.leq_iff hp hpb).mpr ⟨hpb, fun x => Interval.leq_refl _, fun x y hy => .inl hy⟩

lemma leq_trans (hp : p.WellFormed) (hq : q.WellFormed) (hr : r.WellFormed) (hpq : p.leq q = true)
    (hqr : q.leq r = true) : p.leq r = true := by
  cases hpb : p.isBottom with
  | true => exact hp.leq_of_isBottom hpb r
  | false =>
    obtain ⟨hqb, hpqi, _⟩ := (hp.leq_iff hq hpb).mp hpq
    obtain ⟨hrb, hqri, hqrb⟩ := (hq.leq_iff hr hqb).mp hqr
    refine (hp.leq_iff hr hpb).mpr ⟨hrb, fun x => Interval.leq_trans (hpqi x) (hqri x), fun x y hy => ?_⟩
    exact Orders.of_leq hp hq hpb hpq (hqrb x y hy)

lemma leq_of_same (hp : p.WellFormed) (hq : q.WellFormed) (h : p.same q = true) : p.leq q = true := by
  obtain ⟨hb, hget⟩ := (hp.same_iff_get hq).mp h
  cases hpb : p.isBottom with
  | true => exact hp.leq_of_isBottom hpb q
  | false =>
    refine (hp.leq_iff hq hpb).mpr ⟨hb ▸ hpb, fun x => ?_, fun x y hy => .inl ?_⟩
    · rw [(hget x).2]
      exact Interval.leq_refl _
    · rwa [(hget x).1]

lemma same_refl (hp : p.WellFormed) : p.same p = true :=
  (hp.same_iff_get hp).mpr ⟨rfl, fun _ => ⟨rfl, rfl⟩⟩

lemma same_trans (hp : p.WellFormed) (hq : q.WellFormed) (hr : r.WellFormed) (hpq : p.same q = true)
    (hqr : q.same r = true) : p.same r = true := by
  obtain ⟨hpqb, hpqget⟩ := (hp.same_iff_get hq).mp hpq
  obtain ⟨hqrb, hqrget⟩ := (hq.same_iff_get hr).mp hqr
  refine (hp.same_iff_get hr).mpr ⟨hpqb.trans hqrb, fun x => ⟨?_, ?_⟩⟩
  · exact (hpqget x).1.trans (hqrget x).1
  · exact (hpqget x).2.trans (hqrget x).2

section Join

variable (hp : p.WellFormed) (hq : q.WellFormed)
include hp hq

lemma get_intervals_join (hpb : p.isBottom = false) (hqb : q.isBottom = false) (x : String) :
    (p.join q).intervals.get x = (p.intervals.get x).join (q.intervals.get x) := by
  rw [hp.join_eq hq hpb hqb]
  exact Env.get_join (hp.isBottom_intervals.trans hpb) (hq.isBottom_intervals.trans hqb) x

lemma mem_join_bounds (hpb : p.isBottom = false) (hqb : q.isBottom = false) :
    y ∈ (p.join q).bounds.get x ↔
      p.Orders x y ∧ q.Orders x y ∧ (y ∈ p.bounds.get x ∨ y ∈ q.bounds.get x) := by
  rw [hp.join_eq hq hpb hqb, mem_joinBounds (hp.isBottom_bounds.trans hpb) (hq.isBottom_bounds.trans hqb)]
  simp only [Orders]
  tauto

lemma join_comm : (p.join q).same (q.join p) = true := by
  cases hpb : p.isBottom with
  | true =>
    cases hqb : q.isBottom with
    | true =>
      rw [join_of_isBottom_left hpb, join_of_isBottom_left hqb]
      exact hq.same_of_isBottom hp hqb hpb
    | false =>
      rw [join_of_isBottom_left hpb, join_of_isBottom_right hqb hpb]
      exact hq.same_refl
  | false =>
    cases hqb : q.isBottom with
    | true =>
      rw [join_of_isBottom_right hpb hqb, join_of_isBottom_left hqb]
      exact hp.same_refl
    | false =>
      have hpq := hp.join hq
      have hqp := hq.join hp
      have hpqb := hp.isBottom_join hq hpb
      have hqpb := hq.isBottom_join hp hqb
      refine (hpq.same_iff_get hqp).mpr ⟨hpqb.trans hqpb.symm, fun x => ⟨?_, ?_⟩⟩
      · apply BoundSet.ext (hpq.bounds_ne hpqb x) (hqp.bounds_ne hqpb x)
        intro y
        rw [hp.mem_join_bounds hq hpb hqb, hq.mem_join_bounds hp hqb hpb]
        tauto
      · rw [hp.get_intervals_join hq hpb hqb, hq.get_intervals_join hp hqb hpb]
        exact LatticeDomain.join_comm _ _

lemma leq_join_left : p.leq (p.join q) = true := by
  cases hpb : p.isBottom with
  | true => exact hp.leq_of_isBottom hpb _
  | false =>
    cases hqb : q.isBottom with
    | true =>
      rw [join_of_isBottom_right hpb hqb]
      exact hp.leq_refl
    | false =>
      refine (hp.leq_iff (hp.join hq) hpb).mpr ⟨hp.isBottom_join hq hpb, fun x => ?_, fun x y hy => ?_⟩
      · rw [hp.get_intervals_join hq hpb hqb]
        exact Interval.leq_hull_left _ _
      · exact ((hp.mem_join_bounds hq hpb hqb).mp hy).1

lemma leq_join_right : q.leq (p.join q) = true :=
  hq.leq_trans (hq.join hp) (hp.join hq) (hq.leq_join_left hp)
    ((hq.join hp).leq_of_same (hp.join hq) (hq.join_comm hp))

end Join

lemma join_self (hp : p.WellFormed) : (p.join p).same p = true := by
  have hpp := hp.join hp
  cases hpb : p.isBottom with
  | true =>
    rw [join_of_isBottom_left hpb]
    exact hp.same_refl
  | false =>
    have hppb := hp.isBottom_join hp hpb
    refine (hpp.same_iff_get hp).mpr ⟨hppb.trans hpb.symm, fun x => ⟨?_, ?_⟩⟩
    · apply BoundSet.ext (hpp.bounds_ne hppb x) (hp.bounds_ne hpb x)
      intro y
      rw [hp.mem_join_bounds hp hpb hpb, or_self]
      exact ⟨fun h => h.2.2, fun hy => ⟨.inl hy, .inl hy, hy⟩⟩
    · rw [hp.get_intervals_join hp hpb hpb]
      exact LatticeDomain.join_self _

section Closure

variable (hp : p.WellFormed) (hpb : p.isBottom = false)
include hp hpb

lemma closure_eq : p.closure = ⟨addBounds p.bounds p.missingBounds, p.intervals⟩ := by
  simp only [Pentagon.closure, hpb, Bool.false_eq_true, if_false]
  exact make_of_reachable (isBottom_addBounds (hp.isBottom_bounds.trans hpb) _) (hp.isBottom_intervals.trans hpb)

lemma intervals_closure : p.closure.intervals = p.intervals := by
  rw [hp.closure_eq hpb]

lemma isBottom_closure : p.closure.isBottom = false := by
  rw [← hp.closure.isBottom_intervals, hp.intervals_closure hpb]
  exact hp.isBottom_intervals.trans hpb

lemma get?_of_high_lt_low (h : (p.intervals.get x).high < (p.intervals.get y).low) :
    p.intervals.facts.get? x = some (p.intervals.get x) ∧
      p.intervals.facts.get? y = some (p.intervals.get y) := by
  rw [Env.get_eq (hp.reachable_intervals hpb), Env.get_eq (hp.reachable_intervals hpb)] at h ⊢
  constructor
  · cases hx : p.intervals.facts.get? x with
    | some a => rfl
    | none =>
      rw [hx] at h
      exact absurd h (ExtInt.not_posInf_lt _)
  · cases hy : p.intervals.facts.get? y with
    | some a => rfl
    | none =>
      rw [hy] at h
      exact absurd h (ExtInt.not_lt_negInf _)

lemma mem_missingBounds (h : (p.intervals.get x).high < (p.intervals.get y).low)
    (hy : y ∉ p.bounds.get x) : ∃ names, p.missingBounds.get? x = some names ∧ y ∈ names := by
  obtain ⟨hgetx, hgety⟩ := hp.get?_of_high_lt_low hpb h
  have hne : y ≠ x := by
    rintro rfl
    exact Interval.not_high_lt_low _ h
  have himplied : y ∈ impliedBounds p.intervals.facts x (p.intervals.get x) :=
    mem_impliedBounds.mpr ⟨hne, _, hgety, h⟩
  refine ⟨_, ?_, himplied⟩
  rw [missingBounds, Table.get?_filterMap, hgetx, Option.bind_some]
  dsimp only
  rw [if_neg]
  rw [Bool.or_eq_true, decide_eq_true_eq, NameSet.isEmpty_iff, not_or]
  constructor
  · intro hempty
    rw [hempty] at himplied
    exact NameSet.not_mem_empty y himplied
  · intro hsub
    exact hy (hsub y himplied)

lemma mem_closure_bounds : y ∈ p.closure.bounds.get x ↔ p.Orders x y := by
  rw [hp.closure_eq hpb, mem_addBounds (hp.isBottom_bounds.trans hpb), Orders]
  constructor
  · rintro (hy | ⟨names, hx, hy⟩)
    · exact .inl hy
    · obtain ⟨a, ha, rfl, _⟩ := get?_missingBounds hx
      obtain ⟨_, c, hc, hlt⟩ := mem_impliedBounds.mp hy
      rw [Env.get_eq (hp.reachable_intervals hpb), Env.get_eq (hp.reachable_intervals hpb), ha, hc]
      exact .inr hlt
  · rintro (hy | hlt)
    · exact .inl hy
    · by_cases hy : y ∈ p.bounds.get x
      · exact .inl hy
      · exact .inr (hp.mem_missingBounds hpb hlt hy)

end Closure

end WellFormed

section Make

variable {b : Bounds} {i : Env Interval} (hb : b.WellFormed) (hi : i.WellFormed) (hbb : b.isBottom = false)
include hb hi hbb

lemma isBottom_closure_make : (make b i).closure.isBottom = i.isBottom := by
  cases hib : i.isBottom with
  | true =>
    rw [make_of_isBottom_intervals b hib]
    rfl
  | false =>
    apply (wellFormed_make hb hi).isBottom_closure
    simp [make_of_reachable hbb hib, isBottom, hbb]

variable (hib : i.isBottom = false)
include hib

lemma intervals_closure_make : (make b i).closure.intervals = i := by
  have hwf := wellFormed_make hb hi
  rw [make_of_reachable hbb hib] at hwf ⊢
  exact hwf.intervals_closure (by simp [isBottom, hbb])

lemma mem_closure_make : y ∈ (make b i).closure.bounds.get x ↔ y ∈ b.get x ∨ (i.get x).high < (i.get y).low := by
  have hwf := wellFormed_make hb hi
  rw [make_of_reachable hbb hib] at hwf ⊢
  exact hwf.mem_closure_bounds (by simp [isBottom, hbb])

lemma leq_closure_make (hr : r.WellFormed) (hrb : r.isBottom = false)
    (hintervals : ∀ x, (r.intervals.get x).leq (i.get x) = true)
    (hbounds : ∀ x y, y ∈ b.get x → r.Orders x y) : r.leq (make b i).closure = true := by
  have hwf := (wellFormed_make hb hi).closure
  have hb' : (make b i).closure.isBottom = false := (isBottom_closure_make hb hi hbb).trans hib
  refine (hr.leq_iff hwf hrb).mpr ⟨hb', fun x => ?_, fun x y hy => ?_⟩
  · rw [intervals_closure_make hb hi hbb hib]
    exact hintervals x
  · -- A bound that closing adds follows from the intervals, and those of `r` lie within them.
    rcases (mem_closure_make hb hi hbb hib).mp hy with hy | hlt
    · exact hbounds x y hy
    · exact .inr (Interval.high_lt_low_of_leq (hr.nonempty hrb x) (hr.nonempty hrb y) (hintervals x)
        (hintervals y) hlt)

end Make

lemma meet_of_reachable (hpb : p.isBottom = false) (hqb : q.isBottom = false) :
    p.meet q = (make (p.bounds.meet q.bounds) (p.intervals.meet q.intervals)).closure := by
  simp [meet, meetOpen, hpb, hqb]

namespace WellFormed

section Meet

variable (hp : p.WellFormed) (hq : q.WellFormed)
include hp hq

lemma meetOpen : (p.meetOpen q).WellFormed := wellFormed_make (hp.1.meet hq.1) (hp.2.1.meet hq.2.1)

lemma meet : (p.meet q).WellFormed := by
  rw [Pentagon.meet]
  split
  · exact hp
  · split
    · exact hq
    · exact (hp.meetOpen hq).closure

lemma isBottom_bounds_meet (hpb : p.isBottom = false) (hqb : q.isBottom = false) :
    (p.bounds.meet q.bounds).isBottom = false :=
  Bounds.isBottom_meet (hp.isBottom_bounds.trans hpb) (hq.isBottom_bounds.trans hqb)

lemma reachable_of_meet (h : (p.meet q).isBottom = false) :
    p.isBottom = false ∧ q.isBottom = false ∧ (p.intervals.meet q.intervals).isBottom = false := by
  cases hpb : p.isBottom with
  | true => simp [Pentagon.meet, hpb] at h
  | false =>
    cases hqb : q.isBottom with
    | true => simp [Pentagon.meet, hpb, hqb] at h
    | false =>
      rw [meet_of_reachable hpb hqb,
        isBottom_closure_make (hp.1.meet hq.1) (hp.2.1.meet hq.2.1) (hp.isBottom_bounds_meet hq hpb hqb)] at h
      exact ⟨rfl, rfl, h⟩

lemma get_intervals_meet (h : (p.meet q).isBottom = false) (x : String) :
    (p.meet q).intervals.get x = (p.intervals.get x).meet (q.intervals.get x) := by
  obtain ⟨hpb, hqb, hi⟩ := hp.reachable_of_meet hq h
  rw [meet_of_reachable hpb hqb,
    intervals_closure_make (hp.1.meet hq.1) (hp.2.1.meet hq.2.1) (hp.isBottom_bounds_meet hq hpb hqb) hi]
  exact Env.get_meet (hp.isBottom_intervals.trans hpb) (hq.isBottom_intervals.trans hqb) hi x

lemma mem_meet_bounds (h : (p.meet q).isBottom = false) :
    y ∈ (p.meet q).bounds.get x ↔ y ∈ p.bounds.get x ∨ y ∈ q.bounds.get x ∨
      ((p.meet q).intervals.get x).high < ((p.meet q).intervals.get y).low := by
  obtain ⟨hpb, hqb, hi⟩ := hp.reachable_of_meet hq h
  have hbounds := hp.isBottom_bounds_meet hq hpb hqb
  rw [meet_of_reachable hpb hqb, mem_closure_make (hp.1.meet hq.1) (hp.2.1.meet hq.2.1) hbounds hi,
    intervals_closure_make (hp.1.meet hq.1) (hp.2.1.meet hq.2.1) hbounds hi,
    Bounds.mem_meet (hp.isBottom_bounds.trans hpb) (hq.isBottom_bounds.trans hqb), or_assoc]

lemma meet_leq_left : (p.meet q).leq p = true := by
  cases h : (p.meet q).isBottom with
  | true => exact (hp.meet hq).leq_of_isBottom h p
  | false =>
    refine ((hp.meet hq).leq_iff hp h).mpr ⟨(hp.reachable_of_meet hq h).1, fun x => ?_, fun x y hy => .inl ?_⟩
    · rw [hp.get_intervals_meet hq h]
      exact Interval.meet_leq_left _ _
    · exact (hp.mem_meet_bounds hq h).mpr (.inl hy)

lemma meet_leq_right : (p.meet q).leq q = true := by
  cases h : (p.meet q).isBottom with
  | true => exact (hp.meet hq).leq_of_isBottom h q
  | false =>
    refine ((hp.meet hq).leq_iff hq h).mpr ⟨(hp.reachable_of_meet hq h).2.1, fun x => ?_, fun x y hy => .inl ?_⟩
    · rw [hp.get_intervals_meet hq h]
      exact Interval.meet_leq_right _ _
    · exact (hp.mem_meet_bounds hq h).mpr (.inr (.inl hy))

lemma leq_meet (hr : r.WellFormed) (hrp : r.leq p = true) (hrq : r.leq q = true) :
    r.leq (p.meet q) = true := by
  cases hrb : r.isBottom with
  | true => exact hr.leq_of_isBottom hrb _
  | false =>
    obtain ⟨hpb, hrpi, hrpo⟩ := (hr.leq_iff hp hrb).mp hrp
    obtain ⟨hqb, hrqi, hrqo⟩ := (hr.leq_iff hq hrb).mp hrq
    have hpi := hp.isBottom_intervals.trans hpb
    have hqi := hq.isBottom_intervals.trans hqb
    have hle := fun x => Interval.leq_meet (hrpi x) (hrqi x)
    have hi : (p.intervals.meet q.intervals).isBottom = false := (Env.isBottom_meet_iff hpi hqi).mpr fun x =>
      (Interval.ne_empty_iff _).mpr (Interval.nonempty_of_leq (hle x) (hr.nonempty hrb x))
    rw [meet_of_reachable hpb hqb]
    refine leq_closure_make (hp.1.meet hq.1) (hp.2.1.meet hq.2.1) (hp.isBottom_bounds_meet hq hpb hqb) hi hr hrb
      (fun x => ?_) (fun x y hy => ?_)
    · rw [Env.get_meet hpi hqi hi]
      exact hle x
    · rcases (Bounds.mem_meet (hp.isBottom_bounds.trans hpb) (hq.isBottom_bounds.trans hqb)).mp hy with hy | hy
      · exact hrpo x y hy
      · exact hrqo x y hy

lemma models_meet_iff : (p.meet q).Models s ↔ p.Models s ∧ q.Models s := by
  constructor
  · intro h
    exact ⟨h.of_leq (hp.meet hq) (hp.meet_leq_left hq), h.of_leq (hp.meet hq) (hp.meet_leq_right hq)⟩
  · rintro ⟨hps, hqs⟩
    obtain ⟨hpb, hpi⟩ := hp.models_iff.mp hps
    obtain ⟨hqb, hqi⟩ := hq.models_iff.mp hqs
    rw [meet_of_reachable hps.1 hqs.1]
    exact Models.closure (hp.meetOpen hq) (models_make (hpb.meet hqb) (hpi.meet hqi))

end Meet

end WellFormed

theorem order_laws (hp : p.WellFormed) (hq : q.WellFormed) (hr : r.WellFormed) :
    p.leq p = true ∧ (p.leq q = true → q.leq r = true → p.leq r = true) ∧
      (p.leq q = true → ∀ s, p.Models s → q.Models s) ∧
      (p.leq (p.join q) = true ∧ q.leq (p.join q) = true) ∧
      (p.join q).same (q.join p) = true ∧ (p.join p).same p = true ∧
      ((p.meet q).leq p = true ∧ (p.meet q).leq q = true) ∧
      (r.leq p = true → r.leq q = true → r.leq (p.meet q) = true) ∧
      ∀ s, (p.meet q).Models s ↔ p.Models s ∧ q.Models s := by
  refine ⟨hp.leq_refl, hp.leq_trans hq hr, fun hle s h => h.of_leq hp hle, ?_, hp.join_comm hq, hp.join_self,
    ?_, hp.leq_meet hq hr, fun s => hp.models_meet_iff hq⟩
  · exact ⟨hp.leq_join_left hq, hp.leq_join_right hq⟩
  · exact ⟨hp.meet_leq_left hq, hp.meet_leq_right hq⟩

theorem order_laws_unclosed :
    let p : Pentagon :=
      ⟨.top, ⟨.ofList [("x", .ofBounds (.fin 0) (.fin 1)), ("y", .ofBounds (.fin 5) (.fin 6))], false⟩⟩
    let q : Pentagon :=
      ⟨⟨.ofList [("x", .singleton "y")], false⟩, ⟨.ofList [("x", .ofBounds (.fin 0) (.fin 9))], false⟩⟩
    let r : Pentagon := ⟨⟨.ofList [("x", .singleton "y")], false⟩, .top⟩
    (p.WellFormed ∧ q.WellFormed ∧ r.WellFormed) ∧ "y" ∉ p.bounds.get "x" ∧
      "y" ∈ (p.join q).bounds.get "x" ∧ p.leq q = true ∧ q.leq r = true ∧ p.leq r = true ∧
      (p.join q).same (q.join p) = true ∧ (p.meet q).leq p = true ∧
      ∀ s, (p.meet q).Models s ↔ p.Models s ∧ q.Models s := by
  intro p q r
  have hp : p.WellFormed := by decide
  have hq : q.WellFormed := by decide
  have hr : r.WellFormed := by decide
  have hpq : p.leq q = true := by decide
  have hqr : q.leq r = true := by decide
  obtain ⟨_, htrans, _, _, hcomm, _, hlower, _, hmodels⟩ := order_laws hp hq hr
  exact ⟨⟨hp, hq, hr⟩, by decide, by decide, hpq, hqr, htrans hpq hqr, hcomm, hlower.1, hmodels⟩

end ValueAnalysis.Pentagon
