import ValueAnalysis.Proofs.Bounds.State
import ValueAnalysis.Proofs.Env.Intervals

/-! The operations of pentagons on stores. Closing a pentagon and joining two only record bounds that hold
in every store, whether a component records them or the intervals prove them. -/

namespace ValueAnalysis.Pentagon

open AbstractDomain (bottom top)

variable {p q : Pentagon} {b : Bounds} {i : Env Interval} {s : Store} {x y : String}

namespace WellFormed

lemma isBottom_bounds (hp : p.WellFormed) : p.bounds.isBottom = p.isBottom := by
  rw [Pentagon.isBottom, hp.1.isBottom_eq, hp.2.1.isBottom_eq, hp.2.2, Bool.and_self]

lemma isBottom_intervals (hp : p.WellFormed) : p.intervals.isBottom = p.isBottom := by
  rw [Pentagon.isBottom, hp.1.isBottom_eq, hp.2.1.isBottom_eq, hp.2.2, Bool.and_self]

lemma models_iff (hp : p.WellFormed) : p.Models s ↔ p.bounds.Models s ∧ p.intervals.Models s := by
  rw [Pentagon.Models, Bounds.Models, Env.Models, hp.isBottom_bounds, and_assoc]
  exact and_congr_right fun _ => and_comm

end WellFormed

lemma wellFormed_bottom : bottom.WellFormed := ⟨Env.wellFormed_bottom, Env.wellFormed_bottom, rfl⟩

lemma make_of_isBottom_bounds (hb : b.isBottom = true) (i : Env Interval) : make b i = .bottom := by
  simp [make, hb]

lemma make_of_isBottom_intervals (b : Bounds) (hi : i.isBottom = true) : make b i = .bottom := by
  simp [make, hi]

lemma make_of_reachable (hb : b.isBottom = false) (hi : i.isBottom = false) : make b i = ⟨b, i⟩ := by
  simp [make, hb, hi]

lemma make_cases (b : Bounds) (i : Env Interval) :
    make b i = .bottom ∨ b.isBottom = false ∧ i.isBottom = false ∧ make b i = ⟨b, i⟩ := by
  cases hb : b.isBottom with
  | true => exact .inl (make_of_isBottom_bounds hb i)
  | false =>
    cases hi : i.isBottom with
    | true => exact .inl (make_of_isBottom_intervals b hi)
    | false => exact .inr ⟨rfl, rfl, make_of_reachable hb hi⟩

lemma wellFormed_make (hb : b.WellFormed) (hi : i.WellFormed) : (make b i).WellFormed := by
  cases hbb : b.isBottom with
  | true =>
    rw [make_of_isBottom_bounds hbb]
    exact wellFormed_bottom
  | false =>
    cases hib : i.isBottom with
    | true =>
      rw [make_of_isBottom_intervals b hib]
      exact wellFormed_bottom
    | false =>
      rw [make_of_reachable hbb hib]
      exact ⟨hb, hi, (Env.reachable_of_isBottom hbb).trans (Env.reachable_of_isBottom hib).symm⟩

lemma models_make (hb : b.Models s) (hi : i.Models s) : (make b i).Models s := by
  rw [make_of_reachable hb.1 hi.isBottom]
  refine ⟨?_, hi, hb.2⟩
  simp [Pentagon.isBottom, hb.1]

lemma get_addBounds (hb : b.unreachable = false) (extra : Table NameSet) (x : String) :
    (addBounds b extra).get x = (extra.get? x).elim (b.get x) fun names => (b.get x).meet (.above names) := by
  have hr : (addBounds b extra).unreachable = false := hb
  rw [Env.get_eq hr, Env.get_eq hb, addBounds, Table.get?_merge]
  cases b.facts.get? x <;> cases extra.get? x <;> rfl

lemma isBottom_addBounds (hb : b.isBottom = false) (extra : Table NameSet) :
    (addBounds b extra).isBottom = false := by
  have hr := Env.reachable_of_isBottom hb
  refine Env.isBottom_eq_false_iff.mpr ⟨hr, fun x => ?_⟩
  rw [get_addBounds hr]
  cases extra.get? x with
  | none => exact Env.get_ne_bottom hb x
  | some names => exact BoundSet.meet_ne_unreachable (Env.get_ne_bottom hb x) (BoundSet.above_ne_unreachable names)

lemma mem_addBounds (hb : b.isBottom = false) {extra : Table NameSet} :
    y ∈ (addBounds b extra).get x ↔ y ∈ b.get x ∨ ∃ names, extra.get? x = some names ∧ y ∈ names := by
  rw [get_addBounds (Env.reachable_of_isBottom hb)]
  cases extra.get? x with
  | none => simp
  | some names =>
    simp only [Option.elim_some, Option.some.injEq, exists_eq_left',
      BoundSet.mem_meet (Env.get_ne_bottom hb x) (BoundSet.above_ne_unreachable names)]
    rfl

lemma wellFormed_addBounds (h : b.WellFormed) (hr : b.unreachable = false) {extra : Table NameSet}
    (hextra : ∀ x names, extra.get? x = some names → ∃ y, y ∈ names) : (addBounds b extra).WellFormed := by
  have hb : b.isBottom = false := h.isBottom_eq.trans hr
  rw [Env.wellFormed_iff]
  constructor
  · intro x v hv
    have hget : (addBounds b extra).get x = v := by
      have hr' : (addBounds b extra).unreachable = false := hr
      rw [Env.get_eq hr', hv, Option.getD_some]
    refine ⟨fun ht => ?_, hget ▸ Env.get_ne_bottom (isBottom_addBounds hb extra) x⟩
    have hnone : ∀ y, y ∉ (addBounds b extra).get x := fun y => by
      rw [hget, ht]
      exact BoundSet.not_mem_top
    cases hx : extra.get? x with
    | some names =>
      obtain ⟨y, hy⟩ := hextra x names hx
      exact hnone y ((mem_addBounds hb).mpr (.inr ⟨names, hx, hy⟩))
    | none =>
      rw [addBounds, Table.get?_merge, hx] at hv
      cases hbx : b.facts.get? x with
      | none => simp [hbx] at hv
      | some w =>
        simp only [hbx, Option.isSome_some, true_or, if_true, Option.elim_none, Option.getD_some,
          Option.some.injEq] at hv
        exact ((Env.wellFormed_iff.mp h).1 x w hbx).1 (hv.trans ht)
  · intro hu
    have hu' : b.unreachable = true := hu
    simp [hr] at hu'

lemma models_addBounds (h : b.Models s) {extra : Table NameSet}
    (hextra : ∀ x names, extra.get? x = some names → ∀ y ∈ names, s x < s y) :
    (addBounds b extra).Models s := by
  refine ⟨isBottom_addBounds h.1 extra, fun x y hy => ?_⟩
  rcases (mem_addBounds h.1).mp hy with hy | ⟨names, hx, hy⟩
  · exact h.lt hy
  · exact hextra x names hx y hy

lemma exists_mem_of_isEmpty {names : NameSet} (h : ¬ names.isEmpty = true) : ∃ y, y ∈ names := by
  by_contra hnone
  have hempty : names = ∅ := NameSet.ext fun y =>
    ⟨fun hy => absurd ⟨y, hy⟩ hnone, fun hy => absurd hy (NameSet.not_mem_empty y)⟩
  exact h (NameSet.isEmpty_iff.mpr hempty)

lemma mem_impliedBounds {known : Table Interval} {a : Interval} :
    y ∈ impliedBounds known x a ↔ y ≠ x ∧ ∃ c, known.get? y = some c ∧ a.high < c.low := by
  simp only [impliedBounds, NameSet.mem_ofList, List.mem_map, List.mem_filter, Prod.exists,
    Table.mem_entries_iff, Bool.and_eq_true, decide_eq_true_eq]
  constructor
  · rintro ⟨z, c, ⟨hz, hne, hlt⟩, rfl⟩
    exact ⟨hne, c, hz, hlt⟩
  · rintro ⟨hne, c, hy, hlt⟩
    exact ⟨y, c, ⟨hy, hne, hlt⟩, rfl⟩

lemma get?_missingBounds {names : NameSet} (h : p.missingBounds.get? x = some names) :
    ∃ a, p.intervals.facts.get? x = some a ∧ names = impliedBounds p.intervals.facts x a ∧
      ∃ y, y ∈ names := by
  rw [missingBounds, Table.get?_filterMap] at h
  obtain ⟨a, ha, h⟩ := Option.bind_eq_some_iff.mp h
  simp only at h
  split at h
  · cases h
  · rename_i hcond
    obtain rfl := Option.some.inj h
    exact ⟨a, ha, rfl, exists_mem_of_isEmpty fun he => hcond (by simp [he])⟩

lemma get?_witnessedBounds {names : NameSet} :
    (witnessedBounds b i).get? x = some names ↔
      (i.get x).isEmpty = false ∧ (∃ y, y ∈ names) ∧ ∃ v, b.facts.get? x = some v ∧
        names = v.names.filter fun y => !(i.get y).isEmpty && decide ((i.get x).high < (i.get y).low) := by
  rw [witnessedBounds, Table.get?_filterMap, Option.bind_eq_some_iff]
  constructor
  · rintro ⟨v, hv, h⟩
    simp only at h
    split at h
    · cases h
    · rename_i hcond
      obtain rfl := Option.some.inj h
      simp only [Bool.or_eq_true, not_or, Bool.not_eq_true] at hcond
      exact ⟨hcond.1, exists_mem_of_isEmpty (by simp [hcond.2]), v, hv, rfl⟩
  · rintro ⟨hx, ⟨y, hy⟩, v, hv, rfl⟩
    refine ⟨v, hv, ?_⟩
    simp only
    rw [if_neg]
    rw [Bool.or_eq_true, not_or]
    refine ⟨by simp [hx], fun he => ?_⟩
    rw [NameSet.isEmpty_iff.mp he] at hy
    exact NameSet.not_mem_empty y hy

lemma nonempty_of_high_lt_low {a c : Interval} (h : a.high < c.low) :
    a.isEmpty = false ∧ c.isEmpty = false := by
  have hle := ExtInt.le_of_lt h
  constructor
  · rw [← Interval.ne_empty_iff]
    rintro rfl
    exact ExtInt.left_ne_nan hle rfl
  · exact (ExtInt.isNan_eq_false_iff c.low).mpr (ExtInt.right_ne_nan hle)

lemma mem_witnessedBounds (hb : b.unreachable = false) :
    (∃ names, (witnessedBounds b i).get? x = some names ∧ y ∈ names) ↔
      y ∈ b.get x ∧ (i.get x).high < (i.get y).low := by
  constructor
  · rintro ⟨names, hx, hy⟩
    obtain ⟨_, _, v, hv, rfl⟩ := get?_witnessedBounds.mp hx
    rw [NameSet.mem_filter, Bool.and_eq_true, decide_eq_true_eq] at hy
    rw [Env.get_eq hb, hv]
    exact ⟨hy.1, hy.2.2⟩
  · rintro ⟨hy, hlt⟩
    obtain ⟨hx, hy'⟩ := nonempty_of_high_lt_low hlt
    rw [Env.get_eq hb] at hy
    cases hv : b.facts.get? x with
    | none =>
      rw [hv] at hy
      exact absurd hy BoundSet.not_mem_top
    | some v =>
      rw [hv] at hy
      have hmem : y ∈ v.names.filter fun y =>
          !(i.get y).isEmpty && decide ((i.get x).high < (i.get y).low) := by
        rw [NameSet.mem_filter]
        exact ⟨hy, by simp [hy', hlt]⟩
      exact ⟨_, get?_witnessedBounds.mpr ⟨hx, ⟨y, hmem⟩, v, hv, rfl⟩, hmem⟩

lemma isBottom_joinBounds (hp : p.bounds.isBottom = false) (hq : q.bounds.isBottom = false) :
    (joinBounds p q).isBottom = false :=
  isBottom_addBounds (isBottom_addBounds (Env.isBottom_join hp hq) _) _

lemma mem_joinBounds (hp : p.bounds.isBottom = false) (hq : q.bounds.isBottom = false) :
    y ∈ (joinBounds p q).get x ↔
      (y ∈ p.bounds.get x ∧ y ∈ q.bounds.get x) ∨
      (y ∈ p.bounds.get x ∧ (q.intervals.get x).high < (q.intervals.get y).low) ∨
      (y ∈ q.bounds.get x ∧ (p.intervals.get x).high < (p.intervals.get y).low) := by
  have hjoin := Env.isBottom_join hp hq
  rw [joinBounds, mem_addBounds (isBottom_addBounds hjoin _), mem_addBounds hjoin,
    mem_witnessedBounds (Env.reachable_of_isBottom hp), mem_witnessedBounds (Env.reachable_of_isBottom hq),
    Env.get_join hp hq, or_assoc]
  exact or_congr_left (BoundSet.mem_join (Env.get_ne_bottom hp x) (Env.get_ne_bottom hq x))

lemma models_joinBounds (hp : p.bounds.isBottom = false) (hq : q.bounds.isBottom = false)
    (h : p.bounds.Models s ∧ p.intervals.Models s ∨ q.bounds.Models s ∧ q.intervals.Models s) :
    (joinBounds p q).Models s := by
  refine ⟨isBottom_joinBounds hp hq, fun x y hy => ?_⟩
  rcases h with ⟨hb, hi⟩ | ⟨hb, hi⟩
  · rcases (mem_joinBounds hp hq).mp hy with ⟨hy, _⟩ | ⟨hy, _⟩ | ⟨_, hlt⟩
    · exact hb.lt hy
    · exact hb.lt hy
    · exact Interval.lt_of_high_lt_low (hi x) (hi y) hlt
  · rcases (mem_joinBounds hp hq).mp hy with ⟨_, hy⟩ | ⟨_, hlt⟩ | ⟨hy, _⟩
    · exact hb.lt hy
    · exact Interval.lt_of_high_lt_low (hi x) (hi y) hlt
    · exact hb.lt hy

lemma join_of_reachable (hp : p.isBottom = false) (hq : q.isBottom = false) :
    p.join q = make (joinBounds p q) (p.intervals.join q.intervals) := by
  simp [join, hp, hq]

lemma widen_of_reachable (hp : p.isBottom = false) (hq : q.isBottom = false) :
    p.widen q = make (p.bounds.widen q.bounds) (p.intervals.widen q.intervals) := by
  simp [widen, hp, hq]

namespace WellFormed

lemma widen_eq (hp : p.WellFormed) (hq : q.WellFormed) (hpb : p.isBottom = false) (hqb : q.isBottom = false) :
    p.widen q = ⟨p.bounds.widen q.bounds, p.intervals.widen q.intervals⟩ := by
  rw [widen_of_reachable hpb hqb]
  apply make_of_reachable
  · exact Env.isBottom_widen (hp.isBottom_bounds.trans hpb) (hq.isBottom_bounds.trans hqb)
  · exact Env.isBottom_widen (hp.isBottom_intervals.trans hpb) (hq.isBottom_intervals.trans hqb)

lemma get_bounds_widen (hp : p.WellFormed) (hq : q.WellFormed) (hpb : p.isBottom = false)
    (hqb : q.isBottom = false) (x : String) :
    (p.widen q).bounds.get x = (p.bounds.get x).widen (q.bounds.get x) := by
  rw [hp.widen_eq hq hpb hqb]
  exact Env.get_widen (hp.isBottom_bounds.trans hpb) (hq.isBottom_bounds.trans hqb) x

lemma get_intervals_widen (hp : p.WellFormed) (hq : q.WellFormed) (hpb : p.isBottom = false)
    (hqb : q.isBottom = false) (x : String) :
    (p.widen q).intervals.get x = (p.intervals.get x).widen (q.intervals.get x) := by
  rw [hp.widen_eq hq hpb hqb]
  exact Env.get_widen (hp.isBottom_intervals.trans hpb) (hq.isBottom_intervals.trans hqb) x

lemma isBottom_widen (hp : p.WellFormed) (hq : q.WellFormed) (hpb : p.isBottom = false)
    (hqb : q.isBottom = false) : (p.widen q).isBottom = false := by
  rw [hp.widen_eq hq hpb hqb, Pentagon.isBottom,
    Env.isBottom_widen (hp.isBottom_bounds.trans hpb) (hq.isBottom_bounds.trans hqb), Bool.false_and]

lemma join_eq (hp : p.WellFormed) (hq : q.WellFormed) (hpb : p.isBottom = false) (hqb : q.isBottom = false) :
    p.join q = ⟨joinBounds p q, p.intervals.join q.intervals⟩ := by
  rw [join_of_reachable hpb hqb]
  apply make_of_reachable
  · exact isBottom_joinBounds (hp.isBottom_bounds.trans hpb) (hq.isBottom_bounds.trans hqb)
  · exact Env.isBottom_join (hp.isBottom_intervals.trans hpb) (hq.isBottom_intervals.trans hqb)

lemma isBottom_join (hp : p.WellFormed) (hq : q.WellFormed) (hpb : p.isBottom = false) :
    (p.join q).isBottom = false := by
  cases hqb : q.isBottom with
  | true => simp [Pentagon.join, hpb, hqb]
  | false =>
    rw [hp.join_eq hq hpb hqb, Pentagon.isBottom]
    rw [isBottom_joinBounds (hp.isBottom_bounds.trans hpb) (hq.isBottom_bounds.trans hqb), Bool.false_and]

lemma same_iff_get (hp : p.WellFormed) (hq : q.WellFormed) :
    p.same q = true ↔
      p.isBottom = q.isBottom ∧ ∀ x, p.bounds.get x = q.bounds.get x ∧ p.intervals.get x = q.intervals.get x := by
  rw [Pentagon.same, Bool.and_eq_true, Env.same_iff_get hp.1 hq.1, Env.same_iff_get hp.2.1 hq.2.1,
    ← hp.1.isBottom_eq, ← hq.1.isBottom_eq, ← hp.2.1.isBottom_eq, ← hq.2.1.isBottom_eq, hp.isBottom_bounds,
    hq.isBottom_bounds, hp.isBottom_intervals, hq.isBottom_intervals, ← and_and_left, ← forall_and]

lemma exists_get_ne (hp : p.WellFormed) (hq : q.WellFormed) (hb : p.isBottom = q.isBottom)
    (h : p.same q = false) : ∃ x, p.bounds.get x ≠ q.bounds.get x ∨ p.intervals.get x ≠ q.intervals.get x := by
  by_contra hnone
  push Not at hnone
  have hsame : p.same q = true := (hp.same_iff_get hq).mpr ⟨hb, hnone⟩
  simp [hsame] at h

lemma get_of_isBottom (hp : p.WellFormed) (hpb : p.isBottom = true) (x : String) :
    p.bounds.get x = .unreachable ∧ p.intervals.get x = .empty := by
  constructor
  · apply Env.get_of_unreachable
    rw [← hp.1.isBottom_eq, hp.isBottom_bounds, hpb]
  · apply Env.get_of_unreachable
    rw [← hp.2.1.isBottom_eq, hp.isBottom_intervals, hpb]

lemma mentions_iff (hp : p.WellFormed) (hpb : p.isBottom = false) :
    p.Mentions x ↔ p.intervals.get x ≠ .all ∨ p.bounds.get x ≠ .top ∨ ∃ y, x ∈ p.bounds.get y := by
  have hi := Env.reachable_of_isBottom (hp.isBottom_intervals.trans hpb)
  have hb := Env.reachable_of_isBottom (hp.isBottom_bounds.trans hpb)
  rw [Mentions, hp.2.1.mem_keys_iff hi, hp.1.mem_keys_iff hb]
  rfl

lemma same_of_isBottom (hp : p.WellFormed) (hq : q.WellFormed) (hpb : p.isBottom = true)
    (hqb : q.isBottom = true) : p.same q = true := by
  refine (hp.same_iff_get hq).mpr ⟨hpb.trans hqb.symm, fun x => ?_⟩
  obtain ⟨hpx, hpx'⟩ := hp.get_of_isBottom hpb x
  obtain ⟨hqx, hqx'⟩ := hq.get_of_isBottom hqb x
  exact ⟨hpx.trans hqx.symm, hpx'.trans hqx'.symm⟩

lemma closure (hp : p.WellFormed) : p.closure.WellFormed := by
  rw [Pentagon.closure]
  split
  · exact hp
  · rename_i hb
    rw [Bool.not_eq_true, ← hp.isBottom_bounds, hp.1.isBottom_eq] at hb
    apply wellFormed_make _ hp.2.1
    apply wellFormed_addBounds hp.1 hb
    intro x names hx
    obtain ⟨a, _, _, hne⟩ := get?_missingBounds hx
    exact hne

lemma join (hp : p.WellFormed) (hq : q.WellFormed) : (p.join q).WellFormed := by
  rw [Pentagon.join]
  split
  · exact hq
  · split
    · exact hp
    · rename_i hpb hqb
      rw [Bool.not_eq_true, ← hp.isBottom_bounds] at hpb
      rw [Bool.not_eq_true, ← hq.isBottom_bounds] at hqb
      apply wellFormed_make _ (hp.2.1.join hq.2.1)
      have hjoin := Env.isBottom_join hpb hqb
      have hwitness : ∀ (c : Bounds) (i : Env Interval) x names,
          (witnessedBounds c i).get? x = some names → ∃ y, y ∈ names := fun c i x names hx =>
        (get?_witnessedBounds.mp hx).2.1
      apply wellFormed_addBounds _ _ (hwitness _ _)
      · exact wellFormed_addBounds (hp.1.join hq.1) (Env.reachable_of_isBottom hjoin) (hwitness _ _)
      · exact Env.reachable_of_isBottom (isBottom_addBounds hjoin _)

lemma widen (hp : p.WellFormed) (hq : q.WellFormed) : (p.widen q).WellFormed := by
  rw [Pentagon.widen]
  split
  · exact hq
  · split
    · exact hp
    · exact wellFormed_make (hp.1.widen hq.1) (hp.2.1.widen hq.2.1)

end WellFormed

namespace Models

lemma closure (hp : p.WellFormed) (h : p.Models s) : p.closure.Models s := by
  obtain ⟨hb, hi⟩ := hp.models_iff.mp h
  simp only [Pentagon.closure, h.1, Bool.false_eq_true, if_false]
  refine models_make (models_addBounds hb ?_) hi
  intro x names hx y hy
  obtain ⟨a, ha, rfl, _⟩ := get?_missingBounds hx
  obtain ⟨_, c, hc, hlt⟩ := mem_impliedBounds.mp hy
  have hgetx : p.intervals.get x = a := by rw [Env.get_eq hi.reachable, ha, Option.getD_some]
  have hgety : p.intervals.get y = c := by rw [Env.get_eq hi.reachable, hc, Option.getD_some]
  exact Interval.lt_of_high_lt_low (hgetx ▸ hi x) (hgety ▸ hi y) hlt

lemma join_left (hp : p.WellFormed) (hq : q.WellFormed) (h : p.Models s) : (p.join q).Models s := by
  obtain ⟨hb, hi⟩ := hp.models_iff.mp h
  cases hqb : q.isBottom with
  | true => simpa [Pentagon.join, h.1, hqb] using h
  | false =>
    rw [join_of_reachable h.1 hqb]
    exact models_make (models_joinBounds hb.1 (hq.isBottom_bounds.trans hqb) (.inl ⟨hb, hi⟩))
      (hi.join_left _)

lemma join_right (hp : p.WellFormed) (hq : q.WellFormed) (h : q.Models s) : (p.join q).Models s := by
  obtain ⟨hb, hi⟩ := hq.models_iff.mp h
  cases hpb : p.isBottom with
  | true => simpa [Pentagon.join, hpb] using h
  | false =>
    rw [join_of_reachable hpb h.1]
    exact models_make (models_joinBounds (hp.isBottom_bounds.trans hpb) hb.1 (.inr ⟨hb, hi⟩))
      (hi.join_right _)

lemma widen_right (p : Pentagon) (hq : q.WellFormed) (h : q.Models s) : (p.widen q).Models s := by
  obtain ⟨hb, hi⟩ := hq.models_iff.mp h
  cases hpb : p.isBottom with
  | true => simpa [Pentagon.widen, hpb] using h
  | false =>
    rw [widen_of_reachable hpb h.1]
    exact models_make (hb.widen_right _) (hi.widen_right _)

lemma of_leq (hp : p.WellFormed) (h : p.Models s) (hle : p.leq q = true) : q.Models s := by
  obtain ⟨hb, hi⟩ := hp.models_iff.mp h
  simp only [leq, hb.1, hi.isBottom, Bool.or_self, Bool.false_eq_true, if_false] at hle
  cases hqb : q.isBottom with
  | true => simp [hqb] at hle
  | false =>
    simp only [hqb, Bool.false_eq_true, if_false, Bool.and_eq_true, List.all_eq_true, Bool.or_eq_true,
      decide_eq_true_eq] at hle
    obtain ⟨hintervals, hbounds⟩ := hle
    refine ⟨hqb, hi.of_leq hintervals, ?_⟩
    cases hqr : q.bounds.unreachable with
    | true =>
      intro x y hy
      rw [Env.get_of_unreachable hqr] at hy
      exact absurd hy (NameSet.not_mem_empty y)
    | false =>
      apply (Env.forall_get_iff (P := fun x v => ∀ y ∈ v, s x < s y) hqr
        fun x y hy => absurd hy BoundSet.not_mem_top).mpr
      intro e he y hy
      rcases hbounds e he y hy with hrec | ⟨_, hlt⟩
      · exact hb.lt hrec
      · exact Interval.lt_of_high_lt_low (hi e.1) (hi y) hlt

end Models

end ValueAnalysis.Pentagon
