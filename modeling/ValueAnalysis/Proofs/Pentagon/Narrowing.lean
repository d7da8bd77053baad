import Mathlib.Data.Set.Finite.Lattice
import ValueAnalysis.Proofs.Interval.Exactness
import ValueAnalysis.Proofs.Pentagon.Closed
import ValueAnalysis.Proofs.Pentagon.Termination

/-! Narrowing. An interval takes over a bound only where it has none of its own, and the bound sets only grow. So
the result lies below the first state, and above the second if that one did. For the same reason what the states
still leave open about finitely many variables goes down with every change. -/

namespace ValueAnalysis

namespace Interval

open ExtInt

variable {a b : Interval} {n : Int}

lemma narrow_of_nonempty (ha : a.isEmpty = false) (hb : b.isEmpty = false) :
    a.narrow b = ofBounds (if a.low = .negInf then b.low else a.low)
      (if a.high = .posInf then b.high else a.high) := by
  simp [narrow, ha, hb]

lemma nonempty_of_narrow (h : (a.narrow b).isEmpty = false) : a.isEmpty = false ∧ b.isEmpty = false := by
  cases ha : a.isEmpty with
  | true => simp [narrow, ha] at h
  | false =>
    cases hb : b.isEmpty with
    | true => simp [narrow, ha, hb] at h
    | false => exact ⟨rfl, rfl⟩

lemma narrow_bounds (h : (a.narrow b).isEmpty = false) :
    (a.narrow b).low = (if a.low = .negInf then b.low else a.low) ∧
      (a.narrow b).high = if a.high = .posInf then b.high else a.high := by
  obtain ⟨ha, hb⟩ := nonempty_of_narrow h
  rw [narrow_of_nonempty ha hb] at h ⊢
  exact ofBounds_bounds h

lemma mem_narrow (ha : n ∈ a) (hb : n ∈ b) : n ∈ a.narrow b := by
  rw [narrow_of_nonempty (nonempty_of_mem ha) (nonempty_of_mem hb), mem_ofBounds]
  constructor
  · split
    · exact hb.1
    · exact ha.1
  · split
    · exact hb.2
    · exact ha.2

lemma narrow_leq (a b : Interval) : (a.narrow b).leq a = true := by
  cases h : (a.narrow b).isEmpty with
  | true => exact leq_of_isEmpty a h
  | false =>
    obtain ⟨ha, hb⟩ := nonempty_of_narrow h
    obtain ⟨hlow, hhigh⟩ := narrow_bounds h
    rw [leq_iff h, hlow, hhigh]
    constructor
    · split
      · rename_i hinf
        rw [hinf]
        exact (negInf_le _).mpr (low_ne_nan hb)
      · exact le_refl (low_ne_nan ha)
    · split
      · rename_i hinf
        rw [hinf]
        exact (le_posInf _).mpr (high_ne_nan hb)
      · exact le_refl (high_ne_nan ha)

lemma leq_narrow (h : b.leq a = true) : b.leq (a.narrow b) = true :=
  leq_iff_forall_mem.mpr fun _ hn => mem_narrow (mem_of_leq hn h) hn

lemma finiteBounds_le_narrow (h : (a.narrow b).isEmpty = false) :
    a.finiteBounds ≤ (a.narrow b).finiteBounds := by
  obtain ⟨hlow, hhigh⟩ := narrow_bounds h
  simp only [finiteBounds, hlow, hhigh]
  apply Nat.add_le_add
  · by_cases hl : a.low = .negInf <;> simp [hl]
  · by_cases hh : a.high = .posInf <;> simp [hh]

lemma finiteBounds_lt_narrow (h : (a.narrow b).isEmpty = false) (hne : a.narrow b ≠ a) :
    a.finiteBounds < (a.narrow b).finiteBounds := by
  obtain ⟨hlow, hhigh⟩ := narrow_bounds h
  by_cases hl : a.low = .negInf ∧ b.low ≠ .negInf
  · simp only [finiteBounds, hlow, hhigh]
    apply Nat.add_lt_add_of_lt_of_le
    · simp [hl]
    · by_cases hh : a.high = .posInf <;> simp [hh]
  · have hlow' : (a.narrow b).low = a.low := by
      rw [hlow]
      split
      · rename_i hinf
        rw [hinf]
        by_contra hb
        exact hl ⟨hinf, hb⟩
      · rfl
    have hhigh' : (a.narrow b).high ≠ a.high := fun he => hne (ext hlow' he)
    have hinf : a.high = .posInf := by
      by_contra hfin
      exact hhigh' (hhigh.trans (if_neg hfin))
    rw [hinf] at hhigh'
    simp [finiteBounds, hlow', hinf, hhigh']

end Interval

namespace Env

variable {a b : Env Interval}

lemma narrow_eq (ha : a.isBottom = false) (hb : b.isBottom = false) :
    a.narrow b = combineAll Interval.narrow a b := by
  simp only [Env.narrow, ha, hb, Bool.false_eq_true, if_false]
  rfl

lemma isBottom_narrow_iff (ha : a.isBottom = false) (hb : b.isBottom = false) :
    (a.narrow b).isBottom = false ↔ ∀ x, ((a.get x).narrow (b.get x)).isEmpty = false := by
  simp only [← Interval.ne_empty_iff]
  rw [narrow_eq ha hb]
  exact isBottom_combineAll rfl (reachable_of_isBottom ha) (reachable_of_isBottom hb)

lemma get_narrow (ha : a.isBottom = false) (hb : b.isBottom = false) (h : (a.narrow b).isBottom = false)
    (x : String) : (a.narrow b).get x = (a.get x).narrow (b.get x) := by
  rw [narrow_eq ha hb] at h ⊢
  exact get_combineAll rfl (reachable_of_isBottom ha) (reachable_of_isBottom hb) h x

lemma Models.narrow {s : Store} (ha : a.Models s) (hb : b.Models s) : (a.narrow b).Models s := by
  have hmem (x : String) : s x ∈ (a.get x).narrow (b.get x) := Interval.mem_narrow (ha x) (hb x)
  have hreach : (a.narrow b).isBottom = false :=
    (isBottom_narrow_iff ha.isBottom hb.isBottom).mpr fun x => Interval.nonempty_of_mem (hmem x)
  intro x
  rw [get_narrow ha.isBottom hb.isBottom hreach]
  exact hmem x

end Env

namespace Pentagon

variable {p q : Pentagon} {s : Store} {x y : String}

lemma narrow_of_reachable (hpb : p.isBottom = false) (hqb : q.isBottom = false) :
    p.narrow q = (make (p.bounds.meet q.bounds) (p.intervals.narrow q.intervals)).closure := by
  simp only [narrow, hpb, hqb, Bool.false_eq_true, if_false]
  rfl

namespace WellFormed

section Narrow

variable (hp : p.WellFormed) (hq : q.WellFormed)
include hp hq

lemma narrow : (p.narrow q).WellFormed := (hp.isClosed_narrow hq).wellFormed

lemma reachable_of_narrow (h : (p.narrow q).isBottom = false) :
    p.isBottom = false ∧ q.isBottom = false ∧ (p.intervals.narrow q.intervals).isBottom = false := by
  cases hpb : p.isBottom with
  | true => simp [Pentagon.narrow, hpb] at h
  | false =>
    cases hqb : q.isBottom with
    | true => simp [Pentagon.narrow, hpb, hqb] at h
    | false =>
      rw [narrow_of_reachable hpb hqb,
        isBottom_closure_make (hp.1.meet hq.1) (hp.2.1.narrow hq.2.1) (hp.isBottom_bounds_meet hq hpb hqb)] at h
      exact ⟨rfl, rfl, h⟩

lemma get_intervals_narrow (h : (p.narrow q).isBottom = false) (x : String) :
    (p.narrow q).intervals.get x = (p.intervals.get x).narrow (q.intervals.get x) := by
  obtain ⟨hpb, hqb, hi⟩ := hp.reachable_of_narrow hq h
  rw [narrow_of_reachable hpb hqb,
    intervals_closure_make (hp.1.meet hq.1) (hp.2.1.narrow hq.2.1) (hp.isBottom_bounds_meet hq hpb hqb) hi]
  exact Env.get_narrow (hp.isBottom_intervals.trans hpb) (hq.isBottom_intervals.trans hqb) hi x

lemma mem_narrow_bounds (h : (p.narrow q).isBottom = false) :
    y ∈ (p.narrow q).bounds.get x ↔ y ∈ p.bounds.get x ∨ y ∈ q.bounds.get x ∨
      ((p.narrow q).intervals.get x).high < ((p.narrow q).intervals.get y).low := by
  obtain ⟨hpb, hqb, hi⟩ := hp.reachable_of_narrow hq h
  have hbounds := hp.isBottom_bounds_meet hq hpb hqb
  rw [narrow_of_reachable hpb hqb, mem_closure_make (hp.1.meet hq.1) (hp.2.1.narrow hq.2.1) hbounds hi,
    intervals_closure_make (hp.1.meet hq.1) (hp.2.1.narrow hq.2.1) hbounds hi,
    Bounds.mem_meet (hp.isBottom_bounds.trans hpb) (hq.isBottom_bounds.trans hqb), or_assoc]

lemma narrow_leq : (p.narrow q).leq p = true := by
  cases h : (p.narrow q).isBottom with
  | true => exact (hp.narrow hq).leq_of_isBottom h p
  | false =>
    refine ((hp.narrow hq).leq_iff hp h).mpr
      ⟨(hp.reachable_of_narrow hq h).1, fun x => ?_, fun x y hy => .inl ?_⟩
    · rw [hp.get_intervals_narrow hq h]
      exact Interval.narrow_leq _ _
    · exact (hp.mem_narrow_bounds hq h).mpr (.inl hy)

lemma leq_narrow (hle : q.leq p = true) : q.leq (p.narrow q) = true := by
  cases hqb : q.isBottom with
  | true => exact hq.leq_of_isBottom hqb _
  | false =>
    obtain ⟨hpb, hintervals, hbounds⟩ := (hq.leq_iff hp hqb).mp hle
    have hpi := hp.isBottom_intervals.trans hpb
    have hqi := hq.isBottom_intervals.trans hqb
    have hi : (p.intervals.narrow q.intervals).isBottom = false := (Env.isBottom_narrow_iff hpi hqi).mpr fun x =>
      Interval.nonempty_of_leq (Interval.leq_narrow (hintervals x)) (hq.nonempty hqb x)
    rw [narrow_of_reachable hpb hqb]
    refine leq_closure_make (hp.1.meet hq.1) (hp.2.1.narrow hq.2.1) (hp.isBottom_bounds_meet hq hpb hqb) hi hq
      hqb (fun x => ?_) (fun x y hy => ?_)
    · rw [Env.get_narrow hpi hqi hi]
      exact Interval.leq_narrow (hintervals x)
    · rcases (Bounds.mem_meet (hp.isBottom_bounds.trans hpb) (hq.isBottom_bounds.trans hqb)).mp hy with hy | hy
      · exact hbounds x y hy
      · exact .inl hy

lemma models_narrow (hps : p.Models s) (hqs : q.Models s) : (p.narrow q).Models s := by
  obtain ⟨hpb, hpi⟩ := hp.models_iff.mp hps
  obtain ⟨hqb, hqi⟩ := hq.models_iff.mp hqs
  rw [narrow_of_reachable hps.1 hqs.1]
  exact Models.closure (hp.narrowOpen hq) (models_make (hpb.meet hqb) (hpi.narrow hqi))

end Narrow

end WellFormed

structure Over (V : Finset String) (p : Pentagon) : Prop where
  wellFormed : p.WellFormed
  mentions : ∀ x, p.Mentions x → x ∈ V

variable {V : Finset String}

lemma not_mentions_of_isBottom (hp : p.WellFormed) (hpb : p.isBottom = true) : ¬ p.Mentions x := by
  have hb : p.bounds.unreachable = true := hp.1.isBottom_eq.symm.trans (hp.isBottom_bounds.trans hpb)
  have hi : p.intervals.unreachable = true := hp.2.1.isBottom_eq.symm.trans (hp.isBottom_intervals.trans hpb)
  rintro (hx | hx | ⟨y, hx⟩)
  · rw [(Env.wellFormed_iff.mp hp.2.1).2 hi] at hx
    cases hx
  · rw [(Env.wellFormed_iff.mp hp.1).2 hb] at hx
    cases hx
  · rw [(hp.get_of_isBottom hpb y).1] at hx
    exact BoundSet.not_mem_unreachable hx

lemma mem_of_mentions (hkeys : ∀ y ∈ p.intervals.facts.keys ++ p.bounds.facts.keys, y ∈ V)
    (hmembers : ∀ e ∈ p.bounds.facts.entries, ∀ y ∈ e.2.names.names, y ∈ V) (hx : p.Mentions x) : x ∈ V := by
  rcases hx with hx | hx | ⟨y, hx⟩
  · exact hkeys x (List.mem_append_left _ hx)
  · exact hkeys x (List.mem_append_right _ hx)
  · cases hr : p.bounds.unreachable with
    | true =>
      rw [Env.get_of_unreachable hr] at hx
      exact absurd hx BoundSet.not_mem_unreachable
    | false =>
      have hbounds := Env.forall_get_iff (P := fun _ b => ∀ z ∈ b, z ∈ V) hr
        fun _ z hz => absurd hz BoundSet.not_mem_top
      exact hbounds.mpr hmembers y x hx

lemma WellFormed.exists_over (hp : p.WellFormed) (U : Finset String) : ∃ V, U ⊆ V ∧ p.Over V := by
  refine ⟨U ∪ (p.intervals.facts.keys ++ p.bounds.facts.keys ++
    p.bounds.facts.entries.flatMap fun e => e.2.names.names).toFinset, Finset.subset_union_left, hp,
    fun x => mem_of_mentions ?_ ?_⟩
  · intro y hy
    exact Finset.mem_union_right U (List.mem_toFinset.mpr (List.mem_append_left _ hy))
  · intro e he y hy
    exact Finset.mem_union_right U (List.mem_toFinset.mpr (List.mem_append_right _
      (List.mem_flatMap.mpr ⟨e, he, hy⟩)))

/-- What a state leaves open about `x` among the given variables: the missing ends of its interval, and the
variables that it does not put above `x`. -/
def gaps (V : Finset String) (p : Pentagon) (x : String) : Nat :=
  (2 - (p.intervals.get x).finiteBounds) + {y ∈ V | y ∉ p.bounds.get x}.card

def openness (V : Finset String) (p : Pentagon) : Nat :=
  if p.isBottom then 0 else 1 + ∑ x ∈ V, p.gaps V x

namespace Over

lemma mem_of_mem_bounds (hp : p.Over V) (h : y ∈ p.bounds.get x) : x ∈ V ∧ y ∈ V := by
  cases hpb : p.isBottom with
  | true =>
    rw [(hp.wellFormed.get_of_isBottom hpb x).1] at h
    exact absurd h BoundSet.not_mem_unreachable
  | false =>
    have hne : p.bounds.get x ≠ .top := by
      intro htop
      rw [htop] at h
      exact BoundSet.not_mem_top h
    exact ⟨hp.mentions x ((hp.wellFormed.mentions_iff hpb).mpr (.inr (.inl hne))),
      hp.mentions y ((hp.wellFormed.mentions_iff hpb).mpr (.inr (.inr ⟨x, h⟩)))⟩

lemma mem_of_ne_all (hp : p.Over V) (hpb : p.isBottom = false) (h : p.intervals.get x ≠ .all) : x ∈ V :=
  hp.mentions x ((hp.wellFormed.mentions_iff hpb).mpr (.inl h))

section Narrow

variable (hp : p.Over V) (hq : q.Over V) (h : (p.narrow q).isBottom = false)
include hp hq h

lemma mem_of_narrow_ne_all (hx : (p.narrow q).intervals.get x ≠ .all) : x ∈ V := by
  obtain ⟨hpb, hqb, _⟩ := hp.wellFormed.reachable_of_narrow hq.wellFormed h
  rw [hp.wellFormed.get_intervals_narrow hq.wellFormed h] at hx
  by_cases hpx : p.intervals.get x = .all
  · apply hq.mem_of_ne_all hqb
    intro hqx
    rw [hpx, hqx] at hx
    exact hx rfl
  · exact hp.mem_of_ne_all hpb hpx

lemma mem_of_narrow_bounds (hy : y ∈ (p.narrow q).bounds.get x) : x ∈ V ∧ y ∈ V := by
  rcases (hp.wellFormed.mem_narrow_bounds hq.wellFormed h).mp hy with hy | hy | hlt
  · exact hp.mem_of_mem_bounds hy
  · exact hq.mem_of_mem_bounds hy
  · obtain ⟨hx, hy⟩ := Interval.ne_all_of_high_lt_low hlt
    exact ⟨hp.mem_of_narrow_ne_all hq h hx, hp.mem_of_narrow_ne_all hq h hy⟩

lemma ends_narrow_le (x : String) :
    2 - ((p.narrow q).intervals.get x).finiteBounds ≤ 2 - (p.intervals.get x).finiteBounds := by
  have hne := (hp.wellFormed.narrow hq.wellFormed).nonempty h x
  rw [hp.wellFormed.get_intervals_narrow hq.wellFormed h] at hne ⊢
  exact Nat.sub_le_sub_left (Interval.finiteBounds_le_narrow hne) 2

lemma mem_narrow_of_mem (hy : y ∈ p.bounds.get x) : y ∈ (p.narrow q).bounds.get x :=
  (hp.wellFormed.mem_narrow_bounds hq.wellFormed h).mpr (.inl hy)

lemma gaps_narrow_le (x : String) : (p.narrow q).gaps V x ≤ p.gaps V x := by
  apply Nat.add_le_add
  · exact hp.ends_narrow_le hq h x
  · exact BoundSet.card_absent_le fun y => hp.mem_narrow_of_mem hq h

lemma gaps_lt_of_bounds (hx : (p.narrow q).bounds.get x ≠ p.bounds.get x) :
    x ∈ V ∧ (p.narrow q).gaps V x < p.gaps V x := by
  have hwf := hp.wellFormed.narrow hq.wellFormed
  have hpb := (hp.wellFormed.reachable_of_narrow hq.wellFormed h).1
  obtain ⟨y, hy, hyp⟩ : ∃ y ∈ (p.narrow q).bounds.get x, y ∉ p.bounds.get x := by
    by_contra hnone
    push Not at hnone
    exact hx (BoundSet.ext (hwf.bounds_ne h x) (hp.wellFormed.bounds_ne hpb x) fun y =>
      ⟨hnone y, hp.mem_narrow_of_mem hq h⟩)
  obtain ⟨hxV, hyV⟩ := hp.mem_of_narrow_bounds hq h hy
  refine ⟨hxV, Nat.add_lt_add_of_le_of_lt (hp.ends_narrow_le hq h x) ?_⟩
  exact BoundSet.card_absent_lt (fun z => hp.mem_narrow_of_mem hq h) hyV hy hyp

lemma gaps_lt_of_intervals (hx : (p.narrow q).intervals.get x ≠ p.intervals.get x) :
    x ∈ V ∧ (p.narrow q).gaps V x < p.gaps V x := by
  have hpb := (hp.wellFormed.reachable_of_narrow hq.wellFormed h).1
  have hne := (hp.wellFormed.narrow hq.wellFormed).nonempty h x
  constructor
  · by_cases hpx : p.intervals.get x = .all
    · exact hp.mem_of_narrow_ne_all hq h (hpx ▸ hx)
    · exact hp.mem_of_ne_all hpb hpx
  · apply Nat.add_lt_add_of_lt_of_le
    · rw [hp.wellFormed.get_intervals_narrow hq.wellFormed h] at hne hx ⊢
      have hlt := Interval.finiteBounds_lt_narrow hne hx
      have hle := Interval.finiteBounds_le_two ((p.intervals.get x).narrow (q.intervals.get x))
      omega
    · exact BoundSet.card_absent_le fun y => hp.mem_narrow_of_mem hq h

end Narrow

lemma narrow (hp : p.Over V) (hq : q.Over V) : (p.narrow q).Over V where
  wellFormed := hp.wellFormed.narrow hq.wellFormed
  mentions x hx := by
    have hwf := hp.wellFormed.narrow hq.wellFormed
    cases h : (p.narrow q).isBottom with
    | true => exact absurd hx (not_mentions_of_isBottom hwf h)
    | false =>
      rcases (hwf.mentions_iff h).mp hx with hx | hx | ⟨y, hy⟩
      · exact hp.mem_of_narrow_ne_all hq h hx
      · obtain ⟨y, hy⟩ : ∃ y, y ∈ (p.narrow q).bounds.get x := by
          by_contra hnone
          push Not at hnone
          exact hx (BoundSet.ext (hwf.bounds_ne h x) (by decide) fun y =>
            ⟨fun hy => absurd hy (hnone y), fun hy => absurd hy BoundSet.not_mem_top⟩)
        exact (hp.mem_of_narrow_bounds hq h hy).1
      · exact (hp.mem_of_narrow_bounds hq h hy).2

lemma openness_narrow_le (hp : p.Over V) (hq : q.Over V) : (p.narrow q).openness V ≤ p.openness V := by
  cases h : (p.narrow q).isBottom with
  | true => simp [openness, h]
  | false =>
    have hpb := (hp.wellFormed.reachable_of_narrow hq.wellFormed h).1
    simp only [openness, h, hpb, Bool.false_eq_true, if_false]
    exact Nat.add_le_add_left (Finset.sum_le_sum fun x _ => hp.gaps_narrow_le hq h x) 1

lemma openness_narrow_lt (hp : p.Over V) (hq : q.Over V) (hne : (p.narrow q).same p = false) :
    (p.narrow q).openness V < p.openness V := by
  have hwf := hp.wellFormed.narrow hq.wellFormed
  cases h : (p.narrow q).isBottom with
  | true =>
    cases hpb : p.isBottom with
    | true => simp [hwf.same_of_isBottom hp.wellFormed h hpb] at hne
    | false => simp [openness, h, hpb]
  | false =>
    have hpb := (hp.wellFormed.reachable_of_narrow hq.wellFormed h).1
    have hle := fun x (_ : x ∈ V) => hp.gaps_narrow_le hq h x
    simp only [openness, h, hpb, Bool.false_eq_true, if_false]
    apply Nat.add_lt_add_left
    apply Finset.sum_lt_sum hle
    obtain ⟨x, hx | hx⟩ := hwf.exists_get_ne hp.wellFormed (h.trans hpb.symm) hne
    · exact ⟨x, hp.gaps_lt_of_bounds hq h hx⟩
    · exact ⟨x, hp.gaps_lt_of_intervals hq h hx⟩

lemma narrowings {later : Nat → Pentagon} (hp : p.Over V) (hlater : ∀ n, (later n).Over V) (n : Nat) :
    (narrowings p later n).Over V := by
  induction n with
  | zero => exact hp
  | succ n ih => exact ih.narrow (hlater n)

lemma finite_changes {later : Nat → Pentagon} (hp : p.Over V) (hlater : ∀ n, (later n).Over V) :
    (changes (ValueAnalysis.narrowings p later)).Finite := by
  have hover := hp.narrowings hlater
  have hcount := encard_decreases_le (fun k => (ValueAnalysis.narrowings p later k).openness V)
    (· ∈ changes (ValueAnalysis.narrowings p later)) (n := 0)
    (fun k _ => (hover k).openness_narrow_le (hlater k)) (fun k _ => (hover k).openness_narrow_lt (hlater k))
  exact (Set.finite_of_encard_le_coe hcount).subset fun k hk => ⟨Nat.zero_le k, hk⟩

end Over

lemma eventually_same {head : Nat → Pentagon} (hhead : ∀ n, (head n).WellFormed) (h : (changes head).Finite) :
    ∃ N, ∀ n, N ≤ n → (head n).same (head N) = true := by
  obtain ⟨last, hlast⟩ := h.bddAbove
  refine ⟨last + 1, fun n hn => ?_⟩
  induction n, hn using Nat.le_induction with
  | base => exact (hhead _).same_refl
  | succ n hn ih =>
    have hstep : (head (n + 1)).same (head n) = true := by
      rw [← Bool.not_eq_false]
      intro hne
      have hle := hlast (mem_changes.mpr hne)
      omega
    exact (hhead _).same_trans (hhead n) (hhead _) hstep ih

theorem narrowing_stays_between :
    (∀ p q : Pentagon, p.WellFormed → q.WellFormed →
      (∀ s, p.Models s → q.Models s → (p.narrow q).Models s) ∧
      (q.leq p = true → q.leq (p.narrow q) = true) ∧ (p.narrow q).leq p = true) ∧
    ∀ (p : Pentagon) (later : Nat → Pentagon) (V : Finset String), p.WellFormed →
      (∀ n, (later n).WellFormed) → (∀ n x, (later n).Mentions x → x ∈ V) →
      ∃ N, ∀ n, N ≤ n → (narrowings p later n).same (narrowings p later N) = true := by
  constructor
  · intro p q hp hq
    exact ⟨fun s => hp.models_narrow hq, hp.leq_narrow hq, hp.narrow_leq hq⟩
  · intro p later V hp hlater hmentions
    obtain ⟨W, hVW, hpW⟩ := hp.exists_over V
    have hW : ∀ n, (later n).Over W := fun n => ⟨hlater n, fun x hx => hVW (hmentions n x hx)⟩
    exact eventually_same (fun n => (hpW.narrowings hW n).wellFormed) (hpW.finite_changes hW)

/-- The interval of `x` gets its missing end, which then shows a bound that no state records. -/
theorem narrowing_stays_between_new_bound :
    let p : Pentagon := ⟨⟨.ofList [("z", .singleton "x")], false⟩,
      ⟨.ofList [("x", .atLeast (.fin 0)), ("y", .ofBounds (.fin 5) (.fin 6))], false⟩⟩
    let q : Pentagon := ⟨⟨.ofList [("z", .above (.ofList ["x", "y"]))], false⟩,
      ⟨.ofList [("x", .ofBounds (.fin 1) (.fin 3)), ("y", .ofBounds (.fin 5) (.fin 6))], false⟩⟩
    let later : Nat → Pentagon := fun n => if n = 0 then q else .top
    let s : Store := fun v => if v = "x" then 2 else if v = "y" then 5 else 0
    (p.WellFormed ∧ q.WellFormed ∧ q.leq p = true ∧ p.Models s ∧ q.Models s) ∧
      (p.narrow q).intervals.get "x" = .ofBounds (.fin 0) (.fin 3) ∧ "y" ∈ (p.narrow q).bounds.get "x" ∧
      (p.narrow q).Models s ∧ q.leq (p.narrow q) = true ∧ (p.narrow q).leq p = true ∧
      ∃ N, ∀ n, N ≤ n → (narrowings p later n).same (narrowings p later N) = true := by
  intro p q later s
  have hp : p.WellFormed := by decide
  have hq : q.WellFormed := by decide
  have hle : q.leq p = true := by decide
  have hps : p.Models s := hp.models_iff.mpr ⟨by decide, by decide⟩
  have hqs : q.Models s := hq.models_iff.mpr ⟨by decide, by decide⟩
  obtain ⟨hbetween, hsettles⟩ := narrowing_stays_between
  obtain ⟨hmodels, habove, hbelow⟩ := hbetween p q hp hq
  have hlater : ∀ n, (later n).WellFormed := by
    intro n
    cases n with
    | zero => exact hq
    | succ n => exact (by decide : Pentagon.top.WellFormed)
  have hmentions : ∀ n v, (later n).Mentions v → v ∈ ({"x", "y", "z"} : Finset String) := by
    intro n v hv
    cases n with
    | zero => exact mem_of_mentions (p := q) (by decide) (by decide) hv
    | succ n => exact mem_of_mentions (p := .top) (by decide) (by decide) hv
  exact ⟨⟨hp, hq, hle, hps, hqs⟩, by decide, by decide, hmodels s hps hqs, habove hle, hbelow,
    hsettles p later _ hp hlater hmentions⟩

end Pentagon

end ValueAnalysis
