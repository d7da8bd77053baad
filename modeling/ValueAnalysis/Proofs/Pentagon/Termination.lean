import Mathlib.Algebra.Order.BigOperators.Group.Finset
import ValueAnalysis.Proofs.Pentagon.Loop
import ValueAnalysis.Proofs.Rank

/-! Termination of widening. A join may record new bounds of a variable, but only by variables that the head
still has an interval for, and a widening never finds an interval again. So the finite bounds of the
intervals together with the room left in the bound sets decrease with every change. -/

namespace ValueAnalysis.Pentagon

variable {c : Config} {p q : Pentagon} {b : Nat → Pentagon} {x y : String} {I B : Finset String}

lemma WellFormed.mem_bounds_join (hp : p.WellFormed) (hq : q.WellFormed) (hpb : p.isBottom = false)
    (h : y ∈ (p.join q).bounds.get x) : y ∈ p.bounds.get x ∨ p.intervals.get y ≠ .all := by
  cases hqb : q.isBottom with
  | true =>
    have hjoin : p.join q = p := by simp [Pentagon.join, hpb, hqb]
    exact .inl (hjoin ▸ h)
  | false =>
    rw [hp.join_eq hq hpb hqb] at h
    have hmem := (mem_joinBounds (hp.isBottom_bounds.trans hpb) (hq.isBottom_bounds.trans hqb)).mp h
    rcases hmem with ⟨hy, _⟩ | ⟨hy, _⟩ | ⟨_, hlt⟩
    · exact .inl hy
    · exact .inl hy
    · exact .inr (Interval.ne_all_of_high_lt_low hlt).2

structure Within (I B : Finset String) (p : Pentagon) : Prop where
  wellFormed : p.WellFormed
  reachable : p.isBottom = false
  intervals : ∀ x, p.intervals.get x ≠ .all → x ∈ I
  bounds : ∀ x, p.bounds.get x ≠ .top → x ∈ B

/-- What is left for widenings to give up. -/
def rank (I B : Finset String) (p : Pentagon) : Nat :=
  ∑ x ∈ I, (p.intervals.get x).finiteBounds + ∑ x ∈ B, (p.bounds.get x).room I

lemma rank_le (I B : Finset String) (p : Pentagon) : p.rank I B ≤ 2 * I.card + B.card * (1 + I.card) := by
  apply Nat.add_le_add
  · rw [Nat.mul_comm]
    exact Finset.sum_le_card_nsmul I _ 2 fun x _ => Interval.finiteBounds_le_two _
  · exact Finset.sum_le_card_nsmul B _ (1 + I.card) fun x _ => BoundSet.room_le I _

namespace Within

lemma isBottom_bounds (hp : p.Within I B) : p.bounds.isBottom = false :=
  hp.wellFormed.isBottom_bounds.trans hp.reachable

lemma isBottom_intervals (hp : p.Within I B) : p.intervals.isBottom = false :=
  hp.wellFormed.isBottom_intervals.trans hp.reachable

section Widen

variable (hp : p.Within I B) (hq : q.WellFormed) (hqb : q.isBottom = false)
include hp hq hqb

lemma get_intervals_widen (x : String) :
    (p.widen q).intervals.get x = (p.intervals.get x).widen (q.intervals.get x) :=
  hp.wellFormed.get_intervals_widen hq hp.reachable hqb x

lemma get_bounds_widen (x : String) :
    (p.widen q).bounds.get x = (p.bounds.get x).widen (q.bounds.get x) :=
  hp.wellFormed.get_bounds_widen hq hp.reachable hqb x

lemma widen : (p.widen q).Within I B where
  wellFormed := hp.wellFormed.widen hq
  reachable := hp.wellFormed.isBottom_widen hq hp.reachable hqb
  intervals x hx := by
    apply hp.intervals x
    intro htop
    rw [hp.get_intervals_widen hq hqb, htop] at hx
    exact hx (LawfulDomain.top_widen _)
  bounds x hx := by
    apply hp.bounds x
    intro htop
    rw [hp.get_bounds_widen hq hqb, htop] at hx
    exact hx (LawfulDomain.top_widen _)

lemma finiteBounds_widen_le (x : String) :
    ((p.widen q).intervals.get x).finiteBounds ≤ (p.intervals.get x).finiteBounds := by
  rw [hp.get_intervals_widen hq hqb]
  apply Interval.finiteBounds_widen_le
  · exact (Interval.ne_empty_iff _).mp (Env.get_ne_bottom hp.isBottom_intervals x)
  · exact (Interval.ne_empty_iff _).mp (Env.get_ne_bottom (hq.isBottom_intervals.trans hqb) x)

lemma room_widen_le (x : String) : ((p.widen q).bounds.get x).room I ≤ (p.bounds.get x).room I := by
  rw [hp.get_bounds_widen hq hqb]
  apply BoundSet.room_widen_le
  · exact Env.get_ne_bottom hp.isBottom_bounds x
  · exact Env.get_ne_bottom (hq.isBottom_bounds.trans hqb) x

lemma finiteBounds_widen_lt (hx : (p.widen q).intervals.get x ≠ p.intervals.get x) :
    x ∈ I ∧ ((p.widen q).intervals.get x).finiteBounds < (p.intervals.get x).finiteBounds := by
  rw [hp.get_intervals_widen hq hqb] at hx ⊢
  constructor
  · apply hp.intervals x
    intro htop
    rw [htop] at hx
    exact hx (LawfulDomain.top_widen _)
  · apply Interval.finiteBounds_widen_lt _ _ hx
    · exact (Interval.ne_empty_iff _).mp (Env.get_ne_bottom hp.isBottom_intervals x)
    · exact (Interval.ne_empty_iff _).mp (Env.get_ne_bottom (hq.isBottom_intervals.trans hqb) x)

lemma room_widen_lt (hnew : ∀ y ∈ q.bounds.get x, y ∈ p.bounds.get x ∨ p.intervals.get y ≠ .all)
    (hx : (p.widen q).bounds.get x ≠ p.bounds.get x) :
    x ∈ B ∧ ((p.widen q).bounds.get x).room I < (p.bounds.get x).room I := by
  rw [hp.get_bounds_widen hq hqb] at hx ⊢
  constructor
  · apply hp.bounds x
    intro htop
    rw [htop] at hx
    exact hx (LawfulDomain.top_widen _)
  · apply BoundSet.room_widen_lt _ _ _ hx
    · exact Env.get_ne_bottom hp.isBottom_bounds x
    · exact Env.get_ne_bottom (hq.isBottom_bounds.trans hqb) x
    · exact fun y hy => (hnew y hy).imp_right (hp.intervals y)

lemma rank_widen_le : (p.widen q).rank I B ≤ p.rank I B := by
  apply Nat.add_le_add
  · exact Finset.sum_le_sum fun x _ => hp.finiteBounds_widen_le hq hqb x
  · exact Finset.sum_le_sum fun x _ => hp.room_widen_le hq hqb x

lemma rank_widen_lt (hnew : ∀ x, ∀ y ∈ q.bounds.get x, y ∈ p.bounds.get x ∨ p.intervals.get y ≠ .all)
    (hne : (p.widen q).same p = false) : (p.widen q).rank I B < p.rank I B := by
  have hintervals := fun x (_ : x ∈ I) => hp.finiteBounds_widen_le hq hqb x
  have hbounds := fun x (_ : x ∈ B) => hp.room_widen_le hq hqb x
  have hw := hp.widen hq hqb
  obtain ⟨x, hx | hx⟩ := hw.wellFormed.exists_get_ne hp.wellFormed (hw.reachable.trans hp.reachable.symm) hne
  · obtain ⟨hmem, hlt⟩ := hp.room_widen_lt hq hqb (hnew x) hx
    exact Nat.add_lt_add_of_le_of_lt (Finset.sum_le_sum hintervals) (Finset.sum_lt_sum hbounds ⟨x, hmem, hlt⟩)
  · obtain ⟨hmem, hlt⟩ := hp.finiteBounds_widen_lt hq hqb hx
    exact Nat.add_lt_add_of_lt_of_le (Finset.sum_lt_sum hintervals ⟨x, hmem, hlt⟩) (Finset.sum_le_sum hbounds)

end Widen

end Within

lemma WellFormed.within_keys (hp : p.WellFormed) (hpb : p.isBottom = false) :
    p.Within p.intervals.facts.keys.toFinset p.bounds.facts.keys.toFinset where
  wellFormed := hp
  reachable := hpb
  intervals x hx := by
    rw [List.mem_toFinset]
    exact Env.mem_keys_of_get_ne_top (Env.reachable_of_isBottom (hp.isBottom_intervals.trans hpb)) hx
  bounds x hx := by
    rw [List.mem_toFinset]
    exact Env.mem_keys_of_get_ne_top (Env.reachable_of_isBottom (hp.isBottom_bounds.trans hpb)) hx

/-- A bound on the changes that widenings can make, from the sizes of the two maps. -/
def budget (p : Pentagon) : Nat :=
  2 * p.intervals.facts.keys.length + p.bounds.facts.keys.length * (1 + p.intervals.facts.keys.length)

lemma rank_keys_le (p : Pentagon) :
    p.rank p.intervals.facts.keys.toFinset p.bounds.facts.keys.toFinset ≤ p.budget := by
  have hI := List.toFinset_card_le p.intervals.facts.keys
  have hB := List.toFinset_card_le p.bounds.facts.keys
  apply Nat.le_trans (rank_le _ _ p)
  apply Nat.add_le_add
  · exact Nat.mul_le_mul_left 2 hI
  · exact Nat.mul_le_mul hB (Nat.add_le_add_left hI 1)

def changes (head : Nat → Pentagon) : Set Nat := {k | (head (k + 1)).same (head k) = false}

lemma mem_changes {head : Nat → Pentagon} {k : Nat} :
    k ∈ changes head ↔ (head (k + 1)).same (head k) = false := Iff.rfl

lemma fedHead_succ {n : Nat} (h : c.widenDelay ≤ n) :
    fedHead c p b (n + 1) = (fedHead c p b n).widen ((fedHead c p b n).join (b n)) :=
  if_neg (Int.not_lt.mpr h)

lemma WellFormed.fedHead (hp : p.WellFormed) (hb : ∀ n, (b n).WellFormed) (n : Nat) :
    (fedHead c p b n).WellFormed :=
  hp.heads (fun k _ _ => hb k) n

lemma Within.fedHead_succ (hb : ∀ n, (b n).WellFormed) {n : Nat} (hdelay : c.widenDelay ≤ n)
    (h : (fedHead c p b n).Within I B) :
    (fedHead c p b (n + 1)).Within I B ∧ (fedHead c p b (n + 1)).rank I B ≤ (fedHead c p b n).rank I B ∧
      (n ∈ changes (fedHead c p b) → (fedHead c p b (n + 1)).rank I B < (fedHead c p b n).rank I B) := by
  have hq := h.wellFormed.join (hb n)
  have hqb := h.wellFormed.isBottom_join (hb n) h.reachable
  rw [mem_changes, Pentagon.fedHead_succ hdelay]
  refine ⟨h.widen hq hqb, h.rank_widen_le hq hqb, fun hne => ?_⟩
  exact h.rank_widen_lt hq hqb (fun x y hy => h.wellFormed.mem_bounds_join (hb n) h.reachable hy) hne

lemma Within.fedHead (hb : ∀ n, (b n).WellFormed) {n k : Nat} (hdelay : c.widenDelay ≤ n)
    (h : (fedHead c p b n).Within I B) (hk : n ≤ k) : (fedHead c p b k).Within I B := by
  induction k, hk using Nat.le_induction with
  | base => exact h
  | succ k hk ih => exact (ih.fedHead_succ hb (by omega)).1

lemma encard_changes_le (hp : p.WellFormed) (hb : ∀ n, (b n).WellFormed) {n : Nat} (hdelay : c.widenDelay ≤ n)
    (hn : (fedHead c p b n).isBottom = false) :
    {k | n ≤ k ∧ k ∈ changes (fedHead c p b)}.encard ≤ (fedHead c p b n).budget := by
  have hwithin := (hp.fedHead hb n).within_keys hn
  have hstep {k : Nat} (hk : n ≤ k) := (hwithin.fedHead hb hdelay hk).fedHead_succ hb (by omega)
  calc {k | n ≤ k ∧ k ∈ changes (fedHead c p b)}.encard
      ≤ (fedHead c p b n).rank _ _ :=
        encard_decreases_le (fun k => (fedHead c p b k).rank _ _) (· ∈ changes (fedHead c p b))
          (fun k hk => (hstep hk).2.1) (fun k hk => (hstep hk).2.2)
    _ ≤ (fedHead c p b n).budget := Nat.cast_le.mpr (rank_keys_le _)

lemma finite_changes (hp : p.WellFormed) (hb : ∀ n, (b n).WellFormed) : (changes (fedHead c p b)).Finite := by
  by_cases h : ∃ n : Nat, c.widenDelay ≤ n ∧ (fedHead c p b n).isBottom = false
  · obtain ⟨n, hdelay, hn⟩ := h
    have hlater := Set.finite_of_encard_le_coe (encard_changes_le hp hb hdelay hn)
    apply ((Set.finite_lt_nat n).union hlater).subset
    intro k hk
    rcases Nat.lt_or_ge k n with hlt | hge
    · exact .inl hlt
    · exact .inr ⟨hge, hk⟩
  · push Not at h
    apply (Set.finite_lt_nat c.widenDelay.toNat).subset
    intro k hk
    by_contra hge
    have hk0 : (fedHead c p b k).isBottom = true := by simpa using h k (by simp at hge; omega)
    have hk1 : (fedHead c p b (k + 1)).isBottom = true := by simpa using h (k + 1) (by simp at hge; omega)
    rw [mem_changes, (hp.fedHead hb (k + 1)).same_of_isBottom (hp.fedHead hb k) hk1 hk0] at hk
    cases hk

theorem widening_terminates (c : Config) (hp : p.WellFormed) (hb : ∀ n, (b n).WellFormed) :
    (changes (fedHead c p b)).Finite ∧
      ∀ n : Nat, c.widenDelay ≤ n → (fedHead c p b n).isBottom = false →
        {k | n ≤ k ∧ k ∈ changes (fedHead c p b)}.encard ≤ (fedHead c p b n).budget :=
  ⟨finite_changes hp hb, fun _ hdelay hn => encard_changes_le hp hb hdelay hn⟩

theorem widening_terminates_growing_bounds :
    let c : Config := ⟨"pentagons", 0, "WARNING"⟩
    let intervals : Env Interval :=
      ⟨.ofList [("x", .ofBounds (.fin 0) (.fin 1)), ("y", .ofBounds (.fin 5) (.fin 6))], false⟩
    let p : Pentagon := ⟨⟨.ofList [("x", .singleton "z")], false⟩, intervals⟩
    let q : Pentagon := ⟨⟨.ofList [("x", .above (.ofList ["y", "z"]))], false⟩, intervals⟩
    let r : Pentagon := ⟨.top, ⟨.ofList [("x", .ofBounds (.fin (-1)) (.fin 9))], false⟩⟩
    let b : Nat → Pentagon := fun n => if n = 0 then q else r
    p.WellFormed ∧ (∀ n, (b n).WellFormed) ∧ "y" ∉ p.bounds.get "x" ∧ "y" ∈ (fedHead c p b 1).bounds.get "x" ∧
      (changes (fedHead c p b)).Finite ∧ {k | 0 ≤ k ∧ k ∈ changes (fedHead c p b)}.encard ≤ (7 : Nat) := by
  intro c intervals p q r b
  have hp : p.WellFormed := by decide
  have hb : ∀ n, (b n).WellFormed := by
    intro n
    cases n with
    | zero => exact (by decide : q.WellFormed)
    | succ n => exact (by decide : r.WellFormed)
  obtain ⟨hfinite, hcount⟩ := widening_terminates c hp hb
  have hbudget : (fedHead c p b 0).budget = 7 := by decide
  exact ⟨hp, hb, by decide, by decide, hfinite, hbudget ▸ hcount 0 (by decide) (by decide)⟩

end ValueAnalysis.Pentagon
