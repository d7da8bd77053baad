import ValueAnalysis.Proofs.Checked.Value

/-! Interval arithmetic computes hulls: the result of an operation holds every concrete result, every other interval
that does includes it, and so each of its bounds is a concrete result or an infinity that the results go toward
without a limit. -/

namespace ValueAnalysis.Interval

open ExtInt

variable {a b r : Interval} {S : Set Int}

/-- The least interval that holds a set of integers. -/
structure IsHull (r : Interval) (S : Set Int) : Prop where
  covers : ∀ n ∈ S, n ∈ r
  least : ∀ c : Interval, (∀ n ∈ S, n ∈ c) → r.leq c = true
  isLimit_low : IsLimit S r.low
  isLimit_high : IsLimit S r.high

section Least

variable (hS : S.Nonempty) (hcovers : ∀ n ∈ S, n ∈ r)
  (hleast : ∀ c : Interval, (∀ n ∈ S, n ∈ c) → r.leq c = true)
include hS hcovers hleast

lemma between_of_least {l h : ExtInt} (hl : ∀ n ∈ S, l ≤ .fin n) (hh : ∀ n ∈ S, .fin n ≤ h) :
    l ≤ r.low ∧ r.high ≤ h := by
  obtain ⟨k, hk⟩ := hS
  have hr := nonempty_of_mem (hcovers k hk)
  have hle := hleast (ofBounds l h) fun n hn => mem_ofBounds.mpr ⟨hl n hn, hh n hn⟩
  obtain ⟨hlow, hhigh⟩ := ofBounds_bounds (nonempty_of_leq hle hr)
  rwa [leq_iff hr, hlow, hhigh] at hle

lemma isLimit_low_of_least : IsLimit S r.low := by
  -- A lower bound of the members would be one of the interval too.
  have hbelow (l : Int) (hl : ∀ n ∈ S, l ≤ n) : .fin l ≤ r.low :=
    (between_of_least hS hcovers hleast (fun n hn => (fin_le_fin l n).mpr (hl n hn))
      fun n hn => (hcovers n hn).2).1
  obtain ⟨k, hk⟩ := hS
  have hr := nonempty_of_mem (hcovers k hk)
  cases hlow : r.low with
  | fin l =>
    by_contra hl
    have hsucc : .fin (l + 1) ≤ r.low := by
      apply hbelow
      intro n hn
      have hle := (hcovers n hn).1
      rw [hlow, fin_le_fin] at hle
      have hne : n ≠ l := fun he => hl (he ▸ hn)
      omega
    rw [hlow, fin_le_fin] at hsucc
    omega
  | negInf =>
    intro i
    by_contra hnone
    have hi : .fin i ≤ r.low := by
      apply hbelow
      intro n hn
      have hlt : ¬ n ≤ i := fun hle => hnone ⟨n, hn, hle⟩
      omega
    simp [hlow] at hi
  | posInf => exact absurd hlow (bounds_of_nonempty hr).1
  | nan => exact absurd hlow (low_ne_nan hr)

lemma isLimit_high_of_least : IsLimit S r.high := by
  have habove (h : Int) (hh : ∀ n ∈ S, n ≤ h) : r.high ≤ .fin h :=
    (between_of_least hS hcovers hleast (fun n hn => (hcovers n hn).1)
      fun n hn => (fin_le_fin n h).mpr (hh n hn)).2
  obtain ⟨k, hk⟩ := hS
  have hr := nonempty_of_mem (hcovers k hk)
  cases hhigh : r.high with
  | fin h =>
    by_contra hh
    have hpred : r.high ≤ .fin (h - 1) := by
      apply habove
      intro n hn
      have hle := (hcovers n hn).2
      rw [hhigh, fin_le_fin] at hle
      have hne : n ≠ h := fun he => hh (he ▸ hn)
      omega
    rw [hhigh, fin_le_fin] at hpred
    omega
  | posInf =>
    intro i
    by_contra hnone
    have hi : r.high ≤ .fin i := by
      apply habove
      intro n hn
      have hlt : ¬ i ≤ n := fun hle => hnone ⟨n, hn, hle⟩
      omega
    simp [hhigh] at hi
  | negInf => exact absurd hhigh (bounds_of_nonempty hr).2.1
  | nan => exact absurd hhigh (high_ne_nan hr)

lemma isHull_of_least : r.IsHull S :=
  ⟨hcovers, hleast, isLimit_low_of_least hS hcovers hleast, isLimit_high_of_least hS hcovers hleast⟩

end Least

lemma nonempty_members (ha : a.isEmpty = false) : {n | n ∈ a}.Nonempty := exists_mem ha

lemma isHull_negate (ha : a.isEmpty = false) : a.negate.IsHull (Set.image Neg.neg {m | m ∈ a}) := by
  apply isHull_of_least ((nonempty_members ha).image _)
  · exact Set.forall_mem_image.mpr fun m hm => mem_negate hm
  · intro c hc
    exact negate_leq ha (Set.forall_mem_image.mp hc)

section Binary

variable (ha : a.isEmpty = false) (hb : b.isEmpty = false)
include ha hb

lemma isHull_plus : (a.plus b).IsHull (Set.image2 (· + ·) {m | m ∈ a} {n | n ∈ b}) := by
  apply isHull_of_least ((nonempty_members ha).image2 (nonempty_members hb))
  · exact Set.forall_mem_image2.mpr fun m hm n hn => mem_plus hm hn
  · intro c hc
    exact plus_leq ha hb (Set.forall_mem_image2.mp hc)

lemma isHull_minus : (a.minus b).IsHull (Set.image2 (· - ·) {m | m ∈ a} {n | n ∈ b}) := by
  apply isHull_of_least ((nonempty_members ha).image2 (nonempty_members hb))
  · exact Set.forall_mem_image2.mpr fun m hm n hn => mem_minus hm hn
  · intro c hc
    exact minus_leq ha hb (Set.forall_mem_image2.mp hc)

lemma isHull_times : (a.times b).IsHull (Set.image2 (· * ·) {m | m ∈ a} {n | n ∈ b}) := by
  apply isHull_of_least ((nonempty_members ha).image2 (nonempty_members hb))
  · exact Set.forall_mem_image2.mpr fun m hm n hn => mem_times hm hn
  · intro c hc
    exact times_leq ha hb (Set.forall_mem_image2.mp hc)

lemma isHull_quotient (hz : ∃ n ∈ b, n ≠ 0) :
    (a.quotient b).IsHull (Set.image2 Int.tdiv {m | m ∈ a} {n | n ∈ b ∧ n ≠ 0}) := by
  apply isHull_of_least ((nonempty_members ha).image2 hz)
  · exact Set.forall_mem_image2.mpr fun m hm n hn => mem_quotient hm hn.1 hn.2
  · intro c hc
    exact quotient_leq ha hb fun m hm n hn hne => Set.forall_mem_image2.mp hc m hm n ⟨hn, hne⟩

end Binary

lemma quotient_zero (a : Interval) : a.quotient zero = empty := rfl

theorem arithmetic_isHull (ha : a.isEmpty = false) (hb : b.isEmpty = false) :
    (a.negate.IsHull (Set.image Neg.neg {m | m ∈ a}) ∧
      (a.plus b).IsHull (Set.image2 (· + ·) {m | m ∈ a} {n | n ∈ b}) ∧
      (a.minus b).IsHull (Set.image2 (· - ·) {m | m ∈ a} {n | n ∈ b}) ∧
      (a.times b).IsHull (Set.image2 (· * ·) {m | m ∈ a} {n | n ∈ b}) ∧
      ((∃ n ∈ b, n ≠ 0) →
        (a.quotient b).IsHull (Set.image2 Int.tdiv {m | m ∈ a} {n | n ∈ b ∧ n ≠ 0})) ∧
      a.quotient zero = empty) ∧
    Checked.negate a = .ok a.negate ∧ Checked.plus a b = .ok (a.plus b) ∧
      Checked.minus a b = .ok (a.minus b) ∧ Checked.times a b = .ok (a.times b) ∧
      Checked.quotient a b = .ok (a.quotient b) ∧ Checked.quotient a zero = .ok empty := by
  refine ⟨⟨isHull_negate ha, isHull_plus ha hb, isHull_minus ha hb, isHull_times ha hb,
    isHull_quotient ha hb, quotient_zero a⟩, ?_⟩
  exact ⟨Checked.negate_eq a, Checked.plus_eq a b, Checked.minus_eq a b, Checked.times_eq a b,
    Checked.quotient_eq a b, Checked.quotient_eq a zero⟩

/-- A dividend without an upper bound and a divisor that holds zero. -/
theorem arithmetic_isHull_unbounded :
    let a : Interval := .ofBounds (.fin (-7)) .posInf
    let b : Interval := .ofBounds (.fin 0) (.fin 5)
    (a.isEmpty = false ∧ b.isEmpty = false ∧ ∃ n ∈ b, n ≠ 0) ∧
      (a.times b = .ofBounds (.fin (-35)) .posInf ∧
        (a.times b).IsHull (Set.image2 (· * ·) {m | m ∈ a} {n | n ∈ b})) ∧
      a.quotient b = .ofBounds (.fin (-7)) .posInf ∧
        (a.quotient b).IsHull (Set.image2 Int.tdiv {m | m ∈ a} {n | n ∈ b ∧ n ≠ 0}) := by
  intro a b
  have ha : a.isEmpty = false := by decide
  have hb : b.isEmpty = false := by decide
  have hz : ∃ n ∈ b, n ≠ 0 := ⟨3, by decide, by decide⟩
  obtain ⟨⟨_, _, _, htimes, hquotient, _⟩, _⟩ := arithmetic_isHull ha hb
  exact ⟨⟨ha, hb, hz⟩, ⟨by decide, htimes⟩, by decide, hquotient hz⟩

end ValueAnalysis.Interval
