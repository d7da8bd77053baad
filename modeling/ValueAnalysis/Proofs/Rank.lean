import Mathlib.Data.Set.Card
import Mathlib.Order.Interval.Finset.Nat
import ValueAnalysis.Proofs.Bounds.BoundSet
import ValueAnalysis.Proofs.Interval.Domain

namespace ValueAnalysis

namespace Interval

/-- The number of bounds that a widening can still give up. -/
def finiteBounds (a : Interval) : Nat :=
  (if a.low = .negInf then 0 else 1) + (if a.high = .posInf then 0 else 1)

lemma finiteBounds_le_two (a : Interval) : a.finiteBounds ≤ 2 := by
  simp only [finiteBounds]
  split <;> split <;> omega

variable {a b : Interval}

lemma finiteBounds_widen_le (ha : a.isEmpty = false) (hb : b.isEmpty = false) :
    (a.widen b).finiteBounds ≤ a.finiteBounds := by
  obtain ⟨hlow, hhigh⟩ := widen_bounds ha hb
  simp only [finiteBounds, hlow, hhigh]
  apply Nat.add_le_add
  · by_cases h : b.low < a.low <;> simp [h]
  · by_cases h : a.high < b.high <;> simp [h]

lemma finiteBounds_widen_lt (ha : a.isEmpty = false) (hb : b.isEmpty = false) (h : a.widen b ≠ a) :
    (a.widen b).finiteBounds < a.finiteBounds := by
  obtain ⟨hlow, hhigh⟩ := widen_bounds ha hb
  simp only [finiteBounds, hlow, hhigh]
  by_cases hl : b.low < a.low
  · have hfin : a.low ≠ .negInf := by
      intro he
      rw [he] at hl
      exact ExtInt.not_lt_negInf b.low hl
    apply Nat.add_lt_add_of_lt_of_le
    · simp [hl, hfin]
    · by_cases hh : a.high < b.high <;> simp [hh]
  · have hh : a.high < b.high := by
      by_contra hh
      rw [if_neg hl] at hlow
      rw [if_neg hh] at hhigh
      exact h (ext hlow hhigh)
    have hfin : a.high ≠ .posInf := by
      intro he
      rw [he] at hh
      exact ExtInt.not_posInf_lt b.high hh
    simp [hl, hh, hfin]

end Interval

namespace BoundSet

/-- The number of candidates that a widening can still add, and one for giving up the whole set. -/
def room (candidates : Finset String) (b : BoundSet) : Nat :=
  if b = top then 0 else 1 + {y ∈ candidates | y ∉ b}.card

variable {a b : BoundSet} {candidates : Finset String}

lemma room_le (candidates : Finset String) (b : BoundSet) : b.room candidates ≤ 1 + candidates.card := by
  rw [room]
  split
  · exact Nat.zero_le _
  · exact Nat.add_le_add_left (Finset.card_filter_le _ _) 1

lemma room_pos (h : b ≠ top) : 0 < b.room candidates := by
  rw [room, if_neg h]
  exact Nat.lt_of_lt_of_le Nat.one_pos (Nat.le_add_right 1 _)

lemma card_absent_le (h : ∀ y ∈ a, y ∈ b) :
    {y ∈ candidates | y ∉ b}.card ≤ {y ∈ candidates | y ∉ a}.card := by
  apply Finset.card_le_card
  intro y hy
  rw [Finset.mem_filter] at hy ⊢
  exact ⟨hy.1, fun hya => hy.2 (h y hya)⟩

lemma card_absent_lt (h : ∀ y ∈ a, y ∈ b) {y : String} (hc : y ∈ candidates) (hb : y ∈ b) (hy : y ∉ a) :
    {y ∈ candidates | y ∉ b}.card < {y ∈ candidates | y ∉ a}.card := by
  apply Finset.card_lt_card
  rw [Finset.ssubset_iff_of_subset]
  · exact ⟨y, Finset.mem_filter.mpr ⟨hc, hy⟩, fun hmem => (Finset.mem_filter.mp hmem).2 hb⟩
  · intro z hz
    rw [Finset.mem_filter] at hz ⊢
    exact ⟨hz.1, fun hza => hz.2 (h z hza)⟩

lemma room_le_of_subset (ha : a ≠ top) (h : ∀ y ∈ a, y ∈ b) : b.room candidates ≤ a.room candidates := by
  rw [room, room, if_neg ha]
  split
  · exact Nat.zero_le _
  · exact Nat.add_le_add_left (card_absent_le h) 1

lemma room_lt_of_mem (ha : a ≠ top) (h : ∀ y ∈ a, y ∈ b) {y : String} (hc : y ∈ candidates) (hb : y ∈ b)
    (hy : y ∉ a) : b.room candidates < a.room candidates := by
  have hbtop : b ≠ top := by
    rintro rfl
    exact not_mem_top hb
  rw [room, room, if_neg ha, if_neg hbtop]
  exact Nat.add_lt_add_left (card_absent_lt h hc hb hy) 1

lemma room_widen_le (ha : a ≠ unreachable) (hb : b ≠ unreachable) :
    (a.widen b).room candidates ≤ a.room candidates := by
  rcases widen_cases ha hb with htop | ⟨hatop, heq, hsub⟩
  · rw [htop, room, if_pos rfl]
    exact Nat.zero_le _
  · rw [heq]
    exact room_le_of_subset hatop hsub

lemma room_widen_lt (ha : a ≠ unreachable) (hb : b ≠ unreachable)
    (hnew : ∀ y ∈ b, y ∈ a ∨ y ∈ candidates) (hne : a.widen b ≠ a) :
    (a.widen b).room candidates < a.room candidates := by
  rcases widen_cases ha hb with htop | ⟨hatop, heq, hsub⟩
  · rw [htop] at hne ⊢
    rw [room, if_pos rfl]
    exact room_pos hne.symm
  · rw [heq] at hne ⊢
    obtain ⟨y, hyb, hya⟩ : ∃ y ∈ b, y ∉ a := by
      by_contra hnone
      push Not at hnone
      exact hne (ext hb ha fun y => ⟨hnone y, hsub y⟩)
    exact room_lt_of_mem hatop hsub ((hnew y hyb).resolve_left hya) hyb hya

end BoundSet

lemma encard_decreases_le (rank : Nat → Nat) (changed : Nat → Prop) {n : Nat}
    (hle : ∀ k, n ≤ k → rank (k + 1) ≤ rank k) (hlt : ∀ k, n ≤ k → changed k → rank (k + 1) < rank k) :
    {k | n ≤ k ∧ changed k}.encard ≤ rank n := by
  have hanti : ∀ {i j : Nat}, n ≤ i → i ≤ j → rank j ≤ rank i := by
    intro i j hi hij
    induction j, hij using Nat.le_induction with
    | base => exact Nat.le_refl _
    | succ j hij ih => exact Nat.le_trans (hle j (Nat.le_trans hi hij)) ih
  have hmaps : Set.MapsTo rank {k | n ≤ k ∧ changed k} (Finset.Icc 1 (rank n) : Finset Nat) := by
    rintro k ⟨hk, hc⟩
    rw [Finset.mem_coe, Finset.mem_Icc]
    exact ⟨Nat.succ_le_of_lt (Nat.lt_of_le_of_lt (Nat.zero_le _) (hlt k hk hc)), hanti (Nat.le_refl n) hk⟩
  have hlater : ∀ {i j : Nat}, n ≤ i → changed i → i < j → rank j < rank i := fun hi hc hij =>
    Nat.lt_of_le_of_lt (hanti (Nat.le_succ_of_le hi) hij) (hlt _ hi hc)
  have hinj : Set.InjOn rank {k | n ≤ k ∧ changed k} := by
    rintro i ⟨hi, hci⟩ j ⟨hj, hcj⟩ heq
    rcases Nat.lt_trichotomy i j with hij | rfl | hij
    · exact absurd heq.symm (Nat.ne_of_lt (hlater hi hci hij))
    · rfl
    · exact absurd heq (Nat.ne_of_lt (hlater hj hcj hij))
  calc {k | n ≤ k ∧ changed k}.encard
      ≤ ((Finset.Icc 1 (rank n) : Finset Nat) : Set Nat).encard :=
        Set.encard_le_encard_of_injOn hmaps hinj
    _ = rank n := by rw [Set.encard_coe_eq_coe_finsetCard, Nat.card_Icc, Nat.add_sub_cancel]

end ValueAnalysis
