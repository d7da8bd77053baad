import ValueAnalysis.Interval.Arithmetic
import ValueAnalysis.Proofs.ExtInt

/-! The members of an interval. An interval is empty exactly when its bounds are undefined, and an
interval built from two bounds holds what is between them. -/

namespace ValueAnalysis.Interval

open ExtInt

lemma boundsFault?_eq_none_iff (low high : ExtInt) :
    boundsFault? low high = none ↔
      (low = .nan ∧ high = .nan) ∨ (low ≠ .posInf ∧ high ≠ .negInf ∧ low ≤ high) := by
  rw [boundsFault?]
  by_cases hl : low = .nan
  · subst hl
    by_cases hh : high = .nan <;> simp [hh]
  · by_cases hh : high = .nan
    · subst hh
      simp [hl]
    · by_cases hi : low = .posInf ∨ high = .negInf
      · rcases hi with rfl | rfl <;> simp [hl, hh]
      · obtain ⟨hp, hn⟩ := not_or.mp hi
        have hlt : high < low ↔ ¬ low ≤ high := by
          rw [← ExtInt.not_lt hh hl, Classical.not_not]
        by_cases hc : low ≤ high <;> simp [hl, hh, hp, hn, hlt, hc]

lemma ext {a b : Interval} (hl : a.low = b.low) (hh : a.high = b.high) : a = b := by
  cases a
  cases b
  simp_all

lemma isEmpty_iff (a : Interval) : a.isEmpty = true ↔ a = empty := by
  constructor
  · intro h
    have hl : a.low = .nan := (isNan_iff a.low).mp h
    rcases (boundsFault?_eq_none_iff a.low a.high).mp a.valid with ⟨_, hh⟩ | ⟨_, _, hle⟩
    · exact ext hl hh
    · exact absurd hl (left_ne_nan hle)
  · rintro rfl
    rfl

lemma bounds_of_nonempty {a : Interval} (h : a.isEmpty = false) :
    a.low ≠ .posInf ∧ a.high ≠ .negInf ∧ a.low ≤ a.high := by
  rcases (boundsFault?_eq_none_iff a.low a.high).mp a.valid with ⟨hl, _⟩ | hb
  · exact absurd hl ((isNan_eq_false_iff a.low).mp h)
  · exact hb

lemma low_ne_nan {a : Interval} (h : a.isEmpty = false) : a.low ≠ .nan :=
  left_ne_nan (bounds_of_nonempty h).2.2

lemma high_ne_nan {a : Interval} (h : a.isEmpty = false) : a.high ≠ .nan :=
  right_ne_nan (bounds_of_nonempty h).2.2

lemma isAll_iff (a : Interval) : a.isAll = true ↔ a = all := by
  constructor
  · intro h
    simp only [isAll, Bool.and_eq_true, beq_iff_eq] at h
    exact ext h.1 h.2
  · rintro rfl
    rfl

lemma ofBounds_eq {low high : ExtInt} (h : boundsFault? low high = none) :
    ofBounds low high = ⟨low, high, h⟩ := by
  simp [ofBounds, h]

@[simp] lemma not_mem_empty (n : Int) : n ∉ empty := fun h => not_nan_le _ h.1

@[simp] lemma mem_all (n : Int) : n ∈ all := by
  simp [mem_def, all]

lemma eq_all {a : Interval} (h : ∀ n, n ∈ a) : a = all := by
  apply ext
  · cases hl : a.low with
    | negInf => rfl
    | fin l =>
      have hlow := (h (l - 1)).1
      rw [hl, fin_le_fin] at hlow
      omega
    | posInf => simpa [hl] using (h 0).1
    | nan => simpa [hl] using (h 0).1
  · cases hh : a.high with
    | posInf => rfl
    | fin k =>
      have hhigh := (h (k + 1)).2
      rw [hh, fin_le_fin] at hhigh
      omega
    | negInf => simpa [hh] using (h 0).2
    | nan => simpa [hh] using (h 0).2

lemma mem_ofBounds {n : Int} {low high : ExtInt} :
    n ∈ ofBounds low high ↔ low ≤ .fin n ∧ .fin n ≤ high := by
  constructor
  · intro h
    by_cases hv : boundsFault? low high = none
    · rw [ofBounds_eq hv] at h
      exact h
    · simp [ofBounds, hv] at h
  · rintro ⟨hl, hh⟩
    have hp : low ≠ .posInf := by
      rintro rfl
      simp at hl
    have hn : high ≠ .negInf := by
      rintro rfl
      simp at hh
    have hv := (boundsFault?_eq_none_iff low high).mpr (.inr ⟨hp, hn, le_trans hl hh⟩)
    rw [ofBounds_eq hv]
    exact ⟨hl, hh⟩

@[simp] lemma mem_singleton {m n : Int} : m ∈ singleton n ↔ m = n := by
  simp only [singleton, mem_ofBounds, fin_le_fin]
  omega

@[simp] lemma mem_atLeast {n : Int} {low : ExtInt} : n ∈ atLeast low ↔ low ≤ .fin n := by
  simp [atLeast, mem_ofBounds]

@[simp] lemma mem_atMost {n : Int} {high : ExtInt} : n ∈ atMost high ↔ .fin n ≤ high := by
  simp [atMost, mem_ofBounds]

lemma nonempty_of_mem {n : Int} {a : Interval} (h : n ∈ a) : a.isEmpty = false :=
  (isNan_eq_false_iff a.low).mpr (left_ne_nan h.1)

lemma exists_mem {a : Interval} (h : a.isEmpty = false) : ∃ n, n ∈ a := by
  obtain ⟨hp, hn, hle⟩ := bounds_of_nonempty h
  cases hl : a.low with
  | fin l => exact ⟨l, by rw [mem_def, hl]; exact ⟨le_refl (by simp), hl ▸ hle⟩⟩
  | negInf =>
    cases hh : a.high with
    | fin k => exact ⟨k, by simp [mem_def, hl, hh]⟩
    | posInf => exact ⟨0, by simp [mem_def, hl, hh]⟩
    | negInf => exact absurd hh hn
    | nan => exact absurd hh (right_ne_nan hle)
  | posInf => exact absurd hl hp
  | nan => exact absurd hl (left_ne_nan hle)

lemma eq_of_isSingleton {a : Interval} {m n : Int} (h : a.isSingleton = true) (hm : m ∈ a) (hn : n ∈ a) :
    m = n := by
  simp only [isSingleton, Bool.and_eq_true, beq_iff_eq] at h
  have hmn : ExtInt.fin m ≤ .fin n := by
    calc ExtInt.fin m ≤ a.high := hm.2
      _ = a.low := h.2.symm
      _ ≤ .fin n := hn.1
  have hnm : ExtInt.fin n ≤ .fin m := by
    calc ExtInt.fin n ≤ a.high := hn.2
      _ = a.low := h.2.symm
      _ ≤ .fin m := hm.1
  exact Int.le_antisymm hmn hnm

lemma mem_isZero {a : Interval} {n : Int} (h : a.isZero = true) (hn : n ∈ a) : n = 0 := by
  simp only [isZero, Bool.and_eq_true, beq_iff_eq] at h
  rw [mem_def, h.1, h.2, fin_le_fin, fin_le_fin] at hn
  omega

lemma mem_hull_left {n : Int} {a : Interval} (b : Interval) (h : n ∈ a) : n ∈ a.hull b := by
  have ha := nonempty_of_mem h
  by_cases hb : b.isEmpty = true
  · simpa [hull, ha, hb] using h
  · rw [Bool.not_eq_true] at hb
    simp only [hull, ha, hb, Bool.false_eq_true, if_false, mem_ofBounds]
    exact ⟨le_trans (min_le_left (low_ne_nan ha) (low_ne_nan hb)) h.1,
      le_trans h.2 (le_max_left (high_ne_nan ha) (high_ne_nan hb))⟩

lemma mem_hull_right {n : Int} (a : Interval) {b : Interval} (h : n ∈ b) : n ∈ a.hull b := by
  have hb := nonempty_of_mem h
  by_cases ha : a.isEmpty = true
  · simpa [hull, ha] using h
  · rw [Bool.not_eq_true] at ha
    simp only [hull, ha, hb, Bool.false_eq_true, if_false, mem_ofBounds]
    exact ⟨le_trans (min_le_right (low_ne_nan ha) (low_ne_nan hb)) h.1,
      le_trans h.2 (le_max_right (high_ne_nan ha) (high_ne_nan hb))⟩

lemma mem_intersect {n : Int} {a b : Interval} (ha : n ∈ a) (hb : n ∈ b) : n ∈ a.intersect b := by
  have hea := nonempty_of_mem ha
  have heb := nonempty_of_mem hb
  simp only [intersect, hea, heb, Bool.or_self, Bool.false_eq_true, if_false, mem_ofBounds]
  exact ⟨max_le ha.1 hb.1, le_min ha.2 hb.2⟩

end ValueAnalysis.Interval
