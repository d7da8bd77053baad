import ValueAnalysis.Proofs.Env.Lattice
import ValueAnalysis.Proofs.Interval.Domain

namespace ValueAnalysis.Interval

open ExtInt

variable {a b c d : Interval}

lemma leq_of_isEmpty (b : Interval) (ha : a.isEmpty = true) : a.leq b = true := by
  simp [leq, includes, ha]

lemma leq_iff (ha : a.isEmpty = false) : a.leq b = true ↔ b.low ≤ a.low ∧ a.high ≤ b.high := by
  cases hb : b.isEmpty with
  | true =>
    have hlow : b.low = nan := (isNan_iff b.low).mp hb
    simp [leq, includes, ha, hb, hlow]
  | false => simp [leq, includes, ha, hb]

lemma nonempty_of_leq (h : a.leq b = true) (ha : a.isEmpty = false) : b.isEmpty = false :=
  (isNan_eq_false_iff b.low).mpr (left_ne_nan ((leq_iff ha).mp h).1)

lemma high_lt_low_of_leq (ha : a.isEmpty = false) (hb : b.isEmpty = false) (hac : a.leq c = true)
    (hbd : b.leq d = true) (h : c.high < d.low) : a.high < b.low := by
  calc a.high ≤ c.high := ((leq_iff ha).mp hac).2
    _ < d.low := h
    _ ≤ b.low := ((leq_iff hb).mp hbd).1

lemma not_high_lt_low (a : Interval) : ¬ a.high < a.low := by
  intro h
  cases ha : a.isEmpty with
  | true =>
    rw [(isEmpty_iff a).mp ha] at h
    exact left_ne_nan (le_of_lt h) rfl
  | false => exact ((lt_iff _ _).mp h).2 (bounds_of_nonempty ha).2.2

lemma hull_bounds (ha : a.isEmpty = false) (hb : b.isEmpty = false) :
    (a.hull b).low = a.low.min b.low ∧ (a.hull b).high = a.high.max b.high := by
  obtain ⟨hap, han, hale⟩ := bounds_of_nonempty ha
  have hlow := min_le_left (low_ne_nan ha) (low_ne_nan hb)
  have hhigh := le_max_left (high_ne_nan ha) (high_ne_nan hb)
  simp only [hull, ha, hb, Bool.false_eq_true, if_false]
  rw [ofBounds_eq]
  · exact ⟨rfl, rfl⟩
  · refine (boundsFault?_eq_none_iff _ _).mpr (.inr ⟨fun he => ?_, fun he => ?_, ?_⟩)
    · rw [he, posInf_le] at hlow
      exact hap hlow
    · rw [he, le_negInf] at hhigh
      exact han hhigh
    · exact le_trans hlow (le_trans hale hhigh)

lemma ofBounds_bounds {low high : ExtInt} (h : (ofBounds low high).isEmpty = false) :
    (ofBounds low high).low = low ∧ (ofBounds low high).high = high := by
  by_cases hv : boundsFault? low high = none
  · rw [ofBounds_eq hv]
    exact ⟨rfl, rfl⟩
  · simp [ofBounds, hv, empty, isEmpty, isNan] at h

lemma meet_bounds (h : (a.meet b).isEmpty = false) :
    a.isEmpty = false ∧ b.isEmpty = false ∧ (a.meet b).low = a.low.max b.low ∧
      (a.meet b).high = a.high.min b.high := by
  rw [meet, intersect] at h ⊢
  split at h
  · cases h
  · rename_i hab
    rw [Bool.or_eq_true, not_or, Bool.not_eq_true, Bool.not_eq_true] at hab
    rw [if_neg (by simp [hab])]
    exact ⟨hab.1, hab.2, ofBounds_bounds h⟩

lemma leq_refl (a : Interval) : a.leq a = true := by
  cases ha : a.isEmpty with
  | true => exact leq_of_isEmpty a ha
  | false => exact (leq_iff ha).mpr ⟨ExtInt.le_refl (low_ne_nan ha), ExtInt.le_refl (high_ne_nan ha)⟩

lemma leq_trans (hab : a.leq b = true) (hbc : b.leq c = true) : a.leq c = true := by
  cases ha : a.isEmpty with
  | true => exact leq_of_isEmpty c ha
  | false =>
    have hb := nonempty_of_leq hab ha
    rw [leq_iff ha] at hab ⊢
    rw [leq_iff hb] at hbc
    exact ⟨ExtInt.le_trans hbc.1 hab.1, ExtInt.le_trans hab.2 hbc.2⟩

lemma leq_antisymm (hab : a.leq b = true) (hba : b.leq a = true) : a = b := by
  cases ha : a.isEmpty with
  | true =>
    cases hb : b.isEmpty with
    | true => rw [(isEmpty_iff a).mp ha, (isEmpty_iff b).mp hb]
    | false =>
      have ha' := nonempty_of_leq hba hb
      simp [ha] at ha'
  | false =>
    have hb := nonempty_of_leq hab ha
    rw [leq_iff ha] at hab
    rw [leq_iff hb] at hba
    exact ext (ExtInt.le_antisymm hba.1 hab.1) (ExtInt.le_antisymm hab.2 hba.2)

lemma leq_hull_left (a b : Interval) : a.leq (a.hull b) = true := by
  cases ha : a.isEmpty with
  | true => exact leq_of_isEmpty _ ha
  | false =>
    cases hb : b.isEmpty with
    | true =>
      have hull_eq : a.hull b = a := by simp [hull, ha, hb]
      rw [hull_eq]
      exact leq_refl a
    | false =>
      obtain ⟨hlow, hhigh⟩ := hull_bounds ha hb
      rw [leq_iff ha, hlow, hhigh]
      exact ⟨min_le_left (low_ne_nan ha) (low_ne_nan hb), le_max_left (high_ne_nan ha) (high_ne_nan hb)⟩

lemma leq_hull_right (a b : Interval) : b.leq (a.hull b) = true := by
  cases ha : a.isEmpty with
  | true =>
    have hull_eq : a.hull b = b := by simp [hull, ha]
    rw [hull_eq]
    exact leq_refl b
  | false =>
    cases hb : b.isEmpty with
    | true => exact leq_of_isEmpty _ hb
    | false =>
      obtain ⟨hlow, hhigh⟩ := hull_bounds ha hb
      rw [leq_iff hb, hlow, hhigh]
      exact ⟨min_le_right (low_ne_nan ha) (low_ne_nan hb), le_max_right (high_ne_nan ha) (high_ne_nan hb)⟩

lemma hull_leq (hac : a.leq c = true) (hbc : b.leq c = true) : (a.hull b).leq c = true := by
  cases ha : a.isEmpty with
  | true => simpa [hull, ha] using hbc
  | false =>
    cases hb : b.isEmpty with
    | true => simpa [hull, ha, hb] using hac
    | false =>
      have hne := nonempty_of_leq (leq_hull_left a b) ha
      obtain ⟨hlow, hhigh⟩ := hull_bounds ha hb
      rw [leq_iff ha] at hac
      rw [leq_iff hb] at hbc
      rw [leq_iff hne, hlow, hhigh]
      exact ⟨le_min hac.1 hbc.1, max_le hac.2 hbc.2⟩

lemma meet_leq_left (a b : Interval) : (a.meet b).leq a = true := by
  cases h : (a.meet b).isEmpty with
  | true => exact leq_of_isEmpty a h
  | false =>
    obtain ⟨ha, hb, hlow, hhigh⟩ := meet_bounds h
    rw [leq_iff h, hlow, hhigh]
    exact ⟨le_max_left (low_ne_nan ha) (low_ne_nan hb), min_le_left (high_ne_nan ha) (high_ne_nan hb)⟩

lemma meet_leq_right (a b : Interval) : (a.meet b).leq b = true := by
  cases h : (a.meet b).isEmpty with
  | true => exact leq_of_isEmpty b h
  | false =>
    obtain ⟨ha, hb, hlow, hhigh⟩ := meet_bounds h
    rw [leq_iff h, hlow, hhigh]
    exact ⟨le_max_right (low_ne_nan ha) (low_ne_nan hb), min_le_right (high_ne_nan ha) (high_ne_nan hb)⟩

lemma leq_meet (hca : c.leq a = true) (hcb : c.leq b = true) : c.leq (a.meet b) = true := by
  cases hc : c.isEmpty with
  | true => exact leq_of_isEmpty _ hc
  | false =>
    have ha := nonempty_of_leq hca hc
    have hb := nonempty_of_leq hcb hc
    obtain ⟨n, hn⟩ := exists_mem hc
    have hmeet : n ∈ a.meet b := mem_meet (mem_of_leq hn hca) (mem_of_leq hn hcb)
    obtain ⟨_, _, hlow, hhigh⟩ := meet_bounds (nonempty_of_mem hmeet)
    rw [leq_iff hc] at hca hcb ⊢
    rw [hlow, hhigh]
    exact ⟨max_le hca.1 hcb.1, le_min hca.2 hcb.2⟩

instance : LatticeDomain Interval where
  leq_refl := leq_refl
  leq_trans := leq_trans
  leq_antisymm := leq_antisymm
  leq_top a := by
    cases ha : a.isEmpty with
    | true => exact leq_of_isEmpty all ha
    | false => exact (leq_iff ha).mpr ⟨(negInf_le _).mpr (low_ne_nan ha), (le_posInf _).mpr (high_ne_nan ha)⟩
  bottom_leq a := leq_of_isEmpty a rfl
  leq_join_left := leq_hull_left
  leq_join_right := leq_hull_right
  join_leq := hull_leq
  meet_leq_left := meet_leq_left
  meet_leq_right := meet_leq_right
  leq_meet := leq_meet

lemma leq_widen_left (ha : a.isEmpty = false) (hb : b.isEmpty = false) : a.leq (a.widen b) = true := by
  obtain ⟨hlow, hhigh⟩ := widen_bounds ha hb
  rw [leq_iff ha, hlow, hhigh]
  constructor
  · split
    · exact (negInf_le _).mpr (low_ne_nan ha)
    · exact ExtInt.le_refl (low_ne_nan ha)
  · split
    · exact (le_posInf _).mpr (high_ne_nan ha)
    · exact ExtInt.le_refl (high_ne_nan ha)

lemma leq_widen_right (ha : a.isEmpty = false) (hb : b.isEmpty = false) : b.leq (a.widen b) = true := by
  obtain ⟨hlow, hhigh⟩ := widen_bounds ha hb
  rw [leq_iff hb, hlow, hhigh]
  constructor
  · split
    · exact (negInf_le _).mpr (low_ne_nan hb)
    · exact (ExtInt.not_lt (low_ne_nan hb) (low_ne_nan ha)).mp ‹_›
  · split
    · exact (le_posInf _).mpr (high_ne_nan hb)
    · exact (ExtInt.not_lt (high_ne_nan ha) (high_ne_nan hb)).mp ‹_›

end ValueAnalysis.Interval
