import ValueAnalysis.Proofs.Interval.Tightness

/-! Comparisons of intervals are decided and refined exactly: a definite answer is given as soon as all pairs of
members agree, and a refinement keeps only the members that are in the relation to some member of the other
side. The order of intervals is inclusion of their members. -/

namespace ValueAnalysis

namespace ExtInt

lemma exists_between {u v : ExtInt} (h : u < v) : ∃ k : Int, u ≤ .fin k ∧ .fin (k + 1) ≤ v := by
  cases u with
  | fin m => exact ⟨m, le_refl (by simp), succ_le_of_lt h⟩
  | negInf =>
    cases v with
    | fin n => exact ⟨n - 1, by simp, by simp⟩
    | posInf => exact ⟨0, by simp, by simp⟩
    | negInf => exact absurd h (not_lt_negInf _)
    | nan => exact absurd (le_of_lt h) (not_le_nan _)
  | posInf => exact absurd h (not_posInf_lt _)
  | nan => exact absurd (le_of_lt h) (not_nan_le _)

lemma fin_le_sub_one {v : ExtInt} {n : Int} (h : .fin n ≤ v - .fin 1) : .fin (n + 1) ≤ v := by
  cases v with
  | fin k =>
    have hle : n ≤ k - 1 := h
    rw [fin_le_fin]
    omega
  | posInf => simp
  | negInf =>
    have hle : fin n ≤ negInf := h
    simp at hle
  | nan => exact absurd h (not_le_nan _)

lemma add_one_le_fin {v : ExtInt} {n : Int} (h : v + .fin 1 ≤ .fin n) : v ≤ .fin (n - 1) := by
  cases v with
  | fin k =>
    have hle : k + 1 ≤ n := h
    rw [fin_le_fin]
    omega
  | negInf => simp
  | posInf =>
    have hle : posInf ≤ fin n := h
    simp at hle
  | nan => exact absurd h (not_nan_le _)

end ExtInt

namespace Interval

open ExtInt

variable {a b c d : Interval} {m n : Int} {op : BinaryOp}

lemma leq_iff_forall_mem : a.leq c = true ↔ ∀ n ∈ a, n ∈ c := by
  constructor
  · intro h n hn
    exact mem_of_leq hn h
  · intro h
    cases ha : a.isEmpty with
    | true => exact leq_of_isEmpty c ha
    | false =>
      rw [leq_iff ha]
      exact ⟨(between_of_isLimit h (isLimit_low ha)).1, (between_of_isLimit h (isLimit_high ha)).2⟩

lemma mem_meet_iff : n ∈ a.meet b ↔ n ∈ a ∧ n ∈ b := by
  constructor
  · intro h
    exact ⟨mem_of_leq h (meet_leq_left a b), mem_of_leq h (meet_leq_right a b)⟩
  · intro h
    exact mem_meet h.1 h.2

lemma isEmpty_meet_iff : (a.meet b).isEmpty = true ↔ ∀ m ∈ a, ∀ n ∈ b, m ≠ n := by
  constructor
  · rintro h m hm n hn rfl
    have hne := nonempty_of_mem (mem_meet hm hn)
    rw [h] at hne
    cases hne
  · intro h
    cases hempty : (a.meet b).isEmpty with
    | true => rfl
    | false =>
      obtain ⟨k, hk⟩ := exists_mem hempty
      obtain ⟨hka, hkb⟩ := mem_meet_iff.mp hk
      exact absurd rfl (h k hka k hkb)

lemma isSingleton_singleton (n : Int) : (singleton n).isSingleton = true := by
  obtain ⟨hlow, hhigh⟩ := ofBounds_bounds (nonempty_of_mem (mem_singleton.mpr (rfl : n = n)))
  simp [isSingleton, singleton, hlow, hhigh, ExtInt.isFinite]

lemma exists_mem_ge (ha : a.isEmpty = false) (h : .fin n ≤ a.high) : ∃ m ∈ a, n ≤ m := by
  have hlimit := isLimit_high ha
  cases hh : a.high with
  | fin k => exact ⟨k, by rwa [hh] at hlimit, by rwa [hh] at h⟩
  | posInf =>
    rw [hh] at hlimit
    exact hlimit n
  | negInf => simp [hh] at h
  | nan => simp [hh] at h

lemma exists_mem_le (ha : a.isEmpty = false) (h : a.low ≤ .fin n) : ∃ m ∈ a, m ≤ n := by
  have hlimit := isLimit_low ha
  cases hl : a.low with
  | fin k => exact ⟨k, by rwa [hl] at hlimit, by rwa [hl] at h⟩
  | negInf =>
    rw [hl] at hlimit
    exact hlimit n
  | posInf => simp [hl] at h
  | nan => simp [hl] at h

section Comparison

variable (ha : a.isEmpty = false) (hb : b.isEmpty = false)
include ha hb

lemma high_le_low_iff : a.high ≤ b.low ↔ ∀ m ∈ a, ∀ n ∈ b, m ≤ n := by
  constructor
  · intro h m hm n hn
    exact le_of_high_le_low hm hn h
  · intro h
    rw [← not_lt (low_ne_nan hb) (high_ne_nan ha)]
    intro hlt
    obtain ⟨k, hlow, hhigh⟩ := exists_between hlt
    obtain ⟨m, hm, hkm⟩ := exists_mem_ge ha hhigh
    obtain ⟨n, hn, hnk⟩ := exists_mem_le hb hlow
    have hmn := h m hm n hn
    omega

lemma high_lt_low_iff : a.high < b.low ↔ ∀ m ∈ a, ∀ n ∈ b, m < n := by
  constructor
  · intro h m hm n hn
    exact lt_of_high_lt_low hm hn h
  · intro h
    rw [lt_iff]
    refine ⟨(high_le_low_iff ha hb).mpr fun m hm n hn => Int.le_of_lt (h m hm n hn), fun hle => ?_⟩
    have hvalid : boundsFault? b.low a.high = none :=
      (boundsFault?_eq_none_iff _ _).mpr (.inr ⟨(bounds_of_nonempty hb).1, (bounds_of_nonempty ha).2.1, hle⟩)
    obtain ⟨k, hlow, hhigh⟩ := exists_mem (a := ⟨b.low, a.high, hvalid⟩) hb
    obtain ⟨m, hm, hkm⟩ := exists_mem_ge ha hhigh
    obtain ⟨n, hn, hnk⟩ := exists_mem_le hb hlow
    have hmn := h m hm n hn
    omega

end Comparison

/-- A definite answer to a comparison is given exactly when all pairs of members agree on it. -/
structure Decides (a b : Interval) (answer : Satisfiability) (holds : Int → Int → Bool) : Prop where
  satisfied_iff : answer = .satisfied ↔ ∀ m ∈ a, ∀ n ∈ b, holds m n = true
  notSatisfied_iff : answer = .notSatisfied ↔ ∀ m ∈ a, ∀ n ∈ b, holds m n = false
  reachable : answer ≠ .bottom

namespace Decides

variable {s t : Satisfiability} {holds : Int → Int → Bool}

lemma swap (h : Decides a b s holds) : Decides b a s fun m n => holds n m where
  satisfied_iff := by
    rw [h.satisfied_iff]
    exact ⟨fun hall m hm n hn => hall n hn m hm, fun hall m hm n hn => hall n hn m hm⟩
  notSatisfied_iff := by
    rw [h.notSatisfied_iff]
    exact ⟨fun hall m hm n hn => hall n hn m hm, fun hall m hm n hn => hall n hn m hm⟩
  reachable := h.reachable

lemma negate (h : Decides a b s holds) : Decides a b s.negate fun m n => !holds m n where
  satisfied_iff := by
    simp only [Bool.not_eq_true', ← h.notSatisfied_iff]
    cases s <;> simp [Satisfiability.negate]
  notSatisfied_iff := by
    simp only [Bool.not_eq_false', ← h.satisfied_iff]
    cases s <;> simp [Satisfiability.negate]
  reachable := by
    have hs := h.reachable
    cases s <;> simp_all [Satisfiability.negate]

lemma mono (h : Decides a b s holds) (h' : Decides c d t holds) (hac : a.leq c = true) (hbd : b.leq d = true) :
    s.join t = t := by
  rw [leq_iff_forall_mem] at hac hbd
  cases t with
  | satisfied =>
    have hall := h'.satisfied_iff.mp rfl
    rw [h.satisfied_iff.mpr fun m hm n hn => hall m (hac m hm) n (hbd n hn)]
    rfl
  | notSatisfied =>
    have hall := h'.notSatisfied_iff.mp rfl
    rw [h.notSatisfied_iff.mpr fun m hm n hn => hall m (hac m hm) n (hbd n hn)]
    rfl
  | unknown => cases s <;> rfl
  | bottom => exact absurd rfl h'.reachable

lemma unique (h : Decides a b s holds) (h' : Decides a b t holds) : s = t := by
  have hsatisfied := h.satisfied_iff.trans h'.satisfied_iff.symm
  have hrefuted := h.notSatisfied_iff.trans h'.notSatisfied_iff.symm
  have hs := h.reachable
  have ht := h'.reachable
  cases s <;> cases t <;> simp_all

end Decides

section Comparison

variable (ha : a.isEmpty = false) (hb : b.isEmpty = false)
include ha hb

lemma decides_of_tests {holds : Int → Int → Bool} {P Q : Prop} [Decidable P] [Decidable Q]
    (hP : P ↔ ∀ m ∈ a, ∀ n ∈ b, holds m n = true) (hQ : Q ↔ ∀ m ∈ a, ∀ n ∈ b, holds m n = false) :
    Decides a b (if P then .satisfied else if Q then .notSatisfied else .unknown) holds := by
  obtain ⟨m, hm⟩ := exists_mem ha
  obtain ⟨n, hn⟩ := exists_mem hb
  have hexclusive : P → ¬ Q := by
    intro hp hq
    have htrue := hP.mp hp m hm n hn
    rw [hQ.mp hq m hm n hn] at htrue
    cases htrue
  constructor
  · rw [← hP]
    split_ifs <;> simp_all
  · rw [← hQ]
    split_ifs <;> simp_all
  · split_ifs <;> simp

lemma decides_lt : Decides a b (satisfiesLt a b) fun m n => decide (m < n) := by
  apply decides_of_tests ha hb
  · simp only [decide_eq_true_eq]
    exact high_lt_low_iff ha hb
  · simp only [decide_eq_false_iff_not, Int.not_lt]
    rw [high_le_low_iff hb ha]
    exact forall₂_comm

lemma decides_le : Decides a b (satisfiesLe a b) fun m n => decide (m ≤ n) := by
  apply decides_of_tests ha hb
  · simp only [decide_eq_true_eq]
    exact high_le_low_iff ha hb
  · simp only [decide_eq_false_iff_not, Int.not_le]
    rw [high_lt_low_iff hb ha]
    exact forall₂_comm

lemma isSingleton_eq_iff : (a.isSingleton && a == b) = true ↔ ∀ m ∈ a, ∀ n ∈ b, m = n := by
  simp only [Bool.and_eq_true, beq_iff_eq]
  constructor
  · rintro ⟨hs, rfl⟩ m hm n hn
    exact eq_of_isSingleton hs hm hn
  · intro h
    obtain ⟨m, hm⟩ := exists_mem ha
    obtain ⟨n, hn⟩ := exists_mem hb
    have hsingle : ∀ {c : Interval}, m ∈ c → (∀ k ∈ c, k = m) → c = singleton m := by
      intro c hc hall
      apply leq_antisymm
      · exact leq_iff_forall_mem.mpr fun k hk => mem_singleton.mpr (hall k hk)
      · exact leq_iff_forall_mem.mpr fun k hk => mem_singleton.mp hk ▸ hc
    obtain rfl := h m hm n hn
    rw [hsingle hm fun k hk => h k hk m hn, hsingle hn fun k hk => (h m hm k hk).symm]
    exact ⟨isSingleton_singleton m, rfl⟩

lemma decides_eq : Decides a b (satisfiesEq a b) fun m n => decide (m = n) := by
  have hne : Decides a b _ fun m n => decide (m ≠ n) :=
    decides_of_tests ha hb (P := (a.meet b).isEmpty = true) (Q := (a.isSingleton && a == b) = true)
      (by simpa using isEmpty_meet_iff) (by simpa using isSingleton_eq_iff ha hb)
  have hanswer := hne.negate
  simp only [satisfiesEq]
  convert hanswer using 1
  · split_ifs <;> rfl
  · simp

lemma decides_satisfiesBinary (ho : op.isComparison = true) :
    Decides a b (satisfiesBinary op a b) op.holds := by
  cases op with
  | lt => exact decides_lt ha hb
  | le => exact decides_le ha hb
  | gt => exact (decides_lt hb ha).swap
  | ge => exact (decides_le hb ha).swap
  | eq => exact decides_eq ha hb
  | ne =>
    have hholds : BinaryOp.ne.holds = fun m n => !decide (m = n) := by
      funext m n
      simp [BinaryOp.holds]
    rw [hholds]
    exact (decides_eq ha hb).negate
  | _ => simp [BinaryOp.isComparison] at ho

end Comparison

lemma mem_refined_iff {r : Interval} (hb : b.isEmpty = false) (hr : refined? op a b = some r) :
    m ∈ r ↔ m ∈ a ∧ ∃ n ∈ b, op.holds m n = true := by
  refine ⟨fun h => ?_, fun ⟨hm, n, hn, hholds⟩ => mem_refined hm hn hholds hr⟩
  cases op with
  | lt =>
    obtain rfl := Option.some.inj hr
    obtain ⟨hm, hbound⟩ := mem_meet_iff.mp h
    obtain ⟨n, hn, hlt⟩ := exists_mem_ge hb (fin_le_sub_one (mem_atMost.mp hbound))
    exact ⟨hm, n, hn, decide_eq_true hlt⟩
  | le =>
    obtain rfl := Option.some.inj hr
    obtain ⟨hm, hbound⟩ := mem_meet_iff.mp h
    obtain ⟨n, hn, hle⟩ := exists_mem_ge hb (mem_atMost.mp hbound)
    exact ⟨hm, n, hn, decide_eq_true hle⟩
  | gt =>
    obtain rfl := Option.some.inj hr
    obtain ⟨hm, hbound⟩ := mem_meet_iff.mp h
    obtain ⟨n, hn, hle⟩ := exists_mem_le hb (add_one_le_fin (mem_atLeast.mp hbound))
    exact ⟨hm, n, hn, decide_eq_true (by omega)⟩
  | ge =>
    obtain rfl := Option.some.inj hr
    obtain ⟨hm, hbound⟩ := mem_meet_iff.mp h
    obtain ⟨n, hn, hle⟩ := exists_mem_le hb (mem_atLeast.mp hbound)
    exact ⟨hm, n, hn, decide_eq_true hle⟩
  | eq =>
    obtain rfl := Option.some.inj hr
    obtain ⟨hm, hbound⟩ := mem_meet_iff.mp h
    exact ⟨hm, m, hbound, decide_eq_true rfl⟩
  | ne =>
    simp only [refined?] at hr
    split at hr
    · obtain rfl := Option.some.inj hr
      exact absurd h (not_mem_empty m)
    · cases hr
  | _ => cases hr

end Interval

end ValueAnalysis
