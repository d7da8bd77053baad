import ValueAnalysis.Proofs.Condition
import ValueAnalysis.Proofs.Env.Pointwise
import ValueAnalysis.Proofs.Interval.Arithmetic

namespace ValueAnalysis.Interval

open ExtInt

lemma mem_join_left {n : Int} {a : Interval} (b : Interval) (h : n ∈ a) : n ∈ a.join b := mem_hull_left b h

lemma mem_join_right {n : Int} (a : Interval) {b : Interval} (h : n ∈ b) : n ∈ a.join b := mem_hull_right a h

lemma mem_meet {n : Int} {a b : Interval} (ha : n ∈ a) (hb : n ∈ b) : n ∈ a.meet b := mem_intersect ha hb

lemma mem_of_leq {n : Int} {a b : Interval} (h : n ∈ a) (hle : a.leq b = true) : n ∈ b := by
  simp only [leq, includes, nonempty_of_mem h, Bool.false_eq_true, if_false] at hle
  split at hle
  · cases hle
  · simp only [Bool.and_eq_true, decide_eq_true_eq] at hle
    exact ⟨le_trans hle.1 h.1, le_trans h.2 hle.2⟩

lemma widen_bounds {a b : Interval} (ha : a.isEmpty = false) (hb : b.isEmpty = false) :
    (a.widen b).low = (if b.low < a.low then .negInf else a.low) ∧
      (a.widen b).high = if a.high < b.high then .posInf else a.high := by
  obtain ⟨hp, hn, hle⟩ := bounds_of_nonempty ha
  simp only [widen, ha, hb, Bool.false_eq_true, if_false]
  rw [ofBounds_eq]
  · exact ⟨rfl, rfl⟩
  · rw [boundsFault?_eq_none_iff]
    have hl := left_ne_nan hle
    have hh := right_ne_nan hle
    right
    split <;> split <;> simp_all

lemma widen_nonempty {a b : Interval} (ha : a.isEmpty = false) (hb : b.isEmpty = false) :
    (a.widen b).isEmpty = false := by
  rw [isEmpty, isNan_eq_false_iff, (widen_bounds ha hb).1]
  split
  · simp
  · exact low_ne_nan ha

lemma mem_widen_right {n : Int} (a : Interval) {b : Interval} (h : n ∈ b) : n ∈ a.widen b := by
  have hb := nonempty_of_mem h
  by_cases ha : a.isEmpty = true
  · simpa [widen, ha] using h
  · rw [Bool.not_eq_true] at ha
    obtain ⟨hlow, hhigh⟩ := widen_bounds ha hb
    rw [mem_def, hlow, hhigh]
    constructor
    · split
      · simp
      · exact le_trans ((ExtInt.not_lt (low_ne_nan hb) (low_ne_nan ha)).mp ‹_›) h.1
    · split
      · simp
      · exact le_trans h.2 ((ExtInt.not_lt (high_ne_nan ha) (high_ne_nan hb)).mp ‹_›)

lemma mem_widen_left {n : Int} {a : Interval} (b : Interval) (h : n ∈ a) : n ∈ a.widen b := by
  have ha := nonempty_of_mem h
  by_cases hb : b.isEmpty = true
  · simpa [widen, ha, hb] using h
  · rw [Bool.not_eq_true] at hb
    obtain ⟨hlow, hhigh⟩ := widen_bounds ha hb
    rw [mem_def, hlow, hhigh]
    constructor
    · split
      · simp
      · exact h.1
    · split
      · simp
      · exact h.2

lemma ne_empty_iff (a : Interval) : a ≠ empty ↔ a.isEmpty = false := by
  rw [Ne, ← isEmpty_iff, Bool.not_eq_true]

lemma meet_all (a : Interval) : a.meet all = a := by
  cases ha : a.isEmpty with
  | true => simp [meet, intersect, (isEmpty_iff a).mp ha, isEmpty, empty, isNan]
  | false =>
    have hlow : a.low.max .negInf = a.low := by cases a.low <;> rfl
    have hhigh : a.high.min .posInf = a.high := by cases a.high <;> rfl
    have hall : all.isEmpty = false := rfl
    simp only [meet, intersect, ha, hall, Bool.or_self, Bool.false_eq_true, if_false]
    change ofBounds (a.low.max .negInf) (a.high.min .posInf) = a
    rw [hlow, hhigh]
    exact ofBounds_eq a.valid

instance : LawfulDomain Interval where
  isTop_iff := isAll_iff
  isBottom_iff := isEmpty_iff
  top_ne_bottom := (ne_empty_iff all).mpr rfl
  join_top v := eq_all fun n => mem_hull_right v (mem_all n)
  top_join v := eq_all fun n => mem_hull_left v (mem_all n)
  join_ne_bottom {v w} hv _ := by
    obtain ⟨n, hn⟩ := exists_mem ((ne_empty_iff v).mp hv)
    exact (ne_empty_iff _).mpr (nonempty_of_mem (mem_hull_left w hn))
  widen_top v := eq_all fun n => mem_widen_right v (mem_all n)
  top_widen v := eq_all fun n => mem_widen_left v (mem_all n)
  widen_ne_bottom {v w} hv hw :=
    (ne_empty_iff _).mpr (widen_nonempty ((ne_empty_iff v).mp hv) ((ne_empty_iff w).mp hw))
  meet_top := meet_all

lemma mem_evalBinary_add {a b : Interval} {m n : Int} (hm : m ∈ a) (hn : n ∈ b) :
    m + n ∈ evalBinary .add a b := by
  simp only [evalBinary]
  split
  · exact mem_all _
  · exact mem_plus hm hn

lemma mem_evalBinary_sub {a b : Interval} {m n : Int} (hm : m ∈ a) (hn : n ∈ b) :
    m - n ∈ evalBinary .sub a b := by
  simp only [evalBinary]
  split
  · exact mem_all _
  · exact mem_minus hm hn

lemma mem_evalBinary_mul {a b : Interval} {m n : Int} (hm : m ∈ a) (hn : n ∈ b) :
    m * n ∈ evalBinary .mul a b := by
  simp only [evalBinary]
  split
  · rename_i hz
    have hmn : m * n = 0 := by
      rcases (Bool.or_eq_true _ _).mp hz with ha | hb
      · rw [mem_isZero ha hm, Int.zero_mul]
      · rw [mem_isZero hb hn, Int.mul_zero]
    exact mem_singleton.mpr hmn
  · split
    · exact mem_all _
    · exact mem_times hm hn

lemma mem_evalBinary_div {a b : Interval} {m n : Int} (hm : m ∈ a) (hn : n ∈ b) (hne : n ≠ 0) :
    m.tdiv n ∈ evalBinary .div a b := by
  simp only [evalBinary]
  split
  · exact absurd (mem_isZero ‹_› hn) hne
  · split
    · rename_i ha
      rw [mem_isZero ha hm, Int.zero_tdiv]
      exact mem_singleton.mpr rfl
    · split
      · exact mem_all _
      · exact mem_quotient hm hn hne

lemma evalBinary_other {op : BinaryOp} (h : op.isArithmetic = false) (a b : Interval) :
    evalBinary op a b = all := by
  cases op <;> simp_all [evalBinary, BinaryOp.isArithmetic]

lemma lt_of_high_lt_low {a b : Interval} {m n : Int} (hm : m ∈ a) (hn : n ∈ b) (h : a.high < b.low) :
    m < n := by
  have hlt : ExtInt.fin m < .fin n := by
    calc ExtInt.fin m ≤ a.high := hm.2
      _ < b.low := h
      _ ≤ .fin n := hn.1
  exact hlt

lemma ne_all_of_high_lt_low {a b : Interval} (h : a.high < b.low) : a ≠ all ∧ b ≠ all := by
  constructor
  · rintro rfl
    exact ExtInt.not_posInf_lt _ h
  · rintro rfl
    exact ExtInt.not_lt_negInf _ h

lemma le_of_high_le_low {a b : Interval} {m n : Int} (hm : m ∈ a) (hn : n ∈ b) (h : a.high ≤ b.low) :
    m ≤ n := by
  have hle : ExtInt.fin m ≤ .fin n := by
    calc ExtInt.fin m ≤ a.high := hm.2
      _ ≤ b.low := h
      _ ≤ .fin n := hn.1
  exact hle

lemma satisfiesLt_admits {a b : Interval} {m n : Int} (hm : m ∈ a) (hn : n ∈ b) :
    (satisfiesLt a b).Admits (decide (m < n)) := by
  rw [Satisfiability.admits_iff, satisfiesLt]
  split
  · have hlt := lt_of_high_lt_low hm hn ‹_›
    simp [hlt, Satisfiability.ofBool]
  · split
    · have hle := le_of_high_le_low hn hm ‹_›
      simp [Int.not_lt.mpr hle, Satisfiability.ofBool]
    · exact Or.inl rfl

lemma satisfiesLe_admits {a b : Interval} {m n : Int} (hm : m ∈ a) (hn : n ∈ b) :
    (satisfiesLe a b).Admits (decide (m ≤ n)) := by
  rw [Satisfiability.admits_iff, satisfiesLe]
  split
  · have hle := le_of_high_le_low hm hn ‹_›
    simp [hle, Satisfiability.ofBool]
  · split
    · have hlt := lt_of_high_lt_low hn hm ‹_›
      simp [Int.not_le.mpr hlt, Satisfiability.ofBool]
    · exact Or.inl rfl

lemma satisfiesEq_admits {a b : Interval} {m n : Int} (hm : m ∈ a) (hn : n ∈ b) :
    (satisfiesEq a b).Admits (decide (m = n)) := by
  rw [Satisfiability.admits_iff, satisfiesEq]
  split
  · have hne : m ≠ n := by
      rintro rfl
      have := nonempty_of_mem (mem_meet hm hn)
      simp_all
    simp [hne, Satisfiability.ofBool]
  · split
    · rename_i h
      simp only [Bool.and_eq_true, beq_iff_eq] at h
      have heq : m = n := eq_of_isSingleton h.1 hm (h.2 ▸ hn)
      simp [heq, Satisfiability.ofBool]
    · exact Or.inl rfl

lemma satisfiesBinary_admits {op : BinaryOp} {a b : Interval} {m n : Int} (ho : op.isComparison = true)
    (hm : m ∈ a) (hn : n ∈ b) : (satisfiesBinary op a b).Admits (op.holds m n) := by
  cases op with
  | lt => exact satisfiesLt_admits hm hn
  | le => exact satisfiesLe_admits hm hn
  | gt => exact satisfiesLt_admits hn hm
  | ge => exact satisfiesLe_admits hn hm
  | eq => exact satisfiesEq_admits hm hn
  | ne =>
    have h := (satisfiesEq_admits hm hn).negate
    rwa [← decide_not] at h
  | _ => simp [BinaryOp.isComparison] at ho

lemma satisfiesBinary_other {op : BinaryOp} (ho : op.isComparison = false) (a b : Interval) :
    satisfiesBinary op a b = .unknown := by
  cases op <;> simp_all [satisfiesBinary, BinaryOp.isComparison]

lemma mem_refined {op : BinaryOp} {a bound r : Interval} {m n : Int} (hm : m ∈ a) (hn : n ∈ bound)
    (h : op.holds m n = true) (hr : refined? op a bound = some r) : m ∈ r := by
  cases op with
  | lt =>
    obtain rfl := Option.some.inj hr
    have hlt : m < n := of_decide_eq_true h
    refine mem_meet hm (mem_atMost.mpr ?_)
    calc ExtInt.fin m ≤ .fin (n - 1) := by rw [fin_le_fin]; omega
      _ ≤ bound.high - .fin 1 := fin_le_sub hn.2 (le_refl (by simp))
  | le =>
    obtain rfl := Option.some.inj hr
    have hle : m ≤ n := of_decide_eq_true h
    exact mem_meet hm (mem_atMost.mpr (le_trans hle hn.2))
  | gt =>
    obtain rfl := Option.some.inj hr
    have hlt : n < m := of_decide_eq_true h
    refine mem_meet hm (mem_atLeast.mpr ?_)
    calc bound.low + .fin 1 ≤ .fin (n + 1) := add_le_fin hn.1 (le_refl (by simp))
      _ ≤ .fin m := by rw [fin_le_fin]; omega
  | ge =>
    obtain rfl := Option.some.inj hr
    have hle : n ≤ m := of_decide_eq_true h
    exact mem_meet hm (mem_atLeast.mpr (le_trans hn.1 hle))
  | eq =>
    obtain rfl := Option.some.inj hr
    have heq : m = n := of_decide_eq_true h
    exact mem_meet hm (heq ▸ hn)
  | ne =>
    have hne : m ≠ n := of_decide_eq_true h
    simp only [refined?] at hr
    split at hr
    · rename_i hs
      simp only [Bool.and_eq_true, beq_iff_eq] at hs
      exact absurd (eq_of_isSingleton hs.1 hm (hs.2 ▸ hn)) hne
    · cases hr
  | _ => simp [BinaryOp.holds] at h

end ValueAnalysis.Interval
