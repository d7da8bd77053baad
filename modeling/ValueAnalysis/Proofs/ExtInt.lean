import Mathlib.Tactic.Common
import ValueAnalysis.ExtInt

/-! The order and the arithmetic of extended integers. The undefined number is related to nothing, so a
comparison that holds says that both sides are defined. -/

namespace ValueAnalysis.ExtInt

@[simp] lemma isNan_iff (a : ExtInt) : a.isNan = true ↔ a = nan := by
  cases a <;> simp [isNan]

@[simp] lemma isNan_eq_false_iff (a : ExtInt) : a.isNan = false ↔ a ≠ nan := by
  cases a <;> simp [isNan]

@[simp] lemma fin_le_fin (m n : Int) : fin m ≤ fin n ↔ m ≤ n := Iff.rfl

@[simp] lemma not_nan_le (a : ExtInt) : ¬ nan ≤ a := by
  cases a <;> exact id

@[simp] lemma not_le_nan (a : ExtInt) : ¬ a ≤ nan := by
  cases a <;> exact id

@[simp] lemma negInf_le (a : ExtInt) : negInf ≤ a ↔ a ≠ nan := by
  cases a <;> simp [LE.le, ExtInt.le]

@[simp] lemma le_posInf (a : ExtInt) : a ≤ posInf ↔ a ≠ nan := by
  cases a <;> simp [LE.le, ExtInt.le]

@[simp] lemma le_negInf (a : ExtInt) : a ≤ negInf ↔ a = negInf := by
  cases a <;> simp [LE.le, ExtInt.le]

@[simp] lemma posInf_le (a : ExtInt) : posInf ≤ a ↔ a = posInf := by
  cases a <;> simp [LE.le, ExtInt.le]

@[simp] lemma fin_lt_fin (m n : Int) : fin m < fin n ↔ m < n := Iff.rfl

@[simp] lemma not_lt_negInf (a : ExtInt) : ¬ a < negInf := by
  cases a <;> exact id

@[simp] lemma not_posInf_lt (a : ExtInt) : ¬ posInf < a := by
  cases a <;> exact id

lemma lt_iff (a b : ExtInt) : a < b ↔ a ≤ b ∧ ¬ b ≤ a := by
  have hlt : a < b ↔ ExtInt.lt a b := Iff.rfl
  cases a <;> cases b <;> simp_all [ExtInt.lt]
  omega

lemma le_refl {a : ExtInt} (h : a ≠ nan) : a ≤ a := by
  cases a <;> simp_all

lemma le_trans {a b c : ExtInt} (hab : a ≤ b) (hbc : b ≤ c) : a ≤ c := by
  cases a <;> cases b <;> cases c <;> simp_all
  omega

lemma le_antisymm {a b : ExtInt} (hab : a ≤ b) (hba : b ≤ a) : a = b := by
  cases a <;> cases b <;> simp_all
  omega

lemma le_total {a b : ExtInt} (ha : a ≠ nan) (hb : b ≠ nan) : a ≤ b ∨ b ≤ a := by
  cases a <;> cases b <;> simp_all
  omega

instance : Trans (α := ExtInt) (· ≤ ·) (· ≤ ·) (· ≤ ·) := ⟨le_trans⟩

lemma left_ne_nan {a b : ExtInt} (h : a ≤ b) : a ≠ nan := by
  rintro rfl
  exact not_nan_le b h

lemma right_ne_nan {a b : ExtInt} (h : a ≤ b) : b ≠ nan := by
  rintro rfl
  exact not_le_nan a h

lemma le_of_lt {a b : ExtInt} (h : a < b) : a ≤ b := ((lt_iff a b).mp h).1

lemma lt_of_lt_of_le {a b c : ExtInt} (hab : a < b) (hbc : b ≤ c) : a < c := by
  obtain ⟨hle, hnot⟩ := (lt_iff a b).mp hab
  exact (lt_iff a c).mpr ⟨le_trans hle hbc, fun hca => hnot (le_trans hbc hca)⟩

lemma lt_of_le_of_lt {a b c : ExtInt} (hab : a ≤ b) (hbc : b < c) : a < c := by
  obtain ⟨hle, hnot⟩ := (lt_iff b c).mp hbc
  exact (lt_iff a c).mpr ⟨le_trans hab hle, fun hca => hnot (le_trans hca hab)⟩

instance : Trans (α := ExtInt) (· ≤ ·) (· < ·) (· < ·) := ⟨lt_of_le_of_lt⟩
instance : Trans (α := ExtInt) (· < ·) (· ≤ ·) (· < ·) := ⟨lt_of_lt_of_le⟩

lemma le_pred_of_lt {a : ExtInt} {n : Int} (h : a < fin n) : a ≤ fin (n - 1) := by
  cases a with
  | fin m => exact Int.le_sub_one_of_lt h
  | negInf => simp
  | posInf => exact absurd h (not_posInf_lt _)
  | nan => exact absurd (le_of_lt h) (not_nan_le _)

lemma succ_le_of_lt {a : ExtInt} {n : Int} (h : fin n < a) : fin (n + 1) ≤ a := by
  cases a with
  | fin m => exact Int.add_one_le_of_lt h
  | posInf => simp
  | negInf => exact absurd h (not_lt_negInf _)
  | nan => exact absurd (le_of_lt h) (not_le_nan _)

lemma not_lt {a b : ExtInt} (ha : a ≠ nan) (hb : b ≠ nan) : ¬ a < b ↔ b ≤ a := by
  rw [lt_iff, not_and, Classical.not_not]
  constructor
  · intro h
    rcases le_total ha hb with hab | hba
    · exact h hab
    · exact hba
  · exact fun h _ => h

lemma min_eq {a b : ExtInt} (ha : a ≠ nan) (hb : b ≠ nan) : a.min b = if a ≤ b then a else b := by
  simp [min, ha, hb]

lemma max_eq {a b : ExtInt} (ha : a ≠ nan) (hb : b ≠ nan) : a.max b = if b ≤ a then a else b := by
  simp [max, ha, hb]

lemma min_le_left {a b : ExtInt} (ha : a ≠ nan) (hb : b ≠ nan) : a.min b ≤ a := by
  rw [min_eq ha hb]
  split
  · exact le_refl ha
  · exact (le_total ha hb).resolve_left ‹_›

lemma min_le_right {a b : ExtInt} (ha : a ≠ nan) (hb : b ≠ nan) : a.min b ≤ b := by
  rw [min_eq ha hb]
  split
  · assumption
  · exact le_refl hb

lemma le_max_left {a b : ExtInt} (ha : a ≠ nan) (hb : b ≠ nan) : a ≤ a.max b := by
  rw [max_eq ha hb]
  split
  · exact le_refl ha
  · exact (le_total ha hb).resolve_right ‹_›

lemma le_max_right {a b : ExtInt} (ha : a ≠ nan) (hb : b ≠ nan) : b ≤ a.max b := by
  rw [max_eq ha hb]
  split
  · assumption
  · exact le_refl hb

lemma le_min {a b c : ExtInt} (ha : c ≤ a) (hb : c ≤ b) : c ≤ a.min b := by
  rw [min_eq (right_ne_nan ha) (right_ne_nan hb)]
  split <;> assumption

lemma max_le {a b c : ExtInt} (ha : a ≤ c) (hb : b ≤ c) : a.max b ≤ c := by
  rw [max_eq (left_ne_nan ha) (left_ne_nan hb)]
  split <;> assumption

@[simp] lemma neg_fin (n : Int) : -fin n = fin (-n) := rfl
@[simp] lemma neg_negInf : -negInf = posInf := rfl
@[simp] lemma neg_posInf : -posInf = negInf := rfl
@[simp] lemma neg_nan : -nan = nan := rfl

@[simp] lemma neg_neg (a : ExtInt) : -(-a) = a := by
  cases a <;> simp

lemma neg_le_neg {a b : ExtInt} (h : a ≤ b) : -b ≤ -a := by
  cases a <;> cases b <;> simp_all

lemma nan_add (a : ExtInt) : nan + a = nan := by
  cases a <;> rfl

lemma add_nan (a : ExtInt) : a + nan = nan := by
  cases a <;> rfl

lemma add_eq (a b : ExtInt) : a + b = ExtInt.add a b := rfl

lemma sub_eq (a b : ExtInt) : a - b = a + -b := rfl

lemma add_le_fin {a b : ExtInt} {m n : Int} (ha : a ≤ fin m) (hb : b ≤ fin n) : a + b ≤ fin (m + n) := by
  rw [add_eq]
  cases a <;> cases b <;> simp_all [ExtInt.add]
  omega

lemma fin_le_add {a b : ExtInt} {m n : Int} (ha : fin m ≤ a) (hb : fin n ≤ b) : fin (m + n) ≤ a + b := by
  rw [add_eq]
  cases a <;> cases b <;> simp_all [ExtInt.add]
  omega

lemma sub_le_fin {a b : ExtInt} {m n : Int} (ha : a ≤ fin m) (hb : fin n ≤ b) : a - b ≤ fin (m - n) := by
  rw [sub_eq, Int.sub_eq_add_neg]
  exact add_le_fin ha (neg_le_neg hb)

lemma fin_le_sub {a b : ExtInt} {m n : Int} (ha : fin m ≤ a) (hb : b ≤ fin n) : fin (m - n) ≤ a - b := by
  rw [sub_eq, Int.sub_eq_add_neg]
  exact fin_le_add ha (neg_le_neg hb)

@[simp] lemma timesPosInf_zero : timesPosInf 0 = fin 0 := rfl

lemma timesPosInf_pos {m : Int} (h : 0 < m) : timesPosInf m = posInf := by
  simp [timesPosInf, h, Int.ne_of_gt h]

lemma timesPosInf_neg {m : Int} (h : m < 0) : timesPosInf m = negInf := by
  simp [timesPosInf, Int.ne_of_lt h, Int.le_of_lt h]

lemma timesPosInf_ne_nan (m : Int) : timesPosInf m ≠ nan := by
  rw [timesPosInf]
  split
  · simp
  · split <;> simp

lemma neg_timesPosInf (m : Int) : -timesPosInf m = timesPosInf (-m) := by
  rcases Int.lt_trichotomy m 0 with h | rfl | h
  · rw [timesPosInf_neg h, timesPosInf_pos (by omega), neg_negInf]
  · rfl
  · rw [timesPosInf_pos h, timesPosInf_neg (by omega), neg_posInf]

lemma timesPosInf_le {m n : Int} (h : m ≤ n) : timesPosInf m ≤ timesPosInf n := by
  rcases Int.lt_trichotomy m 0 with hm | rfl | hm
  · rw [timesPosInf_neg hm, negInf_le]
    exact timesPosInf_ne_nan n
  · rcases Int.lt_or_eq_of_le h with hn | rfl
    · simp [timesPosInf_pos hn]
    · exact le_refl (timesPosInf_ne_nan 0)
  · rw [timesPosInf_pos hm, timesPosInf_pos (by omega), posInf_le]

lemma nan_mul (a : ExtInt) : nan * a = nan := by
  cases a <;> rfl

lemma mul_nan (a : ExtInt) : a * nan = nan := by
  cases a <;> rfl

lemma mul_eq (a b : ExtInt) : a * b = ExtInt.mul a b := rfl

lemma mul_comm (a b : ExtInt) : a * b = b * a := by
  rw [mul_eq, mul_eq]
  cases a <;> cases b <;> simp [ExtInt.mul, Int.mul_comm]

lemma mul_neg (a b : ExtInt) : a * -b = -(a * b) := by
  rw [mul_eq, mul_eq]
  cases a <;> cases b
  case fin.fin m n => exact congrArg fin (Int.mul_neg m n)
  all_goals simp [ExtInt.mul, neg_timesPosInf]

lemma mul_ne_nan {a b : ExtInt} (ha : a ≠ nan) (hb : b ≠ nan) : a * b ≠ nan := by
  rw [mul_eq]
  cases a <;> cases b <;> simp_all [ExtInt.mul, timesPosInf_ne_nan]

@[simp] lemma fin_mul_fin (m n : Int) : fin m * fin n = fin (m * n) := rfl
@[simp] lemma negInf_mul_fin (n : Int) : negInf * fin n = timesPosInf (-n) := rfl
@[simp] lemma posInf_mul_fin (n : Int) : posInf * fin n = timesPosInf n := rfl
@[simp] lemma fin_mul_posInf (m : Int) : fin m * posInf = timesPosInf m := rfl
@[simp] lemma fin_mul_negInf (m : Int) : fin m * negInf = timesPosInf (-m) := rfl
@[simp] lemma negInf_mul_posInf : negInf * posInf = negInf := rfl
@[simp] lemma posInf_mul_posInf : posInf * posInf = posInf := rfl

lemma mul_le_mul_fin {a b : ExtInt} {n : Int} (h : a ≤ b) (hn : 0 ≤ n) : a * fin n ≤ b * fin n := by
  rcases Int.lt_or_eq_of_le hn with hn | rfl
  · have hneg : -n < 0 := by omega
    cases a <;> cases b <;> simp_all [timesPosInf_pos hn, timesPosInf_neg hneg]
  · cases a <;> cases b <;> simp_all

lemma mul_le_mul_posInf {a b : ExtInt} (h : a ≤ b) : a * posInf ≤ b * posInf := by
  cases a <;> cases b <;> simp_all [timesPosInf_ne_nan, timesPosInf_le]

lemma mul_le_mul_of_nonneg {a b c : ExtInt} (h : a ≤ b) (hc : fin 0 ≤ c) : a * c ≤ b * c := by
  cases c with
  | fin n => exact mul_le_mul_fin h ((fin_le_fin 0 n).mp hc)
  | posInf => exact mul_le_mul_posInf h
  | negInf => simp at hc
  | nan => simp at hc

lemma mul_le_mul_of_nonpos {a b c : ExtInt} (h : a ≤ b) (hc : c ≤ fin 0) : b * c ≤ a * c := by
  have hneg := neg_le_neg (mul_le_mul_of_nonneg h (neg_le_neg hc))
  rwa [mul_neg, mul_neg, neg_neg, neg_neg] at hneg

lemma fin_div_fin (m : Int) {n : Int} (h : n ≠ 0) : (fin m).div (fin n) = fin (m.tdiv n) := by
  simp [div, h]

lemma posInf_div_fin {n : Int} (h : n ≠ 0) : posInf.div (fin n) = timesPosInf n := by
  simp [div, h]

lemma negInf_div_fin {n : Int} (h : n ≠ 0) : negInf.div (fin n) = timesPosInf (-n) := by
  simp [div, h]

lemma neg_fin_div (m : Int) (b : ExtInt) : (fin (-m)).div b = -(fin m).div b := by
  cases b with
  | fin n => by_cases hn : n = 0 <;> simp [div, hn]
  | negInf => rfl
  | posInf => rfl
  | nan => rfl

lemma neg_div_neg (a b : ExtInt) : (-a).div (-b) = a.div b := by
  cases a <;> cases b <;> simp [div]

lemma div_le_div_fin {a b : ExtInt} {n : Int} (h : a ≤ b) (hn : 0 < n) : a.div (fin n) ≤ b.div (fin n) := by
  have hne : n ≠ 0 := by omega
  have hneg : -n < 0 := by omega
  cases a <;> cases b <;>
    simp_all [fin_div_fin, posInf_div_fin, negInf_div_fin, timesPosInf_pos hn, timesPosInf_neg hneg]
  exact Int.tdiv_le_tdiv hn h

end ValueAnalysis.ExtInt
