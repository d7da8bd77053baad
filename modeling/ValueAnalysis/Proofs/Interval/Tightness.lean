import Mathlib.Data.Set.NAry
import ValueAnalysis.Proofs.Interval.Lattice

/-! Interval arithmetic gives nothing away: an interval that holds every concrete result holds the computed
one. Each corner is a result of members of the operands or, where it is infinite, results go past every
integer toward it. -/

namespace ValueAnalysis

namespace ExtInt

variable {S T R : Set Int} {u v : ExtInt} {m n : Int}

/-- A member of a set of integers, or an infinity toward which the set is unbounded. -/
def IsLimit (S : Set Int) : ExtInt → Prop
  | negInf => ∀ k, ∃ n ∈ S, n ≤ k
  | fin n => n ∈ S
  | posInf => ∀ k, ∃ n ∈ S, k ≤ n
  | nan => False

lemma IsLimit.nonempty (h : IsLimit S v) : S.Nonempty := by
  cases v with
  | negInf =>
    obtain ⟨n, hn, _⟩ := h 0
    exact ⟨n, hn⟩
  | fin n => exact ⟨n, h⟩
  | posInf =>
    obtain ⟨n, hn, _⟩ := h 0
    exact ⟨n, hn⟩
  | nan => exact h.elim

lemma IsLimit.neg (h : IsLimit S v) : IsLimit (Set.image Neg.neg S) (-v) := by
  cases v with
  | negInf =>
    intro k
    obtain ⟨n, hn, hk⟩ := h (-k)
    exact ⟨-n, Set.mem_image_of_mem _ hn, by omega⟩
  | fin n => exact Set.mem_image_of_mem _ h
  | posInf =>
    intro k
    obtain ⟨n, hn, hk⟩ := h (-k)
    exact ⟨-n, Set.mem_image_of_mem _ hn, by omega⟩
  | nan => exact h.elim

lemma IsLimit.posInf_add (hu : IsLimit S posInf) (hT : T.Nonempty) :
    IsLimit (Set.image2 (· + ·) S T) posInf := by
  intro k
  obtain ⟨n, hn⟩ := hT
  obtain ⟨m, hm, hk⟩ := hu (k - n)
  exact ⟨m + n, Set.mem_image2_of_mem hm hn, by omega⟩

lemma IsLimit.negInf_add (hu : IsLimit S negInf) (hT : T.Nonempty) :
    IsLimit (Set.image2 (· + ·) S T) negInf := by
  intro k
  obtain ⟨n, hn⟩ := hT
  obtain ⟨m, hm, hk⟩ := hu (k - n)
  exact ⟨m + n, Set.mem_image2_of_mem hm hn, by omega⟩

lemma IsLimit.add (hu : IsLimit S u) (hv : IsLimit T v) (h : u + v ≠ nan) :
    IsLimit (Set.image2 (· + ·) S T) (u + v) := by
  cases u with
  | fin m =>
    cases v with
    | fin n => exact Set.mem_image2_of_mem hu hv
    | negInf =>
      intro k
      obtain ⟨n, hn, hk⟩ := hv (k - m)
      exact ⟨m + n, Set.mem_image2_of_mem hu hn, by omega⟩
    | posInf =>
      intro k
      obtain ⟨n, hn, hk⟩ := hv (k - m)
      exact ⟨m + n, Set.mem_image2_of_mem hu hn, by omega⟩
    | nan => exact hv.elim
  | posInf =>
    cases v with
    | negInf => exact absurd rfl h
    | fin n => exact hu.posInf_add hv.nonempty
    | posInf => exact hu.posInf_add hv.nonempty
    | nan => exact hv.elim
  | negInf =>
    cases v with
    | posInf => exact absurd rfl h
    | fin n => exact hu.negInf_add hv.nonempty
    | negInf => exact hu.negInf_add hv.nonempty
    | nan => exact hv.elim
  | nan => exact hu.elim

lemma isLimit_timesPosInf (hneg : m < 0 → IsLimit R negInf) (hzero : m = 0 → 0 ∈ R)
    (hpos : 0 < m → IsLimit R posInf) : IsLimit R (timesPosInf m) := by
  rcases Int.lt_trichotomy m 0 with h | h | h
  · rw [timesPosInf_neg h]
    exact hneg h
  · rw [h]
    exact hzero h
  · rw [timesPosInf_pos h]
    exact hpos h

lemma isLimit_multiples (h : ∀ k, ∃ i, k ≤ i ∧ m * i ∈ R) : IsLimit R (timesPosInf m) := by
  apply isLimit_timesPosInf
  · intro hm k
    obtain ⟨i, hi, hR⟩ := h k.natAbs
    have hle : m * i ≤ -1 * i := Int.mul_le_mul_of_nonneg_right (by omega) (by omega)
    exact ⟨m * i, hR, by omega⟩
  · rintro rfl
    obtain ⟨i, _, hR⟩ := h 0
    rwa [Int.zero_mul] at hR
  · intro hm k
    obtain ⟨i, hi, hR⟩ := h k.natAbs
    have hle : 1 * i ≤ m * i := Int.mul_le_mul_of_nonneg_right (by omega) (by omega)
    exact ⟨m * i, hR, by omega⟩

lemma IsLimit.fin_mul (hm : m ∈ S) (hv : IsLimit T v) : IsLimit (Set.image2 (· * ·) S T) (fin m * v) := by
  cases v with
  | fin n => exact Set.mem_image2_of_mem hm hv
  | posInf =>
    apply isLimit_multiples
    intro k
    obtain ⟨n, hn, hk⟩ := hv k
    exact ⟨n, hk, Set.mem_image2_of_mem hm hn⟩
  | negInf =>
    rw [fin_mul_negInf]
    apply isLimit_multiples
    intro k
    obtain ⟨n, hn, hk⟩ := hv (-k)
    exact ⟨-n, by omega, m, hm, n, hn, (Int.neg_mul_neg m n).symm⟩
  | nan => exact hv.elim

lemma IsLimit.mul_fin (hu : IsLimit S u) (hn : n ∈ T) : IsLimit (Set.image2 (· * ·) S T) (u * fin n) := by
  have hswapped := IsLimit.fin_mul hn hu
  rwa [mul_comm, Set.image2_swap, funext₂ fun a b => Int.mul_comm b a] at hswapped

lemma IsLimit.mul (hu : IsLimit S u) (hv : IsLimit T v) : IsLimit (Set.image2 (· * ·) S T) (u * v) := by
  cases u with
  | fin m => exact hv.fin_mul hu
  | posInf =>
    -- Against an unbounded set, one member that is not zero is enough.
    obtain ⟨m, hm, hpos⟩ := hu 1
    cases v with
    | fin n => exact hu.mul_fin hv
    | posInf =>
      have h := hv.fin_mul hm
      rwa [fin_mul_posInf, timesPosInf_pos (by omega)] at h
    | negInf =>
      have h := hv.fin_mul hm
      rwa [fin_mul_negInf, timesPosInf_neg (by omega)] at h
    | nan => exact hv.elim
  | negInf =>
    obtain ⟨m, hm, hneg⟩ := hu (-1)
    cases v with
    | fin n => exact hu.mul_fin hv
    | posInf =>
      have h := hv.fin_mul hm
      rwa [fin_mul_posInf, timesPosInf_neg (by omega)] at h
    | negInf =>
      have h := hv.fin_mul hm
      rwa [fin_mul_negInf, timesPosInf_pos (by omega)] at h
    | nan => exact hv.elim
  | nan => exact hu.elim

lemma IsLimit.div_fin (hu : IsLimit S u) (hn : n ∈ T) (hz : n ≠ 0) :
    IsLimit (Set.image2 Int.tdiv S T) (u.div (fin n)) := by
  cases u with
  | fin m =>
    rw [fin_div_fin m hz]
    exact Set.mem_image2_of_mem hu hn
  | posInf =>
    rw [posInf_div_fin hz]
    refine isLimit_timesPosInf (fun hneg k => ?_) (absurd · hz) (fun hpos k => ?_)
    · obtain ⟨m, hm, hk⟩ := hu (k * n)
      have hle : -k ≤ m.tdiv (-n) := Int.le_tdiv_of_mul_le (by omega) (by rwa [Int.neg_mul_neg])
      rw [Int.tdiv_neg] at hle
      exact ⟨m.tdiv n, Set.mem_image2_of_mem hm hn, by omega⟩
    · obtain ⟨m, hm, hk⟩ := hu (k * n)
      exact ⟨m.tdiv n, Set.mem_image2_of_mem hm hn, Int.le_tdiv_of_mul_le hpos hk⟩
  | negInf =>
    rw [negInf_div_fin hz]
    refine isLimit_timesPosInf (fun hneg k => ?_) (fun h => absurd (by omega) hz) (fun hpos k => ?_)
    · obtain ⟨m, hm, hk⟩ := hu (k * n)
      have hle : -k ≤ (-m).tdiv n := Int.le_tdiv_of_mul_le (by omega) (by rw [Int.neg_mul]; omega)
      rw [Int.neg_tdiv] at hle
      exact ⟨m.tdiv n, Set.mem_image2_of_mem hm hn, by omega⟩
    · obtain ⟨m, hm, hk⟩ := hu (k * n)
      have hle : k ≤ (-m).tdiv (-n) := Int.le_tdiv_of_mul_le (by omega) (by rw [Int.mul_neg]; omega)
      rw [Int.tdiv_neg, Int.neg_tdiv, Int.neg_neg] at hle
      exact ⟨m.tdiv n, Set.mem_image2_of_mem hm hn, hle⟩
  | nan => exact hu.elim

lemma tdiv_eq_zero (h : m.natAbs < n.natAbs) : m.tdiv n = 0 := by
  rw [← Int.natAbs_eq_zero, Int.natAbs_tdiv]
  exact Nat.div_eq_of_lt h

lemma IsLimit.zero_div (hS : S.Nonempty) (hv : IsLimit T v) (hinf : v.isInfinite = true) :
    IsLimit (Set.image2 Int.tdiv S T) (fin 0) := by
  obtain ⟨m, hm⟩ := hS
  cases v with
  | posInf =>
    obtain ⟨n, hn, hk⟩ := hv (m.natAbs + 1)
    exact ⟨m, hm, n, hn, tdiv_eq_zero (by omega)⟩
  | negInf =>
    obtain ⟨n, hn, hk⟩ := hv (-(m.natAbs + 1))
    exact ⟨m, hm, n, hn, tdiv_eq_zero (by omega)⟩
  | fin n => simp [isInfinite] at hinf
  | nan => exact hv.elim

end ExtInt

namespace Interval

open ExtInt

variable {a b c : Interval} {S T : Set Int} {u v : ExtInt}

lemma isLimit_low (ha : a.isEmpty = false) : IsLimit {n | n ∈ a} a.low := by
  obtain ⟨hp, hn, hle⟩ := bounds_of_nonempty ha
  obtain ⟨k, hk⟩ := exists_mem ha
  cases hl : a.low with
  | fin l =>
    rw [hl] at hle
    exact ⟨by simp [hl], hle⟩
  | negInf =>
    intro i
    refine ⟨min i k, ⟨by simp [hl], le_trans ?_ hk.2⟩, Int.min_le_left i k⟩
    exact (fin_le_fin _ _).mpr (Int.min_le_right i k)
  | posInf => exact absurd hl hp
  | nan => exact absurd hl (low_ne_nan ha)

lemma isLimit_high (ha : a.isEmpty = false) : IsLimit {n | n ∈ a} a.high := by
  obtain ⟨hp, hn, hle⟩ := bounds_of_nonempty ha
  obtain ⟨k, hk⟩ := exists_mem ha
  cases hh : a.high with
  | fin h =>
    rw [hh] at hle
    exact ⟨hle, by simp [hh]⟩
  | posInf =>
    intro i
    refine ⟨max i k, ⟨le_trans hk.1 ?_, by simp [hh]⟩, Int.le_max_left i k⟩
    exact (fin_le_fin _ _).mpr (Int.le_max_right i k)
  | negInf => exact absurd hh hn
  | nan => exact absurd hh (high_ne_nan ha)

lemma between_of_isLimit (hS : ∀ n ∈ S, n ∈ c) (hv : IsLimit S v) : c.low ≤ v ∧ v ≤ c.high := by
  obtain ⟨k, hk⟩ := hv.nonempty
  obtain ⟨hlow, hhigh⟩ := hS k hk
  cases v with
  | fin n => exact hS n hv
  | posInf =>
    refine ⟨(le_posInf _).mpr (left_ne_nan hlow), ?_⟩
    cases hc : c.high with
    | posInf => exact le_refl (by simp)
    | fin h =>
      obtain ⟨n, hn, hlt⟩ := hv (h + 1)
      have hle := (hS n hn).2
      rw [hc, fin_le_fin] at hle
      omega
    | negInf => simp [hc] at hhigh
    | nan => simp [hc] at hhigh
  | negInf =>
    refine ⟨?_, (negInf_le _).mpr (right_ne_nan hhigh)⟩
    cases hc : c.low with
    | negInf => exact le_refl (by simp)
    | fin l =>
      obtain ⟨n, hn, hlt⟩ := hv (l - 1)
      have hle := (hS n hn).1
      rw [hc, fin_le_fin] at hle
      omega
    | posInf => simp [hc] at hlow
    | nan => simp [hc] at hlow
  | nan => exact hv.elim

lemma ofBounds_leq {low high : ExtInt} (hl : low ≠ .nan → c.low ≤ low) (hh : high ≠ .nan → high ≤ c.high) :
    (ofBounds low high).leq c = true := by
  cases h : (ofBounds low high).isEmpty with
  | true => exact leq_of_isEmpty c h
  | false =>
    have hlow := low_ne_nan h
    have hhigh := high_ne_nan h
    rw [leq_iff h]
    rw [(ofBounds_bounds h).1] at hlow ⊢
    rw [(ofBounds_bounds h).2] at hhigh ⊢
    exact ⟨hl hlow, hh hhigh⟩

lemma spanning_leq {cs : List ExtInt} (hS : ∀ n ∈ S, n ∈ c) (hcs : ∀ v ∈ cs, IsLimit S v) :
    (spanning cs).leq c = true := by
  have hbetween := fun v hv => between_of_isLimit hS (hcs v hv)
  cases cs with
  | nil => exact leq_of_isEmpty c rfl
  | cons d cs =>
    obtain ⟨hlow, hhigh⟩ := hbetween d (by simp)
    apply ofBounds_leq
    · intro _
      refine List.foldlRecOn (motive := (c.low ≤ ·)) cs ExtInt.min hlow fun v hv e he => le_min hv ?_
      exact (hbetween e (by simp [he])).1
    · intro _
      refine List.foldlRecOn (motive := (· ≤ c.high)) cs ExtInt.max hhigh fun v hv e he => max_le hv ?_
      exact (hbetween e (by simp [he])).2

lemma negate_leq (ha : a.isEmpty = false) (h : ∀ n ∈ a, -n ∈ c) : a.negate.leq c = true := by
  have hS : ∀ k ∈ Set.image Neg.neg {n | n ∈ a}, k ∈ c := Set.forall_mem_image.mpr h
  simp only [negate, ha, Bool.false_eq_true, if_false]
  exact ofBounds_leq (fun _ => (between_of_isLimit hS (isLimit_high ha).neg).1)
    fun _ => (between_of_isLimit hS (isLimit_low ha).neg).2

section Binary

variable (ha : a.isEmpty = false) (hb : b.isEmpty = false)
include ha hb

lemma plus_leq (h : ∀ m ∈ a, ∀ n ∈ b, m + n ∈ c) : (a.plus b).leq c = true := by
  have hS : ∀ k ∈ Set.image2 (· + ·) {m | m ∈ a} {n | n ∈ b}, k ∈ c := Set.forall_mem_image2.mpr h
  exact ofBounds_leq (fun hne => (between_of_isLimit hS ((isLimit_low ha).add (isLimit_low hb) hne)).1)
    fun hne => (between_of_isLimit hS ((isLimit_high ha).add (isLimit_high hb) hne)).2

lemma minus_leq (h : ∀ m ∈ a, ∀ n ∈ b, m - n ∈ c) : (a.minus b).leq c = true := by
  have hS : ∀ k ∈ Set.image2 (· + ·) {m | m ∈ a} (Set.image Neg.neg {n | n ∈ b}), k ∈ c := by
    rintro k ⟨m, hm, l, ⟨n, hn, rfl⟩, rfl⟩
    exact h m hm n hn
  exact ofBounds_leq (fun hne => (between_of_isLimit hS ((isLimit_low ha).add (isLimit_high hb).neg hne)).1)
    fun hne => (between_of_isLimit hS ((isLimit_high ha).add (isLimit_low hb).neg hne)).2

lemma times_leq (h : ∀ m ∈ a, ∀ n ∈ b, m * n ∈ c) : (a.times b).leq c = true := by
  have hS : ∀ k ∈ Set.image2 (· * ·) {m | m ∈ a} {n | n ∈ b}, k ∈ c := Set.forall_mem_image2.mpr h
  apply spanning_leq hS
  simp only [List.mem_cons, List.not_mem_nil, or_false]
  rintro v (rfl | rfl | rfl | rfl)
  · exact (isLimit_low ha).mul (isLimit_low hb)
  · exact (isLimit_low ha).mul (isLimit_high hb)
  · exact (isLimit_high ha).mul (isLimit_low hb)
  · exact (isLimit_high ha).mul (isLimit_high hb)

end Binary

lemma isLimit_quotientCorner (hu : IsLimit S u) (hv : IsLimit T v) (hz : 0 ∉ T) :
    ∀ w ∈ quotientCorner u v, IsLimit (Set.image2 Int.tdiv S T) w := by
  have hzero (hinf : v.isInfinite = true) := hv.zero_div hu.nonempty hinf
  have hfin (n : Int) (hn : n ∈ T) := hu.div_fin hn (by rintro rfl; exact hz hn)
  cases v with
  | fin n => simpa [quotientCorner, isInfinite] using hfin n hv
  | posInf =>
    obtain ⟨n, hn, hpos⟩ := hv 1
    have hlimit := hfin n hn
    cases u with
    | fin m => simpa [quotientCorner, isInfinite, div] using hzero rfl
    | posInf =>
      rw [posInf_div_fin (by omega), timesPosInf_pos (by omega)] at hlimit
      simpa [quotientCorner, isInfinite, isPositive] using ⟨hzero rfl, hlimit⟩
    | negInf =>
      rw [negInf_div_fin (by omega), timesPosInf_neg (by omega)] at hlimit
      simpa [quotientCorner, isInfinite, isPositive] using ⟨hzero rfl, hlimit⟩
    | nan => exact hu.elim
  | negInf =>
    obtain ⟨n, hn, hneg⟩ := hv (-1)
    have hlimit := hfin n hn
    cases u with
    | fin m => simpa [quotientCorner, isInfinite, div] using hzero rfl
    | posInf =>
      rw [posInf_div_fin (by omega), timesPosInf_neg (by omega)] at hlimit
      simpa [quotientCorner, isInfinite, isPositive] using ⟨hzero rfl, hlimit⟩
    | negInf =>
      rw [negInf_div_fin (by omega), timesPosInf_pos (by omega)] at hlimit
      simpa [quotientCorner, isInfinite, isPositive] using ⟨hzero rfl, hlimit⟩
    | nan => exact hu.elim
  | nan => exact hv.elim

lemma quotientNonzero_leq (ha : a.isEmpty = false) (hb : b.isEmpty = false) (hz : (0 : Int) ∉ b)
    (h : ∀ m ∈ a, ∀ n ∈ b, m.tdiv n ∈ c) : (a.quotientNonzero b).leq c = true := by
  have hS : ∀ k ∈ Set.image2 Int.tdiv {m | m ∈ a} {n | n ∈ b}, k ∈ c := Set.forall_mem_image2.mpr h
  apply spanning_leq hS
  simp only [List.mem_append]
  rintro v (((hv | hv) | hv) | hv)
  · exact isLimit_quotientCorner (isLimit_low ha) (isLimit_low hb) hz v hv
  · exact isLimit_quotientCorner (isLimit_low ha) (isLimit_high hb) hz v hv
  · exact isLimit_quotientCorner (isLimit_high ha) (isLimit_low hb) hz v hv
  · exact isLimit_quotientCorner (isLimit_high ha) (isLimit_high hb) hz v hv

lemma mem_negativePart {n : Int} : n ∈ b.negativePart ↔ b.low ≤ .fin n ∧ n ≤ -1 := mem_ofBounds

lemma mem_positivePart {n : Int} : n ∈ b.positivePart ↔ 1 ≤ n ∧ .fin n ≤ b.high := mem_ofBounds

lemma quotient_leq (ha : a.isEmpty = false) (hb : b.isEmpty = false)
    (h : ∀ m ∈ a, ∀ n ∈ b, n ≠ 0 → m.tdiv n ∈ c) : (a.quotient b).leq c = true := by
  rw [quotient]
  split
  case isTrue hzero =>
    have hbetween : b.low ≤ .fin 0 ∧ .fin 0 ≤ b.high := by
      simpa [contains, hb] using hzero
    apply hull_leq
    · split
      case isTrue hlow =>
        have hone : -1 ∈ b.negativePart := mem_negativePart.mpr ⟨le_pred_of_lt hlow, Int.le_refl _⟩
        apply quotientNonzero_leq ha (nonempty_of_mem hone)
        · simp [mem_negativePart]
        · intro m hm n hn
          obtain ⟨hle, hneg⟩ := mem_negativePart.mp hn
          have hhigh : fin n ≤ b.high := le_trans ((fin_le_fin n 0).mpr (by omega)) hbetween.2
          exact h m hm n ⟨hle, hhigh⟩ (by omega)
      case isFalse => exact leq_of_isEmpty c rfl
    · split
      case isTrue hhigh =>
        have hone : 1 ∈ b.positivePart := mem_positivePart.mpr ⟨Int.le_refl _, succ_le_of_lt hhigh⟩
        apply quotientNonzero_leq ha (nonempty_of_mem hone)
        · simp [mem_positivePart]
        · intro m hm n hn
          obtain ⟨hpos, hle⟩ := mem_positivePart.mp hn
          have hlow : b.low ≤ fin n := le_trans hbetween.1 ((fin_le_fin 0 n).mpr (by omega))
          exact h m hm n ⟨hlow, hle⟩ (by omega)
      case isFalse => exact leq_of_isEmpty c rfl
  case isFalse hzero =>
    have hz : (0 : Int) ∉ b := by simpa [contains, hb, mem_def] using hzero
    apply quotientNonzero_leq ha hb hz
    intro m hm n hn
    exact h m hm n hn (by rintro rfl; exact hz hn)

end Interval

end ValueAnalysis
