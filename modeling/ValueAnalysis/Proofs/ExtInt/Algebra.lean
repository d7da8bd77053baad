import ValueAnalysis.Proofs.ExtInt

/-! The algebra of extended integers. Sums and products do not depend on the order in which they are taken, and
both keep the order of numbers. Division truncates: it is the one quotient whose remainder stays below the divisor
and on the side of the dividend. -/

namespace ValueAnalysis

/-- `q` is the quotient of `a` by `b` with a remainder that is zero or has the sign of `a`. -/
def IsTruncatedQuotient (a b q : Int) : Prop :=
  ∃ r, a = b * q + r ∧ r.natAbs < b.natAbs ∧ (r = 0 ∨ r.sign = a.sign)

section Quotient

variable {a b p q r : Int}

lemma isTruncatedQuotient_tdiv (a : Int) (hb : b ≠ 0) : IsTruncatedQuotient a b (a.tdiv b) := by
  refine ⟨a.tmod b, (Int.mul_tdiv_add_tmod a b).symm, ?_, ?_⟩
  · rw [Int.natAbs_tmod]
    exact Nat.mod_lt _ (Int.natAbs_pos.mpr hb)
  · by_cases hdvd : b ∣ a
    · exact .inl (Int.tmod_eq_zero_of_dvd hdvd)
    · exact .inr (by rw [Int.sign_tmod, if_neg hdvd])

lemma remainder_nonneg (h : r = 0 ∨ r.sign = a.sign) (ha : 0 ≤ a) : 0 ≤ r := by
  rcases h with rfl | hsign
  · exact Int.le_refl 0
  · rwa [← Int.sign_nonneg_iff, hsign, Int.sign_nonneg_iff]

lemma remainder_nonpos (h : r = 0 ∨ r.sign = a.sign) (ha : a ≤ 0) : r ≤ 0 := by
  rcases h with rfl | hsign
  · exact Int.le_refl 0
  · rwa [← Int.sign_nonpos_iff, hsign, Int.sign_nonpos_iff]

lemma IsTruncatedQuotient.unique (hp : IsTruncatedQuotient a b p) (hq : IsTruncatedQuotient a b q) : p = q := by
  obtain ⟨r, hr, hrb, hrs⟩ := hp
  obtain ⟨s, hs, hsb, hss⟩ := hq
  have hdiff : b * (p - q) = s - r := by
    rw [Int.mul_sub]
    omega
  -- Both remainders lie on the side of the dividend, so they differ by less than the divisor.
  have hlt : (s - r).natAbs < b.natAbs := by
    rcases Int.le_total 0 a with ha | ha
    · have hr0 := remainder_nonneg hrs ha
      have hs0 := remainder_nonneg hss ha
      omega
    · have hr0 := remainder_nonpos hrs ha
      have hs0 := remainder_nonpos hss ha
      omega
  have hzero : b * (p - q) = 0 := by
    rw [hdiff]
    exact Int.eq_zero_of_dvd_of_natAbs_lt_natAbs ⟨p - q, hdiff.symm⟩ hlt
  have hb : b ≠ 0 := by
    rintro rfl
    exact Nat.not_lt_zero _ hrb
  have hsub := (Int.mul_eq_zero.mp hzero).resolve_left hb
  omega

lemma isTruncatedQuotient_iff (a : Int) (hb : b ≠ 0) : IsTruncatedQuotient a b q ↔ q = a.tdiv b := by
  constructor
  · exact fun hq => hq.unique (isTruncatedQuotient_tdiv a hb)
  · rintro rfl
    exact isTruncatedQuotient_tdiv a hb

end Quotient

namespace ExtInt

lemma nan_absorbs {op : ExtInt → ExtInt → ExtInt} (hop : op ∈ [(· + ·), (· * ·), div, min, max]) (a : ExtInt) :
    op nan a = nan ∧ op a nan = nan := by
  simp only [List.mem_cons, List.not_mem_nil, or_false] at hop
  rcases hop with rfl | rfl | rfl | rfl | rfl <;> cases a <;> exact ⟨rfl, rfl⟩

lemma add_comm (a b : ExtInt) : a + b = b + a := by
  rw [add_eq, add_eq]
  cases a <;> cases b <;> simp [ExtInt.add, Int.add_comm]

lemma add_assoc (a b c : ExtInt) : a + b + c = a + (b + c) := by
  simp only [add_eq]
  cases a <;> cases b <;> cases c <;> simp [ExtInt.add, Int.add_assoc]

lemma add_le_add_right {a b c : ExtInt} (h : a ≤ b) (ha : a + c ≠ nan) (hb : b + c ≠ nan) : a + c ≤ b + c := by
  rw [add_eq] at ha hb ⊢
  rw [add_eq]
  cases a <;> cases b <;> cases c <;> simp_all [ExtInt.add]

lemma fin_mul_timesPosInf (m n : Int) : fin m * timesPosInf n = timesPosInf (m * n) := by
  rcases Int.lt_trichotomy n 0 with hn | rfl | hn
  · rw [timesPosInf_neg hn, fin_mul_negInf]
    rcases Int.lt_trichotomy m 0 with hm | rfl | hm
    · rw [timesPosInf_pos (by omega), timesPosInf_pos (Int.mul_pos_of_neg_of_neg hm hn)]
    · simp
    · rw [timesPosInf_neg (by omega), timesPosInf_neg (Int.mul_neg_of_pos_of_neg hm hn)]
  · simp
  · rw [timesPosInf_pos hn, fin_mul_posInf]
    rcases Int.lt_trichotomy m 0 with hm | rfl | hm
    · rw [timesPosInf_neg hm, timesPosInf_neg (Int.mul_neg_of_neg_of_pos hm hn)]
    · simp
    · rw [timesPosInf_pos hm, timesPosInf_pos (Int.mul_pos hm hn)]

lemma posInf_mul_timesPosInf (n : Int) : posInf * timesPosInf n = timesPosInf n := by
  rcases Int.lt_trichotomy n 0 with hn | rfl | hn
  · rw [timesPosInf_neg hn]
    rfl
  · simp
  · rw [timesPosInf_pos hn]
    rfl

lemma timesPosInf_mul_fin (m n : Int) : timesPosInf m * fin n = timesPosInf (m * n) := by
  rw [mul_comm, fin_mul_timesPosInf, Int.mul_comm]

lemma timesPosInf_mul_posInf (m : Int) : timesPosInf m * posInf = timesPosInf m := by
  rw [mul_comm, posInf_mul_timesPosInf]

lemma neg_mul (a b : ExtInt) : -a * b = -(a * b) := by
  rw [mul_comm, mul_neg, mul_comm]

lemma mul_assoc (a b c : ExtInt) : a * b * c = a * (b * c) := by
  -- The negative infinity is written as the negative of the other one, and the signs are taken out on both sides.
  cases a <;> cases b <;> cases c <;>
    simp only [← neg_posInf, neg_mul, mul_neg, nan_mul, mul_nan, fin_mul_fin, fin_mul_posInf, posInf_mul_fin,
      posInf_mul_posInf, fin_mul_timesPosInf, timesPosInf_mul_fin, posInf_mul_timesPosInf, timesPosInf_mul_posInf,
      Int.mul_assoc]

lemma le_min_iff {a b c : ExtInt} (ha : a ≠ nan) (hb : b ≠ nan) : c ≤ a.min b ↔ c ≤ a ∧ c ≤ b :=
  ⟨fun h => ⟨le_trans h (min_le_left ha hb), le_trans h (min_le_right ha hb)⟩, fun h => le_min h.1 h.2⟩

lemma max_le_iff {a b c : ExtInt} (ha : a ≠ nan) (hb : b ≠ nan) : a.max b ≤ c ↔ a ≤ c ∧ b ≤ c :=
  ⟨fun h => ⟨le_trans (le_max_left ha hb) h, le_trans (le_max_right ha hb) h⟩, fun h => max_le h.1 h.2⟩

lemma neg_le_neg_iff (a b : ExtInt) : -b ≤ -a ↔ a ≤ b := by
  constructor
  · intro h
    have hneg := neg_le_neg h
    rwa [neg_neg, neg_neg] at hneg
  · exact neg_le_neg

theorem extended_integer_algebra :
    (∀ a b c : ExtInt, a + b = b + a ∧ a * b = b * a ∧ a + b + c = a + (b + c) ∧ a * b * c = a * (b * c)) ∧
    (∀ op ∈ [(· + ·), (· * ·), div, min, max], ∀ a, op nan a = nan ∧ op a nan = nan) ∧
    (∀ a b c : ExtInt, a ≠ nan → b ≠ nan → c ≠ nan →
      a ≤ a ∧ (a ≤ b → b ≤ a → a = b) ∧ (a ≤ b → b ≤ c → a ≤ c) ∧ (a ≤ b ∨ b ≤ a) ∧
      (c ≤ a.min b ↔ c ≤ a ∧ c ≤ b) ∧ (a.max b ≤ c ↔ a ≤ c ∧ b ≤ c) ∧ (-b ≤ -a ↔ a ≤ b)) ∧
    (∀ a b c : ExtInt, a ≤ b → a + c ≠ nan → b + c ≠ nan → a + c ≤ b + c) ∧
    (∀ a b c : ExtInt, a ≤ b → fin 0 ≤ c → a * c ≤ b * c) ∧
    ∀ a b : Int, b ≠ 0 → ∃ q, (fin a).div (fin b) = fin q ∧ ∀ p, IsTruncatedQuotient a b p ↔ p = q := by
  refine ⟨fun a b c => ⟨add_comm a b, mul_comm a b, add_assoc a b c, mul_assoc a b c⟩,
    fun op hop a => nan_absorbs hop a, ?_, fun a b c h ha hb => add_le_add_right h ha hb,
    fun a b c h hc => mul_le_mul_of_nonneg h hc, ?_⟩
  · intro a b c ha hb _
    exact ⟨le_refl ha, le_antisymm, le_trans, le_total ha hb, le_min_iff ha hb, max_le_iff ha hb,
      neg_le_neg_iff a b⟩
  · intro a b hb
    exact ⟨a.tdiv b, fin_div_fin a hb, fun p => isTruncatedQuotient_iff a hb⟩

/-- The product with zero stays zero beside an infinite one, and `-7` leaves `-1` when it is divided by `2`. -/
theorem extended_integer_algebra_saturated :
    (fin (-7) ≤ fin 0 ∧ fin 0 ≤ posInf ∧ fin 0 + posInf ≠ nan ∧ fin (-7) + posInf ≠ nan ∧ negInf ≠ nan) ∧
      fin (-7) + posInf ≤ fin 0 + posInf ∧ fin (-7) * posInf ≤ fin 0 ∧ negInf ≤ (fin (-7)).min posInf ∧
      nan * posInf = nan ∧ (fin (-7)).div (fin 2) = fin (-3) ∧ ∀ p, IsTruncatedQuotient (-7) 2 p ↔ p = -3 := by
  obtain ⟨_, habsorb, horder, hadd, hmul, hdiv⟩ := extended_integer_algebra
  have hquotient : (fin (-7)).div (fin 2) = fin (-3) := by decide
  obtain ⟨q, hq, hunique⟩ := hdiv (-7) 2 (by decide)
  obtain rfl : -3 = q := fin.inj (hquotient.symm.trans hq)
  obtain ⟨_, _, _, _, hmin, _⟩ := horder (fin (-7)) posInf negInf (by decide) (by decide) (by decide)
  exact ⟨by decide, hadd _ _ _ (by decide) (by decide) (by decide),
    hmul (fin (-7)) (fin 0) posInf (by decide) (by decide), hmin.mpr (by decide),
    (habsorb (· * ·) (by simp) posInf).1, hquotient, hunique⟩

end ExtInt

end ValueAnalysis
