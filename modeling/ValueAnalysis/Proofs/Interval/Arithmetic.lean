import ValueAnalysis.Proofs.Interval.Membership

/-! Interval arithmetic holds every concrete result. A product or quotient of members is between two of
the corners: move one operand to a bound, then the other. -/

namespace ValueAnalysis.Interval

open ExtInt

lemma mem_negate {a : Interval} {n : Int} (h : n ∈ a) : -n ∈ a.negate := by
  simp only [negate, nonempty_of_mem h, Bool.false_eq_true, if_false, mem_ofBounds]
  exact ⟨neg_le_neg h.2, neg_le_neg h.1⟩

lemma mem_plus {a b : Interval} {m n : Int} (hm : m ∈ a) (hn : n ∈ b) : m + n ∈ a.plus b :=
  mem_ofBounds.mpr ⟨add_le_fin hm.1 hn.1, fin_le_add hm.2 hn.2⟩

lemma mem_minus {a b : Interval} {m n : Int} (hm : m ∈ a) (hn : n ∈ b) : m - n ∈ a.minus b :=
  mem_ofBounds.mpr ⟨sub_le_fin hm.1 hn.2, fin_le_sub hm.2 hn.1⟩

lemma foldl_bound {op : ExtInt → ExtInt → ExtInt} {R : ExtInt → ExtInt → Prop}
    (hrefl : ∀ d, d ≠ .nan → R d d) (htrans : ∀ {b c d}, R b c → R c d → R b d)
    (hop : ∀ {d e}, d ≠ .nan → e ≠ .nan → op d e ≠ .nan ∧ R (op d e) d ∧ R (op d e) e)
    (cs : List ExtInt) (d : ExtInt) (hcs : ∀ c ∈ d :: cs, c ≠ .nan) :
    ∀ c ∈ d :: cs, R (cs.foldl op d) c := by
  induction cs generalizing d with
  | nil =>
    intro c hc
    obtain rfl := List.mem_singleton.mp hc
    exact hrefl c (hcs c hc)
  | cons e cs ih =>
    obtain ⟨hne, hd, he⟩ := hop (hcs d (by simp)) (hcs e (by simp))
    have hrest : ∀ c ∈ op d e :: cs, R (cs.foldl op (op d e)) c := by
      apply ih
      intro c hc
      rcases List.mem_cons.mp hc with rfl | hc
      · exact hne
      · exact hcs c (by simp [hc])
    have hhead := hrest (op d e) List.mem_cons_self
    intro c hc
    rw [List.foldl_cons]
    rcases List.mem_cons.mp hc with rfl | hc
    · exact htrans hhead hd
    · rcases List.mem_cons.mp hc with rfl | hc
      · exact htrans hhead he
      · exact hrest c (List.mem_cons_of_mem _ hc)

lemma foldl_min_le {cs : List ExtInt} {d : ExtInt} (hcs : ∀ c ∈ d :: cs, c ≠ .nan) :
    ∀ c ∈ d :: cs, cs.foldl .min d ≤ c := by
  apply foldl_bound (fun _ => le_refl) le_trans _ cs d hcs
  intro d e hd he
  exact ⟨left_ne_nan (min_le_left hd he), min_le_left hd he, min_le_right hd he⟩

lemma le_foldl_max {cs : List ExtInt} {d : ExtInt} (hcs : ∀ c ∈ d :: cs, c ≠ .nan) :
    ∀ c ∈ d :: cs, c ≤ cs.foldl .max d := by
  apply foldl_bound (R := fun b c => c ≤ b) (fun _ => le_refl) (fun h h' => le_trans h' h) _ cs d hcs
  intro d e hd he
  exact ⟨right_ne_nan (le_max_left hd he), le_max_left hd he, le_max_right hd he⟩

def Between (cs : List ExtInt) (v : ExtInt) : Prop := (∃ c ∈ cs, c ≤ v) ∧ ∃ c ∈ cs, v ≤ c

lemma mem_spanning {cs : List ExtInt} {n : Int} (hcs : ∀ c ∈ cs, c ≠ .nan) (h : Between cs (.fin n)) :
    n ∈ spanning cs := by
  obtain ⟨⟨c, hc, hcn⟩, d, hd, hnd⟩ := h
  cases cs with
  | nil => simp at hc
  | cons e cs =>
    exact mem_ofBounds.mpr ⟨le_trans (foldl_min_le hcs c hc) hcn, le_trans hnd (le_foldl_max hcs d hd)⟩

lemma Between.trans {cs ds : List ExtInt} {v : ExtInt} (h : Between cs v)
    (hcs : ∀ c ∈ cs, Between ds c) : Between ds v := by
  obtain ⟨⟨c, hc, hcv⟩, d, hd, hvd⟩ := h
  obtain ⟨⟨b, hb, hbc⟩, _⟩ := hcs c hc
  obtain ⟨_, e, he, hde⟩ := hcs d hd
  exact ⟨⟨b, hb, le_trans hbc hcv⟩, e, he, le_trans hvd hde⟩

lemma Between.mono {cs ds : List ExtInt} {v : ExtInt} (h : Between cs v) (hsub : cs ⊆ ds) : Between ds v := by
  obtain ⟨⟨c, hc, hcv⟩, d, hd, hvd⟩ := h
  exact ⟨⟨c, hsub hc, hcv⟩, d, hsub hd, hvd⟩

lemma between_of_le {a b v : ExtInt} (ha : a ≤ v) (hb : v ≤ b) : Between [a, b] v :=
  ⟨⟨a, by simp, ha⟩, b, by simp, hb⟩

lemma between_of_ge {a b v : ExtInt} (ha : v ≤ a) (hb : b ≤ v) : Between [a, b] v :=
  ⟨⟨b, by simp, hb⟩, a, by simp, ha⟩

lemma between_mul_right {a b x c : ExtInt} (ha : a ≤ x) (hb : x ≤ b) (hc : c ≠ .nan) :
    Between [a * c, b * c] (x * c) := by
  rcases ExtInt.le_total (by simp : ExtInt.fin 0 ≠ .nan) hc with hc | hc
  · exact between_of_le (mul_le_mul_of_nonneg ha hc) (mul_le_mul_of_nonneg hb hc)
  · exact between_of_ge (mul_le_mul_of_nonpos ha hc) (mul_le_mul_of_nonpos hb hc)

lemma between_mul_left {a b x c : ExtInt} (ha : a ≤ x) (hb : x ≤ b) (hc : c ≠ .nan) :
    Between [c * a, c * b] (c * x) := by
  have h := between_mul_right ha hb hc
  rwa [ExtInt.mul_comm a, ExtInt.mul_comm b, ExtInt.mul_comm x] at h

lemma mem_times {a b : Interval} {m n : Int} (hm : m ∈ a) (hn : n ∈ b) : m * n ∈ a.times b := by
  have hal := low_ne_nan (nonempty_of_mem hm)
  have hah := high_ne_nan (nonempty_of_mem hm)
  have hbl := low_ne_nan (nonempty_of_mem hn)
  have hbh := high_ne_nan (nonempty_of_mem hn)
  apply mem_spanning
  · simp only [List.mem_cons, List.not_mem_nil, or_false]
    rintro c (rfl | rfl | rfl | rfl)
    · exact mul_ne_nan hal hbl
    · exact mul_ne_nan hal hbh
    · exact mul_ne_nan hah hbl
    · exact mul_ne_nan hah hbh
  · rw [← fin_mul_fin]
    apply (between_mul_right hm.1 hm.2 (by simp)).trans
    simp only [List.mem_cons, List.not_mem_nil, or_false]
    rintro c (rfl | rfl)
    · exact (between_mul_left hn.1 hn.2 hal).mono (by simp)
    · exact (between_mul_left hn.1 hn.2 hah).mono (by simp)

lemma between_of_mem {cs : List ExtInt} {v : ExtInt} (h : v ∈ cs) (hv : v ≠ .nan) : Between cs v :=
  ⟨⟨v, h, le_refl hv⟩, v, h, le_refl hv⟩

lemma between_div {a b : ExtInt} {m n : Int} (ha : a ≤ .fin m) (hb : .fin m ≤ b) (hn : n ≠ 0) :
    Between [a.div (.fin n), b.div (.fin n)] (.fin (m.tdiv n)) := by
  rw [← fin_div_fin m hn]
  rcases Int.lt_or_gt_of_ne hn with hlt | hgt
  · have hpos : 0 < -n := by omega
    have hla := div_le_div_fin (neg_le_neg ha) hpos
    have hlb := div_le_div_fin (neg_le_neg hb) hpos
    rw [← neg_fin n, neg_div_neg, neg_div_neg] at hla hlb
    exact between_of_ge hla hlb
  · exact between_of_le (div_le_div_fin ha hgt) (div_le_div_fin hb hgt)

lemma tdiv_le_tdiv_of_divisor {x l y : Int} (hx : 0 ≤ x) (hl : 0 < l) (hy : l ≤ y) :
    x.tdiv y ≤ x.tdiv l := by
  apply Int.le_tdiv_of_mul_le hl
  have hq : 0 ≤ x.tdiv y := Int.tdiv_nonneg hx (by omega)
  calc x.tdiv y * l ≤ x.tdiv y * y := Int.mul_le_mul_of_nonneg_left hy hq
    _ ≤ x := by
      rw [Int.tdiv_eq_ediv_of_nonneg hx]
      exact Int.ediv_mul_le x (by omega)

lemma fin_div_le_of_nonneg {x l : Int} {h : ExtInt} (hx : 0 ≤ x) (hl : 0 < l) (hh : .fin l ≤ h) :
    (ExtInt.fin x).div h ≤ .fin (x.tdiv l) := by
  cases h with
  | fin k =>
    have hk : l ≤ k := hh
    rw [fin_div_fin x (by omega), fin_le_fin]
    exact tdiv_le_tdiv_of_divisor hx hl hk
  | posInf => exact Int.tdiv_nonneg hx (by omega)
  | negInf => simp at hh
  | nan => simp at hh

lemma le_fin_div_of_nonpos {x l : Int} {h : ExtInt} (hx : x ≤ 0) (hl : 0 < l) (hh : .fin l ≤ h) :
    .fin (x.tdiv l) ≤ (ExtInt.fin x).div h := by
  have hneg := neg_le_neg (fin_div_le_of_nonneg (by omega : 0 ≤ -x) hl hh)
  rwa [neg_fin_div, ExtInt.neg_neg, neg_fin, Int.neg_tdiv, Int.neg_neg] at hneg

lemma quotientCorner_fin (x : Int) (b : ExtInt) : quotientCorner (.fin x) b = [(ExtInt.fin x).div b] := by
  simp [quotientCorner, isInfinite]

lemma quotientCorner_neg_neg (a b : ExtInt) : quotientCorner (-a) (-b) = quotientCorner a b := by
  cases a <;> cases b <;> simp [quotientCorner, isInfinite, isPositive, ExtInt.div]

lemma quotientCorner_ne_nan {a b : ExtInt} (ha : a ≠ .nan) (hb : b ≠ .nan) (hz : b ≠ .fin 0) :
    ∀ c ∈ quotientCorner a b, c ≠ .nan := by
  cases a <;> cases b <;> simp_all [quotientCorner, isInfinite, isPositive, ExtInt.div, timesPosInf_ne_nan]

lemma between_quotientCorner_pos {a l h : ExtInt} {y : Int} (ha : a ≠ .nan) (hpos : .fin 1 ≤ l)
    (hl : l ≤ .fin y) (hh : .fin y ≤ h) :
    Between (quotientCorner a l ++ quotientCorner a h) (a.div (.fin y)) := by
  cases l with
  | fin k =>
    have hk : 1 ≤ k := hpos
    have hky : k ≤ y := hl
    cases a with
    | fin x =>
      rw [quotientCorner_fin, quotientCorner_fin, fin_div_fin x (by omega : y ≠ 0),
        fin_div_fin x (by omega : k ≠ 0)]
      rcases Int.le_total 0 x with hx | hx
      · exact between_of_ge (tdiv_le_tdiv_of_divisor hx (by omega) hky)
          (fin_div_le_of_nonneg hx (by omega) hh)
      · have hle := le_fin_div_of_nonpos hx (by omega) hl
        rw [fin_div_fin x (by omega)] at hle
        exact between_of_le hle (le_fin_div_of_nonpos hx (by omega) hh)
    | posInf =>
      apply between_of_mem
      · simp [quotientCorner, isInfinite, ExtInt.div, timesPosInf_pos, show k ≠ 0 by omega,
          show y ≠ 0 by omega, show 0 < k by omega, show 0 < y by omega]
      · simp [ExtInt.div, timesPosInf_ne_nan, show y ≠ 0 by omega]
    | negInf =>
      apply between_of_mem
      · simp [quotientCorner, isInfinite, ExtInt.div, timesPosInf_neg, show k ≠ 0 by omega,
          show y ≠ 0 by omega, show 0 < k by omega, show 0 < y by omega]
      · simp [ExtInt.div, timesPosInf_ne_nan, show y ≠ 0 by omega]
    | nan => exact absurd rfl ha
  | posInf => simp at hl
  | negInf => simp at hpos
  | nan => simp at hpos

lemma between_quotientCorner_neg {a l h : ExtInt} {y : Int} (ha : a ≠ .nan) (hneg : h ≤ .fin (-1))
    (hl : l ≤ .fin y) (hh : .fin y ≤ h) :
    Between (quotientCorner a l ++ quotientCorner a h) (a.div (.fin y)) := by
  have hna : -a ≠ .nan := by
    cases a <;> simp_all
  have hpos := between_quotientCorner_pos hna (neg_le_neg hneg) (neg_le_neg hh) (neg_le_neg hl)
  rw [quotientCorner_neg_neg, quotientCorner_neg_neg, ← neg_fin y, neg_div_neg] at hpos
  exact hpos.mono (by simp)

lemma mem_quotientNonzero {a b : Interval} {m n : Int} (hm : m ∈ a) (hn : n ∈ b) (hz : (0 : Int) ∉ b) :
    m.tdiv n ∈ a.quotientNonzero b := by
  have hal := low_ne_nan (nonempty_of_mem hm)
  have hah := high_ne_nan (nonempty_of_mem hm)
  have hbl := low_ne_nan (nonempty_of_mem hn)
  have hbh := high_ne_nan (nonempty_of_mem hn)
  have hne : n ≠ 0 := by
    rintro rfl
    exact hz hn
  have hbounds : b.low ≠ .fin 0 ∧ b.high ≠ .fin 0 := by
    constructor
    · intro h
      exact hz ⟨h ▸ le_refl hbl, le_trans (h ▸ le_refl hbl) (le_trans hn.1 hn.2)⟩
    · intro h
      exact hz ⟨le_trans (le_trans hn.1 hn.2) (h ▸ le_refl hbh), h ▸ le_refl hbh⟩
  have hcorner : ∀ c, c ≠ .nan →
      Between (quotientCorner c b.low ++ quotientCorner c b.high) (c.div (.fin n)) := by
    intro c hc
    by_cases hpos : ExtInt.fin 1 ≤ b.low
    · exact between_quotientCorner_pos hc hpos hn.1 hn.2
    · apply between_quotientCorner_neg hc _ hn.1 hn.2
      have hlow : b.low ≤ .fin 0 := by
        cases hb : b.low <;> simp_all
        omega
      cases hb : b.high <;> simp_all [mem_def]
      omega
  apply mem_spanning
  · simp only [List.mem_append]
    rintro c (((hc | hc) | hc) | hc)
    · exact quotientCorner_ne_nan hal hbl hbounds.1 c hc
    · exact quotientCorner_ne_nan hal hbh hbounds.2 c hc
    · exact quotientCorner_ne_nan hah hbl hbounds.1 c hc
    · exact quotientCorner_ne_nan hah hbh hbounds.2 c hc
  · apply (between_div hm.1 hm.2 hne).trans
    simp only [List.mem_cons, List.not_mem_nil, or_false]
    rintro c (rfl | rfl)
    · exact (hcorner a.low hal).mono (by simp)
    · exact (hcorner a.high hah).mono (by simp)

lemma mem_quotient {a b : Interval} {m n : Int} (hm : m ∈ a) (hn : n ∈ b) (hne : n ≠ 0) :
    m.tdiv n ∈ a.quotient b := by
  by_cases hz : (0 : Int) ∈ b
  · have hcontains : b.contains (.fin 0) = true := by
      simp [contains, nonempty_of_mem hn, hz.1, hz.2]
    rw [quotient, if_pos hcontains]
    rcases Int.lt_or_gt_of_ne hne with hlt | hgt
    · apply mem_hull_left
      have hlow : b.low < .fin 0 := lt_of_le_of_lt hn.1 hlt
      rw [if_pos hlow]
      have hpart : n ∈ b.negativePart := mem_ofBounds.mpr ⟨hn.1, by rw [fin_le_fin]; omega⟩
      exact mem_quotientNonzero hm hpart fun h => absurd (mem_ofBounds.mp h).2 (by simp)
    · apply mem_hull_right
      have hhigh : ExtInt.fin 0 < b.high := lt_of_lt_of_le hgt hn.2
      rw [if_pos hhigh]
      have hpart : n ∈ b.positivePart := mem_ofBounds.mpr ⟨by rw [fin_le_fin]; omega, hn.2⟩
      exact mem_quotientNonzero hm hpart fun h => absurd (mem_ofBounds.mp h).1 (by simp)
  · have hcontains : ¬ b.contains (.fin 0) = true := by
      intro h
      simp only [contains, Bool.and_eq_true, decide_eq_true_eq] at h
      exact hz ⟨h.1.2, h.2⟩
    rw [quotient, if_neg hcontains]
    exact mem_quotientNonzero hm hn hz

end ValueAnalysis.Interval
