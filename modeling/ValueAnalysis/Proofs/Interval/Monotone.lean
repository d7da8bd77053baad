import ValueAnalysis.Proofs.Interval.Exactness

/-! Interval operations are monotone. The arithmetic is, because each result is the least interval that holds the
results on members, and a shortcut that the smaller operands take is justified by members too, or is taken by
the larger operands as well. Answers and refinements are, because they are exact. -/

namespace ValueAnalysis.Interval

variable {a b c d : Interval} {op : BinaryOp}

lemma leq_all (a : Interval) : a.leq all = true := leq_iff_forall_mem.mpr fun n _ => mem_all n

lemma isAll_of_leq (hac : a.leq c = true) (ha : a.isAll = true) : c.isAll = true := by
  rw [isAll_iff] at ha ⊢
  subst ha
  exact leq_antisymm (leq_all c) hac

lemma isZero_iff : a.isZero = true ↔ a = zero := by
  have hzero : zero.low = .fin 0 ∧ zero.high = .fin 0 :=
    ofBounds_bounds (nonempty_of_mem (mem_singleton.mpr (rfl : (0 : Int) = 0)))
  simp only [isZero, Bool.and_eq_true, beq_iff_eq]
  constructor
  · intro h
    exact ext (h.1.trans hzero.1.symm) (h.2.trans hzero.2.symm)
  · rintro rfl
    exact hzero

lemma mem_zero {n : Int} : n ∈ zero ↔ n = 0 := mem_singleton

lemma zero_leq_iff : zero.leq c = true ↔ (0 : Int) ∈ c := by
  simp [leq_iff_forall_mem, mem_zero]

lemma exists_ne_zero (ha : a.isEmpty = false) (hzero : a.isZero = false) : ∃ n ∈ a, n ≠ 0 := by
  by_contra hnone
  push Not at hnone
  obtain ⟨m, hm⟩ := exists_mem ha
  have heq : a = zero := by
    apply leq_antisymm
    · exact leq_iff_forall_mem.mpr fun n hn => mem_zero.mpr (hnone n hn)
    · exact zero_leq_iff.mpr (hnone m hm ▸ hm)
  rw [isZero_iff.mpr heq] at hzero
  cases hzero

lemma isZero_of_leq (ha : a.isEmpty = false) (hac : a.leq c = true) (hc : c.isZero = true) :
    a.isZero = true := by
  cases hzero : a.isZero with
  | true => rfl
  | false =>
    obtain ⟨n, hn, hne⟩ := exists_ne_zero ha hzero
    exact absurd (mem_isZero hc (mem_of_leq hn hac)) hne

section Operands

variable (ha : a.isEmpty = false) (hb : b.isEmpty = false)
include ha hb

/-- An operation that can be solved for either operand takes every value as soon as one operand does. -/
lemma all_leq_of_solvable {g : Int → Int → Int} (hall : (a.isAll || b.isAll) = true)
    (hleft : ∀ n k, ∃ m, g m n = k) (hright : ∀ m k, ∃ n, g m n = k) (h : ∀ m ∈ a, ∀ n ∈ b, g m n ∈ c) :
    all.leq c = true := by
  rw [leq_iff_forall_mem]
  intro k _
  rcases Bool.or_eq_true_iff.mp hall with haa | hbb
  · obtain rfl := (isAll_iff a).mp haa
    obtain ⟨n, hn⟩ := exists_mem hb
    obtain ⟨m, rfl⟩ := hleft n k
    exact h m (mem_all m) n hn
  · obtain rfl := (isAll_iff b).mp hbb
    obtain ⟨m, hm⟩ := exists_mem ha
    obtain ⟨n, rfl⟩ := hright m k
    exact h m hm n (mem_all n)

lemma evalBinary_add_leq (h : ∀ m ∈ a, ∀ n ∈ b, m + n ∈ c) : (evalBinary .add a b).leq c = true := by
  simp only [evalBinary]
  split
  · rename_i hall
    exact all_leq_of_solvable ha hb hall (fun n k => ⟨k - n, by omega⟩) (fun m k => ⟨k - m, by omega⟩) h
  · exact plus_leq ha hb h

lemma evalBinary_sub_leq (h : ∀ m ∈ a, ∀ n ∈ b, m - n ∈ c) : (evalBinary .sub a b).leq c = true := by
  simp only [evalBinary]
  split
  · rename_i hall
    exact all_leq_of_solvable ha hb hall (fun n k => ⟨k + n, by omega⟩) (fun m k => ⟨m - k, by omega⟩) h
  · exact minus_leq ha hb h

end Operands

section Evaluation

variable (ha : a.isEmpty = false) (hac : a.leq c = true)
include ha hac

lemma evalUnary_mono (op : UnaryOp) : (evalUnary op a).leq (evalUnary op c) = true := by
  cases op with
  | negation => exact negate_leq ha fun n hn => mem_negate (mem_of_leq hn hac)
  | _ => exact leq_refl _

variable (hb : b.isEmpty = false) (hbd : b.leq d = true)

lemma not_isZero_of_leq (hzero : ¬ a.isZero = true) : ¬ c.isZero = true :=
  fun hc => hzero (isZero_of_leq ha hac hc)

omit ha in
include hbd in
lemma isAll_or_isAll_of_leq (h : (a.isAll || b.isAll) = true) : (c.isAll || d.isAll) = true := by
  rw [Bool.or_eq_true] at h ⊢
  exact h.imp (isAll_of_leq hac) (isAll_of_leq hbd)

include hb hbd

lemma evalBinary_mono (op : BinaryOp) : (evalBinary op a b).leq (evalBinary op c d) = true := by
  have hm (m : Int) (h : m ∈ a) : m ∈ c := mem_of_leq h hac
  have hn (n : Int) (h : n ∈ b) : n ∈ d := mem_of_leq h hbd
  cases op with
  | add => exact evalBinary_add_leq ha hb fun m h n h' => mem_evalBinary_add (hm m h) (hn n h')
  | sub => exact evalBinary_sub_leq ha hb fun m h n h' => mem_evalBinary_sub (hm m h) (hn n h')
  | mul =>
    have hmem := fun m h n h' => mem_evalBinary_mul (hm m h) (hn n h')
    obtain ⟨m, hma⟩ := exists_mem ha
    obtain ⟨n, hnb⟩ := exists_mem hb
    rw [evalBinary]
    split
    case isTrue hzero =>
      have hmn := hmem m hma n hnb
      rw [zero_leq_iff]
      rcases (Bool.or_eq_true _ _).mp hzero with hz | hz
      · rwa [mem_isZero hz hma, Int.zero_mul] at hmn
      · rwa [mem_isZero hz hnb, Int.mul_zero] at hmn
    case isFalse hzero =>
      split
      case isTrue hall =>
        have hc : ¬ (c.isZero || d.isZero) = true := by
          rw [Bool.or_eq_true, not_or] at hzero ⊢
          exact ⟨not_isZero_of_leq ha hac hzero.1, not_isZero_of_leq hb hbd hzero.2⟩
        simp [evalBinary, hc, isAll_or_isAll_of_leq hac hbd hall, leq_all]
      case isFalse => exact times_leq ha hb hmem
  | div =>
    have hmem := fun m h n h' hne => mem_evalBinary_div (hm m h) (hn n h') hne
    obtain ⟨m, hma⟩ := exists_mem ha
    rw [evalBinary]
    split
    case isTrue => exact leq_of_isEmpty _ rfl
    case isFalse hzero =>
      split
      case isTrue hz =>
        obtain ⟨n, hnb, hne⟩ := exists_ne_zero hb (Bool.eq_false_iff.mpr hzero)
        have hmn := hmem m hma n hnb hne
        rw [zero_leq_iff]
        rwa [mem_isZero hz hma, Int.zero_tdiv] at hmn
      case isFalse hz =>
        split
        case isTrue hall =>
          simp [evalBinary, not_isZero_of_leq ha hac hz, not_isZero_of_leq hb hbd hzero,
            isAll_or_isAll_of_leq hac hbd hall, leq_all]
        case isFalse => exact quotient_leq ha hb hmem
  | _ => exact leq_refl _

end Evaluation

lemma satisfiesBinary_mono (ha : a.isEmpty = false) (hb : b.isEmpty = false) (hac : a.leq c = true)
    (hbd : b.leq d = true) (op : BinaryOp) :
    (satisfiesBinary op a b).join (satisfiesBinary op c d) = satisfiesBinary op c d := by
  cases ho : op.isComparison with
  | true =>
    have hc := nonempty_of_leq hac ha
    have hd := nonempty_of_leq hbd hb
    exact (decides_satisfiesBinary ha hb ho).mono (decides_satisfiesBinary hc hd ho) hac hbd
  | false =>
    rw [satisfiesBinary_other ho, satisfiesBinary_other ho]
    rfl

section Refinement

variable {r : Interval}

lemma refined_leq (hb : b.isEmpty = false) (hr : refined? op a b = some r) : r.leq a = true :=
  leq_iff_forall_mem.mpr fun _ hm => ((mem_refined_iff hb hr).mp hm).1

lemma refined_mono (ha : a.isEmpty = false) (hb : b.isEmpty = false) (hac : a.leq c = true)
    (hbd : b.leq d = true) (hr : refined? op c d = some r) :
    ∃ s, refined? op a b = some s ∧ s.leq r = true := by
  have hd := nonempty_of_leq hbd hb
  -- Only a refuted inequality is found by some intervals and not by others, and those below find it too.
  have hsome : ∃ s, refined? op a b = some s := by
    cases op with
    | ne =>
      simp only [refined?] at hr ⊢
      split at hr
      case isTrue hs =>
        have hc := nonempty_of_leq hac ha
        rw [isSingleton_eq_iff hc hd] at hs
        rw [if_pos ((isSingleton_eq_iff ha hb).mpr fun m hm n hn => hs m (mem_of_leq hm hac) n (mem_of_leq hn hbd))]
        exact ⟨_, rfl⟩
      case isFalse => cases hr
    | lt | le | gt | ge | eq => exact ⟨_, rfl⟩
    | _ => cases hr
  obtain ⟨s, hs⟩ := hsome
  refine ⟨s, hs, leq_iff_forall_mem.mpr fun m hm => ?_⟩
  obtain ⟨hma, n, hn, hholds⟩ := (mem_refined_iff hb hs).mp hm
  exact (mem_refined_iff hd hr).mpr ⟨mem_of_leq hma hac, n, mem_of_leq hn hbd, hholds⟩

lemma leq_refined (ha : a.isEmpty = false) (hb : b.isEmpty = false) (ho : op.isComparison = true)
    (hs : satisfiesBinary op a b = .satisfied) (hr : refined? op a b = some r) : a.leq r = true := by
  have hall := (decides_satisfiesBinary ha hb ho).satisfied_iff.mp hs
  obtain ⟨n, hn⟩ := exists_mem hb
  exact leq_iff_forall_mem.mpr fun m hm => (mem_refined_iff hb hr).mpr ⟨hm, n, hn, hall m hm n hn⟩

end Refinement

end ValueAnalysis.Interval
