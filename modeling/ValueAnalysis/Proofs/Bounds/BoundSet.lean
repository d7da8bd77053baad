import ValueAnalysis.Proofs.Env.Lattice

namespace ValueAnalysis.BoundSet

lemma isTop_iff (b : BoundSet) : b.isTop = true ↔ b = top := by
  cases b with
  | unreachable => simp [isTop, top]
  | above s => simp [isTop, top, NameSet.isEmpty_iff]

lemma above_ne_unreachable (s : NameSet) : above s ≠ unreachable := by simp

variable {a b : BoundSet} {x y : String}

lemma ext (ha : a ≠ unreachable) (hb : b ≠ unreachable) (h : ∀ y, y ∈ a ↔ y ∈ b) : a = b := by
  cases a with
  | unreachable => exact absurd rfl ha
  | above s =>
    cases b with
    | unreachable => exact absurd rfl hb
    | above t => exact congrArg above (NameSet.ext h)

lemma mem_join (ha : a ≠ unreachable) (hb : b ≠ unreachable) : y ∈ a.join b ↔ y ∈ a ∧ y ∈ b := by
  cases a <;> cases b <;> simp_all [join, mem_def, names]

lemma mem_meet (ha : a ≠ unreachable) (hb : b ≠ unreachable) : y ∈ a.meet b ↔ y ∈ a ∨ y ∈ b := by
  cases a <;> cases b <;> simp_all [meet, mem_def, names]

lemma meet_ne_unreachable (ha : a ≠ unreachable) (hb : b ≠ unreachable) : a.meet b ≠ unreachable := by
  cases a <;> cases b <;> simp_all [meet]

@[simp] lemma mem_erase : y ∈ b.erase x ↔ y ∈ b ∧ y ≠ x := by
  cases b <;> simp [erase, mem_def, names]

lemma mem_insert (hb : b ≠ unreachable) : y ∈ b.insert x ↔ y = x ∨ y ∈ b := by
  cases b <;> simp_all [insert, mem_def, names]

lemma insert_ne_unreachable (hb : b ≠ unreachable) : b.insert x ≠ unreachable := by
  cases b <;> simp_all [insert]

lemma erase_ne_unreachable (hb : b ≠ unreachable) : b.erase x ≠ unreachable := by
  cases b <;> simp_all [erase]

@[simp] lemma mem_singleton : y ∈ singleton x ↔ y = x := by
  simp [singleton, mem_def, names]

@[simp] lemma not_mem_top : y ∉ top := NameSet.not_mem_empty y

lemma not_mem_unreachable : y ∉ unreachable := NameSet.not_mem_empty y

lemma widen_cases (ha : a ≠ unreachable) (hb : b ≠ unreachable) :
    a.widen b = top ∨ a ≠ top ∧ a.widen b = b ∧ ∀ y ∈ a, y ∈ b := by
  cases a with
  | unreachable => exact absurd rfl ha
  | above s =>
    cases b with
    | unreachable => exact absurd rfl hb
    | above t =>
      simp only [widen]
      split
      · rename_i hs
        rw [NameSet.isEmpty_iff.mp hs]
        exact .inl rfl
      · rename_i hs
        split
        · rename_i hst
          refine .inr ⟨fun htop => hs ?_, rfl, hst⟩
          exact (isTop_iff _).mpr htop
        · exact .inl rfl

lemma widen_eq_right (hb : b ≠ unreachable) (htop : a ≠ top) (hsub : ∀ y ∈ a, y ∈ b) : a.widen b = b := by
  cases a with
  | unreachable => rfl
  | above s =>
    cases b with
    | unreachable => exact absurd rfl hb
    | above t =>
      have hs : ¬ s.isEmpty = true := fun hs => htop ((isTop_iff _).mp hs)
      have hst : s ⊆ t := hsub
      simp [widen, hs, hst]

lemma mem_widen (ha : a ≠ unreachable) (hb : b ≠ unreachable) :
    y ∈ a.widen b ↔ a ≠ top ∧ (∀ z ∈ a, z ∈ b) ∧ y ∈ b := by
  constructor
  · intro hy
    obtain htop | ⟨hne, hright, hsub⟩ := widen_cases ha hb
    · rw [htop] at hy
      exact absurd hy not_mem_top
    · rw [hright] at hy
      exact ⟨hne, hsub, hy⟩
  · rintro ⟨hne, hsub, hy⟩
    rw [widen_eq_right hb hne hsub]
    exact hy

lemma mem_of_mem_widen (hb : b ≠ unreachable) (h : y ∈ a.widen b) : y ∈ b := by
  by_cases ha : a = unreachable
  · subst ha
    exact h
  · exact ((mem_widen ha hb).mp h).2.2

lemma inter_empty (s : NameSet) : s.inter ∅ = ∅ := NameSet.ext (by simp)

lemma empty_inter (s : NameSet) : (∅ : NameSet).inter s = ∅ := NameSet.ext (by simp)

lemma meet_top (b : BoundSet) : b.meet top = b := by
  cases b with
  | unreachable => rfl
  | above s => exact congrArg above (NameSet.ext (by simp))

instance : LawfulDomain BoundSet where
  isTop_iff := isTop_iff
  isBottom_iff b := by
    cases b with
    | unreachable => exact ⟨fun _ => rfl, fun _ => rfl⟩
    | above s => simp [AbstractDomain.isBottom, AbstractDomain.bottom, isBottom]
  top_ne_bottom := above_ne_unreachable ∅
  join_top v := by
    cases v with
    | unreachable => rfl
    | above s => exact congrArg above (inter_empty s)
  top_join v := by
    cases v with
    | unreachable => rfl
    | above s => exact congrArg above (empty_inter s)
  join_ne_bottom {v w} hv hw := by
    cases v with
    | unreachable => exact absurd rfl hv
    | above s =>
      cases w with
      | unreachable => exact absurd rfl hw
      | above t => exact above_ne_unreachable (s.inter t)
  widen_top v := by
    cases v with
    | unreachable => rfl
    | above s =>
      change (if s.isEmpty then above s else if s ⊆ ∅ then above ∅ else top) = above ∅
      split
      · rename_i hs
        rw [NameSet.isEmpty_iff.mp hs]
      · split <;> rfl
  top_widen v := by
    cases v <;> rfl
  widen_ne_bottom {v w} hv hw := by
    cases v with
    | unreachable => exact absurd rfl hv
    | above s =>
      cases w with
      | unreachable => exact absurd rfl hw
      | above t =>
        change (if s.isEmpty then above s else if s ⊆ t then above t else top) ≠ unreachable
        split
        · exact above_ne_unreachable s
        · split
          · exact above_ne_unreachable t
          · exact above_ne_unreachable ∅
  meet_top := meet_top

lemma leq_iff (ha : a ≠ unreachable) (hb : b ≠ unreachable) : a.leq b = true ↔ ∀ y ∈ b, y ∈ a := by
  cases a with
  | unreachable => exact absurd rfl ha
  | above s =>
    cases b with
    | unreachable => exact absurd rfl hb
    | above t => exact decide_eq_true_iff

lemma leq_unreachable (ha : a ≠ unreachable) : a.leq unreachable = false := by
  cases a with
  | unreachable => exact absurd rfl ha
  | above s => rfl

lemma ne_unreachable_of_leq (ha : a ≠ unreachable) (h : a.leq b = true) : b ≠ unreachable := by
  rintro rfl
  rw [leq_unreachable ha] at h
  cases h

lemma mem_of_leq (ha : a ≠ unreachable) (h : a.leq b = true) (hy : y ∈ b) : y ∈ a :=
  (leq_iff ha (ne_unreachable_of_leq ha h)).mp h y hy

lemma leq_trans {c : BoundSet} (hab : a.leq b = true) (hbc : b.leq c = true) : a.leq c = true := by
  by_cases ha : a = unreachable
  · rw [ha]
    rfl
  · have hb := ne_unreachable_of_leq ha hab
    have hc := ne_unreachable_of_leq hb hbc
    rw [leq_iff ha hb] at hab
    rw [leq_iff hb hc] at hbc
    exact (leq_iff ha hc).mpr fun y hy => hab y (hbc y hy)

lemma leq_antisymm (hab : a.leq b = true) (hba : b.leq a = true) : a = b := by
  by_cases ha : a = unreachable
  · subst ha
    by_contra hb
    rw [leq_unreachable (Ne.symm hb)] at hba
    cases hba
  · have hb := ne_unreachable_of_leq ha hab
    rw [leq_iff ha hb] at hab
    rw [leq_iff hb ha] at hba
    exact ext ha hb fun y => ⟨hba y, hab y⟩

instance : LatticeDomain BoundSet where
  leq_refl b := by cases b <;> simp [AbstractDomain.leq, leq, NameSet.subset_def]
  leq_trans := leq_trans
  leq_antisymm := leq_antisymm
  leq_top b := by cases b <;> simp [AbstractDomain.leq, AbstractDomain.top, leq, top, NameSet.subset_def]
  bottom_leq _ := rfl
  leq_join_left a b := by
    cases a <;> cases b <;>
      simp +contextual [AbstractDomain.leq, AbstractDomain.join, leq, join, NameSet.subset_def]
  leq_join_right a b := by
    cases a <;> cases b <;>
      simp +contextual [AbstractDomain.leq, AbstractDomain.join, leq, join, NameSet.subset_def]
  join_leq {a b c} hac hbc := by
    cases a <;> cases b <;> cases c <;>
      simp_all [AbstractDomain.leq, AbstractDomain.join, leq, join, NameSet.subset_def]
  meet_leq_left a b := by
    cases a <;> cases b <;>
      simp +contextual [AbstractDomain.leq, AbstractDomain.meet, leq, meet, NameSet.subset_def]
  meet_leq_right a b := by
    cases a <;> cases b <;>
      simp +contextual [AbstractDomain.leq, AbstractDomain.meet, leq, meet, NameSet.subset_def]
  leq_meet {a b c} hab hac := by
    cases a <;> cases b <;> cases c <;>
      simp_all [AbstractDomain.leq, AbstractDomain.meet, leq, meet, NameSet.subset_def, or_imp]

end ValueAnalysis.BoundSet
