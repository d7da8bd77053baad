import ValueAnalysis.Proofs.Env.Pointwise

namespace ValueAnalysis

open AbstractDomain (top bottom leq join meet)

class LatticeDomain (L : Type) [AbstractDomain L] : Prop extends LawfulDomain L where
  leq_refl : ∀ v : L, leq v v = true
  leq_trans : ∀ {u v w : L}, leq u v = true → leq v w = true → leq u w = true
  leq_antisymm : ∀ {v w : L}, leq v w = true → leq w v = true → v = w
  leq_top : ∀ v : L, leq v top = true
  bottom_leq : ∀ v : L, leq bottom v = true
  leq_join_left : ∀ v w : L, leq v (join v w) = true
  leq_join_right : ∀ v w : L, leq w (join v w) = true
  join_leq : ∀ {u v w : L}, leq u w = true → leq v w = true → leq (join u v) w = true
  meet_leq_left : ∀ v w : L, leq (meet v w) v = true
  meet_leq_right : ∀ v w : L, leq (meet v w) w = true
  leq_meet : ∀ {u v w : L}, leq u v = true → leq u w = true → leq u (meet v w) = true

namespace LatticeDomain

variable {L : Type} [AbstractDomain L] [LatticeDomain L]

lemma join_comm (v w : L) : join v w = join w v :=
  leq_antisymm (join_leq (leq_join_right w v) (leq_join_left w v))
    (join_leq (leq_join_right v w) (leq_join_left v w))

lemma join_self (v : L) : join v v = v :=
  leq_antisymm (join_leq (leq_refl v) (leq_refl v)) (leq_join_left v v)

lemma join_assoc (u v w : L) : join (join u v) w = join u (join v w) := by
  apply leq_antisymm
  · apply join_leq
    · exact join_leq (leq_join_left _ _) (leq_trans (leq_join_left v w) (leq_join_right _ _))
    · exact leq_trans (leq_join_right v w) (leq_join_right _ _)
  · apply join_leq
    · exact leq_trans (leq_join_left u v) (leq_join_left _ _)
    · exact join_leq (leq_trans (leq_join_right u v) (leq_join_left _ _)) (leq_join_right _ _)

lemma meet_mono {t u v w : L} (htv : leq t v = true) (huw : leq u w = true) :
    leq (meet t u) (meet v w) = true :=
  leq_meet (leq_trans (meet_leq_left t u) htv) (leq_trans (meet_leq_right t u) huw)

lemma bottom_join (v : L) : join bottom v = v :=
  leq_antisymm (join_leq (bottom_leq v) (leq_refl v)) (leq_join_right bottom v)

lemma join_bottom (v : L) : join v bottom = v := by
  rw [join_comm, bottom_join]

lemma leq_bottom_iff (v : L) : leq v bottom = true ↔ v = bottom := by
  constructor
  · intro h
    exact leq_antisymm h (bottom_leq v)
  · rintro rfl
    exact leq_refl _

end LatticeDomain

namespace Env

open LatticeDomain (leq_bottom_iff)

variable {L : Type} [AbstractDomain L] [LatticeDomain L] {a b c : Env L}

lemma leq_iff (ha : a.isBottom = false) :
    a.leq b = true ↔ b.isBottom = false ∧ ∀ x, leq (a.get x) (b.get x) = true := by
  cases hb : b.isBottom with
  | true => simp [Env.leq, ha, hb]
  | false =>
    simp only [Env.leq, ha, hb, Bool.false_eq_true, if_false, List.all_eq_true, true_and]
    symm
    exact forall_get_iff (P := fun x v => leq (a.get x) v = true) (reachable_of_isBottom hb)
      fun x => LatticeDomain.leq_top (a.get x)

lemma leq_refl (a : Env L) : a.leq a = true := by
  cases ha : a.isBottom with
  | true => exact leq_of_isBottom ha a
  | false => exact (leq_iff ha).mpr ⟨ha, fun x => LatticeDomain.leq_refl _⟩

lemma leq_trans (hab : a.leq b = true) (hbc : b.leq c = true) : a.leq c = true := by
  cases ha : a.isBottom with
  | true => exact leq_of_isBottom ha c
  | false =>
    obtain ⟨hb, hab⟩ := (leq_iff ha).mp hab
    obtain ⟨hc, hbc⟩ := (leq_iff hb).mp hbc
    exact (leq_iff ha).mpr ⟨hc, fun x => LatticeDomain.leq_trans (hab x) (hbc x)⟩

lemma isBottom_of_leq (hab : a.leq b = true) (hb : b.isBottom = true) : a.isBottom = true := by
  cases ha : a.isBottom with
  | true => rfl
  | false =>
    have hb' := ((leq_iff ha).mp hab).1
    simp [hb] at hb'

namespace WellFormed

lemma get_of_isBottom (ha : a.WellFormed) (hab : a.isBottom = true) (x : String) : a.get x = bottom :=
  get_of_unreachable (ha.isBottom_eq.symm.trans hab) x

lemma leq_iff_get (ha : a.WellFormed) (hb : b.WellFormed) :
    a.leq b = true ↔ ∀ x, leq (a.get x) (b.get x) = true := by
  cases hab : a.isBottom with
  | true =>
    refine iff_of_true (leq_of_isBottom hab b) fun x => ?_
    rw [ha.get_of_isBottom hab]
    exact LatticeDomain.bottom_leq _
  | false =>
    rw [leq_iff hab]
    refine and_iff_right_of_imp fun hle => ?_
    cases hbb : b.isBottom with
    | false => rfl
    | true =>
      -- An unreachable environment is bottom at every name, and so would be `a`.
      have hx := hle ""
      rw [hb.get_of_isBottom hbb, leq_bottom_iff] at hx
      exact absurd hx (get_ne_bottom hab "")

lemma leq_top (ha : a.WellFormed) : a.leq .top = true := by
  rw [ha.leq_iff_get wellFormed_top]
  intro x
  exact LatticeDomain.leq_top _

lemma same_of_leq [DecidableEq L] (ha : a.WellFormed) (hb : b.WellFormed) (hab : a.leq b = true)
    (hba : b.leq a = true) : a.same b = true := by
  rw [same_iff_get ha hb, ← ha.isBottom_eq, ← hb.isBottom_eq]
  constructor
  · cases hbb : b.isBottom with
    | true => exact isBottom_of_leq hab hbb
    | false =>
      cases hab' : a.isBottom with
      | false => rfl
      | true => exact absurd (isBottom_of_leq hba hab') (by simp [hbb])
  · intro x
    exact LatticeDomain.leq_antisymm ((ha.leq_iff_get hb).mp hab x) ((hb.leq_iff_get ha).mp hba x)

lemma leq_of_same [DecidableEq L] (ha : a.WellFormed) (hb : b.WellFormed) (h : a.same b = true) :
    a.leq b = true := by
  rw [ha.leq_iff_get hb]
  intro x
  rw [((same_iff_get ha hb).mp h).2 x]
  exact LatticeDomain.leq_refl _

section Join

variable (ha : a.WellFormed) (hb : b.WellFormed)
include ha hb

lemma get_join (x : String) : (a.join b).get x = AbstractDomain.join (a.get x) (b.get x) := by
  cases hab : a.isBottom with
  | true => rw [join_of_isBottom_left hab, ha.get_of_isBottom hab, LatticeDomain.bottom_join]
  | false =>
    cases hbb : b.isBottom with
    | true => rw [join_of_isBottom_right hab hbb, hb.get_of_isBottom hbb, LatticeDomain.join_bottom]
    | false => exact Env.get_join hab hbb x

lemma leq_join_left : a.leq (a.join b) = true := by
  rw [ha.leq_iff_get (ha.join hb)]
  intro x
  rw [ha.get_join hb]
  exact LatticeDomain.leq_join_left _ _

lemma leq_join_right : b.leq (a.join b) = true := by
  rw [hb.leq_iff_get (ha.join hb)]
  intro x
  rw [ha.get_join hb]
  exact LatticeDomain.leq_join_right _ _

lemma join_leq (hc : c.WellFormed) (hac : a.leq c = true) (hbc : b.leq c = true) :
    (a.join b).leq c = true := by
  rw [ha.leq_iff_get hc] at hac
  rw [hb.leq_iff_get hc] at hbc
  rw [(ha.join hb).leq_iff_get hc]
  intro x
  rw [ha.get_join hb]
  exact LatticeDomain.join_leq (hac x) (hbc x)

end Join

section Meet

variable (ha : a.WellFormed) (hb : b.WellFormed)
include ha hb

lemma meet_leq_left : (a.meet b).leq a = true := by
  cases h : (a.meet b).isBottom with
  | true => exact leq_of_isBottom h a
  | false =>
    obtain ⟨hab, hbb⟩ := reachable_of_meet h
    rw [(ha.meet hb).leq_iff_get ha]
    intro x
    rw [get_meet hab hbb h]
    exact LatticeDomain.meet_leq_left _ _

lemma meet_leq_right : (a.meet b).leq b = true := by
  cases h : (a.meet b).isBottom with
  | true => exact leq_of_isBottom h b
  | false =>
    obtain ⟨hab, hbb⟩ := reachable_of_meet h
    rw [(ha.meet hb).leq_iff_get hb]
    intro x
    rw [get_meet hab hbb h]
    exact LatticeDomain.meet_leq_right _ _

lemma leq_meet (hc : c.WellFormed) (hca : c.leq a = true) (hcb : c.leq b = true) :
    c.leq (a.meet b) = true := by
  cases hcc : c.isBottom with
  | true => exact leq_of_isBottom hcc _
  | false =>
    obtain ⟨hab, hca⟩ := (leq_iff hcc).mp hca
    obtain ⟨hbb, hcb⟩ := (leq_iff hcc).mp hcb
    have hle := fun x => LatticeDomain.leq_meet (hca x) (hcb x)
    -- Nothing that is above a reachable environment collapses.
    have h : (a.meet b).isBottom = false := (isBottom_meet_iff hab hbb).mpr fun x hx => by
      have hx' := hle x
      rw [hx, leq_bottom_iff] at hx'
      exact get_ne_bottom hcc x hx'
    refine (hc.leq_iff_get (ha.meet hb)).mpr fun x => ?_
    rw [get_meet hab hbb h]
    exact hle x

end Meet

end WellFormed

end Env

end ValueAnalysis
