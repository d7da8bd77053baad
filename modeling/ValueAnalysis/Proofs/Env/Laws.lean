import ValueAnalysis.Proofs.Bounds.BoundSet
import ValueAnalysis.Proofs.Interval.Lattice
import ValueAnalysis.Proofs.Pentagon.Decidable
import ValueAnalysis.Proofs.Taint.Lattice

/-! The laws of the lattice of environments. A join only looks at the names that both sides store, a meet at
those that either stores, and the order at those that the right side stores; on canonical environments all
three agree with the order of the values at every name, and the laws follow from those of the values. -/

namespace ValueAnalysis.Env

open AbstractDomain (leq join)

variable {L : Type} [AbstractDomain L] [DecidableEq L] {a b c : Env L}

structure PointwiseLaws (a b c : Env L) : Prop where
  leq_iff_get : a.leq b = true ↔ ∀ x, leq (a.get x) (b.get x) = true
  leq_refl : a.leq a = true
  leq_trans : a.leq b = true → b.leq c = true → a.leq c = true
  leq_antisymm : a.leq b = true → b.leq a = true → a.same b = true
  bottom_leq : Env.bottom.leq a = true
  leq_top : a.leq .top = true
  join_upper : a.leq (a.join b) = true ∧ b.leq (a.join b) = true
  join_least : a.leq c = true → b.leq c = true → (a.join b).leq c = true
  meet_lower : (a.meet b).leq a = true ∧ (a.meet b).leq b = true
  meet_greatest : c.leq a = true → c.leq b = true → c.leq (a.meet b) = true
  join_comm : (a.join b).same (b.join a) = true
  join_assoc : ((a.join b).join c).same (a.join (b.join c)) = true
  join_self : (a.join a).same a = true
  meet_comm : (a.meet b).same (b.meet a) = true
  meet_assoc : ((a.meet b).meet c).same (a.meet (b.meet c)) = true
  meet_self : (a.meet a).same a = true
  leq_iff_join : a.leq b = true ↔ (a.join b).same b = true
  get_join : a.isBottom = false → b.isBottom = false → ∀ x, (a.join b).get x = join (a.get x) (b.get x)

namespace WellFormed

variable [LatticeDomain L] (ha : a.WellFormed) (hb : b.WellFormed) (hc : c.WellFormed)
include ha

lemma join_self : (a.join a).same a = true :=
  (ha.join ha).same_of_leq ha (ha.join_leq ha ha (Env.leq_refl a) (Env.leq_refl a)) (ha.leq_join_left ha)

lemma meet_self : (a.meet a).same a = true :=
  (ha.meet ha).same_of_leq ha (ha.meet_leq_left ha) (ha.leq_meet ha ha (Env.leq_refl a) (Env.leq_refl a))

include hb

lemma join_comm : (a.join b).same (b.join a) = true := by
  apply (ha.join hb).same_of_leq (hb.join ha)
  · exact ha.join_leq hb (hb.join ha) (hb.leq_join_right ha) (hb.leq_join_left ha)
  · exact hb.join_leq ha (ha.join hb) (ha.leq_join_right hb) (ha.leq_join_left hb)

lemma meet_comm : (a.meet b).same (b.meet a) = true := by
  apply (ha.meet hb).same_of_leq (hb.meet ha)
  · exact hb.leq_meet ha (ha.meet hb) (ha.meet_leq_right hb) (ha.meet_leq_left hb)
  · exact ha.leq_meet hb (hb.meet ha) (hb.meet_leq_right ha) (hb.meet_leq_left ha)

lemma leq_iff_join : a.leq b = true ↔ (a.join b).same b = true := by
  constructor
  · intro h
    exact (ha.join hb).same_of_leq hb (ha.join_leq hb hb h (Env.leq_refl b)) (ha.leq_join_right hb)
  · intro h
    exact Env.leq_trans (ha.leq_join_left hb) ((ha.join hb).leq_of_same hb h)

include hc

lemma join_assoc : ((a.join b).join c).same (a.join (b.join c)) = true := by
  have hab := ha.join hb
  have hbc := hb.join hc
  have hleft := hab.leq_join_left hc
  have hright := ha.leq_join_right hbc
  apply (hab.join hc).same_of_leq (ha.join hbc)
  · apply hab.join_leq hc (ha.join hbc)
    · exact ha.join_leq hb (ha.join hbc) (ha.leq_join_left hbc) (Env.leq_trans (hb.leq_join_left hc) hright)
    · exact Env.leq_trans (hb.leq_join_right hc) hright
  · apply ha.join_leq hbc (hab.join hc)
    · exact Env.leq_trans (ha.leq_join_left hb) hleft
    · exact hb.join_leq hc (hab.join hc) (Env.leq_trans (ha.leq_join_right hb) hleft) (hab.leq_join_right hc)

lemma meet_assoc : ((a.meet b).meet c).same (a.meet (b.meet c)) = true := by
  have hab := ha.meet hb
  have hbc := hb.meet hc
  have hleft := hab.meet_leq_left hc
  have hright := ha.meet_leq_right hbc
  apply (hab.meet hc).same_of_leq (ha.meet hbc)
  · apply ha.leq_meet hbc (hab.meet hc)
    · exact Env.leq_trans hleft (ha.meet_leq_left hb)
    · exact hb.leq_meet hc (hab.meet hc) (Env.leq_trans hleft (ha.meet_leq_right hb)) (hab.meet_leq_right hc)
  · apply hab.leq_meet hc (ha.meet hbc)
    · exact ha.leq_meet hb (ha.meet hbc) (ha.meet_leq_left hbc) (Env.leq_trans hright (hb.meet_leq_left hc))
    · exact Env.leq_trans hright (hb.meet_leq_right hc)

lemma pointwiseLaws : PointwiseLaws a b c where
  leq_iff_get := ha.leq_iff_get hb
  leq_refl := Env.leq_refl a
  leq_trans := Env.leq_trans
  leq_antisymm := ha.same_of_leq hb
  bottom_leq := leq_of_isBottom isBottom_bottom a
  leq_top := ha.leq_top
  join_upper := ⟨ha.leq_join_left hb, ha.leq_join_right hb⟩
  join_least := ha.join_leq hb hc
  meet_lower := ⟨ha.meet_leq_left hb, ha.meet_leq_right hb⟩
  meet_greatest := ha.leq_meet hb hc
  join_comm := ha.join_comm hb
  join_assoc := ha.join_assoc hb hc
  join_self := ha.join_self
  meet_comm := ha.meet_comm hb
  meet_assoc := ha.meet_assoc hb hc
  meet_self := ha.meet_self
  leq_iff_join := ha.leq_iff_join hb
  get_join _ _ := ha.get_join hb

end WellFormed

theorem pointwise_lattice :
    (∀ a b c : Env Interval, a.WellFormed → b.WellFormed → c.WellFormed → PointwiseLaws a b c) ∧
    (∀ a b c : Env BoundSet, a.WellFormed → b.WellFormed → c.WellFormed → PointwiseLaws a b c) ∧
    ∀ a b c : Env Taint, a.WellFormed → b.WellFormed → c.WellFormed → PointwiseLaws a b c :=
  ⟨fun _ _ _ ha hb hc => ha.pointwiseLaws hb hc, fun _ _ _ ha hb hc => ha.pointwiseLaws hb hc,
    fun _ _ _ ha hb hc => ha.pointwiseLaws hb hc⟩

/-- A join that drops a name which only one side stores, beside a meet that collapses. -/
theorem pointwise_lattice_disjoint :
    let a : Env Interval :=
      ⟨.ofList [("x", .ofBounds (.fin 0) (.fin 1)), ("y", .ofBounds (.fin 5) (.fin 6))], false⟩
    let b : Env Interval := ⟨.ofList [("x", .ofBounds (.fin 3) .posInf)], false⟩
    let s : Bounds := ⟨.ofList [("x", .above (.ofList ["y", "z"]))], false⟩
    let t : Env Taint := ⟨.ofList [("x", .clean)], false⟩
    (a.WellFormed ∧ b.WellFormed ∧ s.WellFormed ∧ t.WellFormed) ∧
      (a.meet b).isBottom = true ∧ (a.join b).knows "y" = false ∧
      PointwiseLaws a b .bottom ∧ PointwiseLaws s .top s ∧ PointwiseLaws t .bottom .top := by
  intro a b s t
  have ha : a.WellFormed := by decide
  have hb : b.WellFormed := by decide
  have hs : s.WellFormed := by decide
  have ht : t.WellFormed := by decide
  obtain ⟨hinterval, hbounds, htaint⟩ := pointwise_lattice
  exact ⟨⟨ha, hb, hs, ht⟩, by decide, by decide, hinterval a b .bottom ha hb wellFormed_bottom,
    hbounds s .top s hs wellFormed_top hs, htaint t .bottom .top ht wellFormed_bottom wellFormed_top⟩

end ValueAnalysis.Env
