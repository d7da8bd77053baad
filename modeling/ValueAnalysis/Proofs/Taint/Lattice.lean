import ValueAnalysis.Proofs.Env.Lattice
import ValueAnalysis.Proofs.Env.Transfer
import ValueAnalysis.Taint.Basic

namespace ValueAnalysis.Taint

variable {a b c : Taint}

lemma join_eq_bottom_iff (a b : Taint) : a.join b = .bottom ↔ a = .bottom ∧ b = .bottom := by
  cases a <;> cases b <;> simp [join]

instance : LawfulDomain Taint where
  isTop_iff _ := beq_iff_eq
  isBottom_iff _ := beq_iff_eq
  top_ne_bottom := nofun
  join_top v := by cases v <;> rfl
  top_join v := by cases v <;> rfl
  join_ne_bottom hv _ h := hv ((join_eq_bottom_iff _ _).mp h).1
  widen_top v := by cases v <;> rfl
  top_widen v := by cases v <;> rfl
  widen_ne_bottom hv _ h := hv ((join_eq_bottom_iff _ _).mp h).1
  meet_top v := by cases v <;> rfl

lemma leq_trans (hab : a.leq b = true) (hbc : b.leq c = true) : a.leq c = true := by
  cases a <;> cases b <;> cases c <;> simp_all [leq]

lemma leq_antisymm (hab : a.leq b = true) (hba : b.leq a = true) : a = b := by
  cases a <;> cases b <;> simp_all [leq]

lemma join_leq (hac : a.leq c = true) (hbc : b.leq c = true) : (a.join b).leq c = true := by
  cases a <;> cases b <;> cases c <;> simp_all [leq, join]

lemma leq_meet (hab : a.leq b = true) (hac : a.leq c = true) : a.leq (b.meet c) = true := by
  cases a <;> cases b <;> cases c <;> simp_all [leq, meet]

instance : LatticeDomain Taint where
  leq_refl v := by cases v <;> rfl
  leq_trans := leq_trans
  leq_antisymm := leq_antisymm
  leq_top v := by cases v <;> rfl
  bottom_leq _ := rfl
  leq_join_left v w := by cases v <;> cases w <;> rfl
  leq_join_right v w := by cases v <;> cases w <;> rfl
  join_leq := join_leq
  meet_leq_left v w := by cases v <;> cases w <;> rfl
  meet_leq_right v w := by cases v <;> cases w <;> rfl
  leq_meet := leq_meet

lemma refinesCanonically : Env.RefinesCanonically Taint := fun _ _ _ _ h => h

end ValueAnalysis.Taint
