import ValueAnalysis.Proofs.Pentagon.Lattice

namespace ValueAnalysis

namespace Env

variable {L : Type} [AbstractDomain L]

lemma wellFormed_iff_entries {env : Env L} :
    env.WellFormed ↔
      (∀ e ∈ env.facts.entries, AbstractDomain.isTop e.2 = false ∧ AbstractDomain.isBottom e.2 = false) ∧
        (env.unreachable = true → env.facts.entries = []) := by
  have hempty : env.facts = ∅ ↔ env.facts.entries = [] := by
    constructor
    · intro h
      rw [h]
      rfl
    · intro h
      cases hf : env.facts with
      | mk entries nodup =>
        rw [hf] at h
        cases h
        rfl
  simp only [WellFormed, hempty, Prod.forall, Table.mem_entries_iff]

instance (env : Env L) : Decidable env.WellFormed := decidable_of_iff' _ wellFormed_iff_entries

lemma models_iff_entries {env : Env Interval} {s : Store} :
    env.Models s ↔ env.unreachable = false ∧ ∀ e ∈ env.facts.entries, s e.1 ∈ e.2 := by
  have hentries (hr : env.unreachable = false) : env.Models s ↔ ∀ e ∈ env.facts.entries, s e.1 ∈ e.2 :=
    forall_get_iff (P := fun x v => s x ∈ v) hr fun x => Interval.mem_all (s x)
  constructor
  · intro h
    exact ⟨h.reachable, (hentries h.reachable).mp h⟩
  · rintro ⟨hr, h⟩
    exact (hentries hr).mpr h

instance (env : Env Interval) (s : Store) : Decidable (env.Models s) := decidable_of_iff' _ models_iff_entries

end Env

lemma Bounds.models_iff_entries {b : Bounds} {s : Store} :
    b.Models s ↔ b.isBottom = false ∧ ∀ e ∈ b.facts.entries, ∀ y ∈ e.2.names.names, s e.1 < s y := by
  refine and_congr_right fun hb => ?_
  exact Env.forall_get_iff (P := fun x v => ∀ y ∈ v, s x < s y) (Env.reachable_of_isBottom hb)
    fun x y hy => absurd hy BoundSet.not_mem_top

instance (b : Bounds) (s : Store) : Decidable (b.Models s) := decidable_of_iff' _ Bounds.models_iff_entries

namespace Pentagon

instance (p : Pentagon) : Decidable p.WellFormed :=
  inferInstanceAs (Decidable (p.bounds.WellFormed ∧ p.intervals.WellFormed ∧ _))

end Pentagon

end ValueAnalysis
