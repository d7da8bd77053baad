import ValueAnalysis.Proofs.Pentagon.Closed

/-! Closing a pentagon gives a canonical form. It keeps the stores, nothing is left to close in the result, and the
order, which looks for a missing bound among the intervals on the fly, is the componentwise order once its left side
is closed. Two pentagons are below each other exactly when they have the same closure. -/

namespace ValueAnalysis

namespace Table

variable {α β : Type}

lemma eq_empty_of_get? {t : Table α} (h : ∀ k, t.get? k = none) : t = ∅ := by
  obtain ⟨entries, nodup⟩ := t
  cases entries with
  | nil => rfl
  | cons e rest =>
    have he := find_of_mem nodup (List.mem_cons_self : (e.1, e.2) ∈ e :: rest)
    have hnone : find e.1 (e :: rest) = none := h e.1
    rw [hnone] at he
    cases he

lemma filterEntries_of_some {f : String → α → Option α} (hf : ∀ k a, f k a = some a) (l : List (String × α)) :
    filterEntries f l = l := by
  induction l with
  | nil => rfl
  | cons e l ih =>
    obtain ⟨k, a⟩ := e
    rw [filterEntries, hf, ih]

lemma merge_empty {f : Option α → Option β → α} (hf : ∀ a, f (some a) none = a) (t : Table α) :
    merge f t ∅ = t := by
  obtain ⟨entries, nodup⟩ := t
  have hkept := filterEntries_of_some (fun _ a => congrArg some (hf a)) entries
  simp only [merge, mk.injEq]
  exact (List.append_nil _).trans hkept

end Table

namespace Pentagon

variable {p q : Pentagon} {s : Store}

lemma addBounds_empty (b : Bounds) : addBounds b ∅ = b := by
  rw [addBounds, Table.merge_empty fun _ => rfl]

namespace IsClosed

lemma missingBounds_eq (hp : p.IsClosed) (hpb : p.isBottom = false) : p.missingBounds = ∅ := by
  apply Table.eq_empty_of_get?
  intro x
  rw [missingBounds, Table.get?_filterMap, Option.bind_eq_none_iff]
  intro a ha
  have hr := hp.wellFormed.reachable_intervals hpb
  dsimp only
  rw [if_pos]
  rw [Bool.or_eq_true, decide_eq_true_eq]
  right
  intro y hy
  obtain ⟨_, c, hc, hlt⟩ := mem_impliedBounds.mp hy
  apply hp.mem_of_orders
  right
  rwa [Env.get_eq hr, Env.get_eq hr, ha, hc]

lemma closure_eq (hp : p.IsClosed) : p.closure = p := by
  cases hpb : p.isBottom with
  | true => exact closure_of_isBottom hpb
  | false => rw [hp.wellFormed.closure_eq hpb, hp.missingBounds_eq hpb, addBounds_empty]

end IsClosed

namespace WellFormed

lemma closure_closure (hp : p.WellFormed) : p.closure.closure = p.closure := hp.isClosed_closure.closure_eq

lemma leq_closure (hp : p.WellFormed) : p.leq p.closure = true := by
  cases hpb : p.isBottom with
  | true => exact hp.leq_of_isBottom hpb _
  | false =>
    refine (hp.leq_iff hp.closure hpb).mpr ⟨hp.isBottom_closure hpb, fun x => ?_, fun x y hy => ?_⟩
    · rw [hp.intervals_closure hpb]
      exact Interval.leq_refl _
    · exact (hp.mem_closure_bounds hpb).mp hy

lemma models_closure_iff (hp : p.WellFormed) : p.closure.Models s ↔ p.Models s :=
  ⟨fun h => h.of_leq hp.closure hp.closure_leq, fun h => h.closure hp⟩

lemma leq_iff_closure (hp : p.WellFormed) (hq : q.WellFormed) :
    p.leq q = true ↔ p.isBottom = true ∨
      (q.isBottom = false ∧ p.intervals.leq q.intervals = true ∧ p.closure.bounds.leq q.bounds = true) := by
  cases hpb : p.isBottom with
  | true => exact iff_of_true (hp.leq_of_isBottom hpb q) (.inl rfl)
  | false =>
    rw [hp.leq_iff hq hpb, or_iff_right Bool.false_ne_true]
    refine and_congr_right fun hqb => ?_
    have hclosure := hp.closure.isBottom_bounds.trans (hp.isBottom_closure hpb)
    rw [Env.leq_iff (hp.isBottom_intervals.trans hpb), and_iff_right (hq.isBottom_intervals.trans hqb),
      Bounds.leq_iff hclosure (hq.isBottom_bounds.trans hqb)]
    refine and_congr_right fun _ => forall₃_congr fun x y _ => ?_
    exact (hp.mem_closure_bounds hpb).symm

lemma leq_leq_iff_closure (hp : p.WellFormed) (hq : q.WellFormed) :
    (p.leq q = true ∧ q.leq p = true) ↔ p.closure.same q.closure = true := by
  constructor
  · rintro ⟨hpq, hqp⟩
    apply hp.isClosed_closure.leq_antisymm hq.isClosed_closure
    · apply hp.closure.leq_trans hq hq.closure _ hq.leq_closure
      exact hp.closure.leq_trans hp hq hp.closure_leq hpq
    · apply hq.closure.leq_trans hp hp.closure _ hp.leq_closure
      exact hq.closure.leq_trans hq hp hq.closure_leq hqp
  · intro h
    have hpq := hp.closure.leq_of_same hq.closure h
    have hqp := hq.closure.leq_of_same hp.closure (same_symm h)
    constructor
    · apply hp.leq_trans hq.closure hq _ hq.closure_leq
      exact hp.leq_trans hp.closure hq.closure hp.leq_closure hpq
    · apply hq.leq_trans hp.closure hp _ hp.closure_leq
      exact hq.leq_trans hq.closure hp.closure hq.leq_closure hqp

end WellFormed

theorem closure_canonical (hp : p.WellFormed) (hq : q.WellFormed) :
    p.closure.closure = p.closure ∧ (∀ s, p.closure.Models s ↔ p.Models s) ∧
      (p.leq q = true ↔ p.isBottom = true ∨
        (q.isBottom = false ∧ p.intervals.leq q.intervals = true ∧ p.closure.bounds.leq q.bounds = true)) ∧
      ((p.leq q = true ∧ q.leq p = true) ↔ p.closure.same q.closure = true) :=
  ⟨hp.closure_closure, fun _ => hp.models_closure_iff, hp.leq_iff_closure hq, hp.leq_leq_iff_closure hq⟩

/-- Two pentagons with the same intervals, of which only the second records a bound that these imply, and that only
for one of the variables above `x`. -/
theorem closure_canonical_unrecorded :
    let i : Env Interval :=
      ⟨.ofList [("x", .ofBounds .negInf (.fin 1)), ("y", .ofBounds (.fin 5) (.fin 6)),
        ("z", .ofBounds (.fin 2) .posInf)], false⟩
    let p : Pentagon := ⟨⟨.ofList [("y", .singleton "w")], false⟩, i⟩
    let q : Pentagon := ⟨⟨.ofList [("y", .singleton "w"), ("x", .singleton "z")], false⟩, i⟩
    (p.WellFormed ∧ q.WellFormed) ∧ p.same q = false ∧ p.bounds.leq q.bounds = false ∧
      p.closure.bounds.leq q.bounds = true ∧ p.leq q = true ∧ q.leq p = true ∧
      p.closure.same q.closure = true ∧ (∀ s, p.closure.Models s ↔ p.Models s) ∧
      p.closure.closure = p.closure := by
  intro i p q
  have hp : p.WellFormed := by decide
  have hq : q.WellFormed := by decide
  have hbounds : p.closure.bounds.leq q.bounds = true := by decide
  have hqp : q.leq p = true := by decide
  obtain ⟨hidem, hmodels, hleq, hsame⟩ := closure_canonical hp hq
  have hpq : p.leq q = true := hleq.mpr (.inr ⟨by decide, by decide, hbounds⟩)
  exact ⟨⟨hp, hq⟩, by decide, by decide, hbounds, hpq, hqp, hsame.mp ⟨hpq, hqp⟩, hmodels, hidem⟩

end Pentagon

end ValueAnalysis
