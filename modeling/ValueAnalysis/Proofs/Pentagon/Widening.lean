import ValueAnalysis.Proofs.Pentagon.Order

/-! What a widening covers. It always covers its second argument, so it covers the join of a loop head with
what the body made of it, which is what a loop hands to it. Of two states that are not in order it may keep a
bound that only the second one records, and then it does not cover the first. -/

namespace ValueAnalysis

namespace Bounds

variable {a b : Bounds}

lemma forall_mem_widen (ha : a.isBottom = false) (hb : b.isBottom = false) {known : String → String → Prop} :
    (∀ x, ∀ y ∈ (a.widen b).get x, known x y) ↔
      ∀ x, a.get x ≠ .top → (∀ y ∈ a.get x, y ∈ b.get x) → ∀ y ∈ b.get x, known x y := by
  refine forall_congr' fun x => ?_
  rw [Env.get_widen ha hb]
  constructor
  · intro h hne hsub y hy
    exact h y ((BoundSet.mem_widen (Env.get_ne_bottom ha x) (Env.get_ne_bottom hb x)).mpr ⟨hne, hsub, hy⟩)
  · intro h y hy
    obtain ⟨hne, hsub, hyb⟩ := (BoundSet.mem_widen (Env.get_ne_bottom ha x) (Env.get_ne_bottom hb x)).mp hy
    exact h hne hsub y hyb

lemma leq_widen_right (a b : Bounds) : b.leq (a.widen b) = true := by
  cases ha : a.isBottom with
  | true =>
    rw [Env.widen_of_isBottom_left ha]
    exact Env.leq_refl b
  | false =>
    cases hb : b.isBottom with
    | true => simp [Env.leq, hb]
    | false =>
      rw [leq_iff hb (Env.isBottom_widen ha hb)]
      intro x y hy
      rw [Env.get_widen ha hb] at hy
      exact BoundSet.mem_of_mem_widen (Env.get_ne_bottom hb x) hy

lemma join_leq_widen_iff (a b : Bounds) :
    (a.join b).leq (a.widen b) = true ↔ a.isBottom = true ∨ b.isBottom = true ∨
      ∀ x, a.get x ≠ .top → (∀ y ∈ a.get x, y ∈ b.get x) → ∀ y ∈ b.get x, y ∈ a.get x := by
  cases ha : a.isBottom with
  | true =>
    rw [Env.join_of_isBottom_left ha]
    exact iff_of_true (leq_widen_right a b) (.inl rfl)
  | false =>
    cases hb : b.isBottom with
    | true =>
      rw [Env.join_of_isBottom_right ha hb, Env.widen_of_isBottom_right ha hb]
      exact iff_of_true (Env.leq_refl a) (.inr (.inl rfl))
    | false =>
      rw [leq_iff (Env.isBottom_join ha hb) (Env.isBottom_widen ha hb), ← forall_mem_widen ha hb]
      simp only [Bool.false_eq_true, false_or]
      refine forall_congr' fun x => forall₂_congr fun y hy => ?_
      rw [Env.get_widen ha hb] at hy
      rw [Env.get_join ha hb]
      have hmem := BoundSet.mem_join (y := y) (Env.get_ne_bottom ha x) (Env.get_ne_bottom hb x)
      exact hmem.trans (and_iff_left (BoundSet.mem_of_mem_widen (Env.get_ne_bottom hb x) hy))

lemma join_leq_widen_of_leq (h : a.leq b = true) : (a.join b).leq (a.widen b) = true := by
  rw [join_leq_widen_iff]
  cases ha : a.isBottom with
  | true => exact .inl rfl
  | false =>
    cases hb : b.isBottom with
    | true => exact .inr (.inl rfl)
    | false => exact .inr (.inr fun x _ _ => (leq_iff ha hb).mp h x)

end Bounds

namespace Pentagon

variable {p q : Pentagon}

namespace WellFormed

lemma leq_widen_right (hp : p.WellFormed) (hq : q.WellFormed) : q.leq (p.widen q) = true := by
  cases hpb : p.isBottom with
  | true =>
    rw [widen_of_isBottom_left hpb]
    exact hq.leq_refl
  | false =>
    cases hqb : q.isBottom with
    | true => exact hq.leq_of_isBottom hqb _
    | false =>
      refine (hq.leq_iff (hp.widen hq) hqb).mpr ⟨hp.isBottom_widen hq hpb hqb, fun x => ?_, fun x y hy => .inl ?_⟩
      · rw [hp.get_intervals_widen hq hpb hqb]
        exact Interval.leq_widen_right (hp.nonempty hpb x) (hq.nonempty hqb x)
      · rw [hp.get_bounds_widen hq hpb hqb] at hy
        exact BoundSet.mem_of_mem_widen (hq.bounds_ne hqb x) hy

lemma join_orders_iff (hp : p.WellFormed) (hq : q.WellFormed) (hpb : p.isBottom = false)
    (hqb : q.isBottom = false) {x y : String} (hy : y ∈ q.bounds.get x) :
    (p.join q).Orders x y ↔ p.Orders x y := by
  constructor
  · exact Orders.of_leq hp (hp.join hq) hpb (hp.leq_join_left hq)
  · intro h
    exact .inl ((hp.mem_join_bounds hq hpb hqb).mpr ⟨h, .inl hy, .inr hy⟩)

lemma join_leq_widen_iff (hp : p.WellFormed) (hq : q.WellFormed) :
    (p.join q).leq (p.widen q) = true ↔ p.isBottom = true ∨ q.isBottom = true ∨
      ∀ x, p.bounds.get x ≠ .top → (∀ y ∈ p.bounds.get x, y ∈ q.bounds.get x) →
        ∀ y ∈ q.bounds.get x, p.Orders x y := by
  cases hpb : p.isBottom with
  | true =>
    rw [join_of_isBottom_left hpb]
    exact iff_of_true (hp.leq_widen_right hq) (.inl rfl)
  | false =>
    cases hqb : q.isBottom with
    | true =>
      rw [join_of_isBottom_right hpb hqb, widen_of_isBottom_right hpb hqb]
      exact iff_of_true hp.leq_refl (.inr (.inl rfl))
    | false =>
      have hbounds : (p.widen q).bounds = p.bounds.widen q.bounds := by rw [hp.widen_eq hq hpb hqb]
      have hintervals : ∀ x, ((p.join q).intervals.get x).leq ((p.widen q).intervals.get x) = true := by
        intro x
        rw [hp.get_intervals_join hq hpb hqb, hp.get_intervals_widen hq hpb hqb]
        apply Interval.hull_leq
        · exact Interval.leq_widen_left (hp.nonempty hpb x) (hq.nonempty hqb x)
        · exact Interval.leq_widen_right (hp.nonempty hpb x) (hq.nonempty hqb x)
      have hpb' := hp.isBottom_bounds.trans hpb
      have hqb' := hq.isBottom_bounds.trans hqb
      rw [(hp.join hq).leq_iff (hp.widen hq) (hp.isBottom_join hq hpb),
        and_iff_right (hp.isBottom_widen hq hpb hqb), and_iff_right hintervals, hbounds,
        ← Bounds.forall_mem_widen hpb' hqb']
      simp only [Bool.false_eq_true, false_or]
      -- Only bounds that `q` records are left to test, and on those the join knows what `p` knows.
      refine forall_congr' fun x => forall₂_congr fun y hy => hp.join_orders_iff hq hpb hqb ?_
      rw [Env.get_widen hpb' hqb'] at hy
      exact BoundSet.mem_of_mem_widen (hq.bounds_ne hqb x) hy

lemma join_leq_widen_of_leq (hp : p.WellFormed) (hq : q.WellFormed) (h : p.leq q = true) :
    (p.join q).leq (p.widen q) = true := by
  rw [hp.join_leq_widen_iff hq]
  cases hpb : p.isBottom with
  | true => exact .inl rfl
  | false =>
    obtain ⟨_, _, horders⟩ := (hp.leq_iff hq hpb).mp h
    exact .inr (.inr fun x _ _ => horders x)

end WellFormed

theorem widening_covers_join :
    (∀ a b : Bounds,
      ((a.join b).leq (a.widen b) = true ↔ a.isBottom = true ∨ b.isBottom = true ∨
        ∀ x, a.get x ≠ .top → (∀ y ∈ a.get x, y ∈ b.get x) → ∀ y ∈ b.get x, y ∈ a.get x) ∧
      (a.leq b = true → (a.join b).leq (a.widen b) = true) ∧
      (a.join b).leq (a.widen (a.join b)) = true) ∧
    ∀ p q : Pentagon, p.WellFormed → q.WellFormed →
      ((p.join q).leq (p.widen q) = true ↔ p.isBottom = true ∨ q.isBottom = true ∨
        ∀ x, p.bounds.get x ≠ .top → (∀ y ∈ p.bounds.get x, y ∈ q.bounds.get x) →
          ∀ y ∈ q.bounds.get x, p.Orders x y) ∧
      (p.leq q = true → (p.join q).leq (p.widen q) = true) ∧
      (p.join q).leq (p.widen (p.join q)) = true := by
  constructor
  · intro a b
    exact ⟨Bounds.join_leq_widen_iff a b, Bounds.join_leq_widen_of_leq, Bounds.leq_widen_right a (a.join b)⟩
  · intro p q hp hq
    exact ⟨hp.join_leq_widen_iff hq, hp.join_leq_widen_of_leq hq, hp.leq_widen_right (hp.join hq)⟩

theorem widening_covers_join_implied_bound :
    let intervals : Env Interval :=
      ⟨.ofList [("x", .ofBounds (.fin 0) (.fin 1)), ("y", .ofBounds (.fin 5) (.fin 6))], false⟩
    let p : Pentagon := ⟨⟨.ofList [("x", .singleton "z")], false⟩, intervals⟩
    let q : Pentagon := ⟨⟨.ofList [("x", .above (.ofList ["y", "z"]))], false⟩, intervals⟩
    p.WellFormed ∧ q.WellFormed ∧ "y" ∉ p.bounds.get "x" ∧ "y" ∈ (p.widen q).bounds.get "x" ∧
      p.leq q = true ∧ (p.join q).leq (p.widen q) = true ∧
      (∀ x, p.bounds.get x ≠ .top → (∀ y ∈ p.bounds.get x, y ∈ q.bounds.get x) →
        ∀ y ∈ q.bounds.get x, p.Orders x y) ∧
      (p.join q).leq (p.widen (p.join q)) = true := by
  intro intervals p q
  have hp : p.WellFormed := by decide
  have hq : q.WellFormed := by decide
  have hle : p.leq q = true := by decide
  have hpb : ¬ p.isBottom = true := by decide
  have hqb : ¬ q.isBottom = true := by decide
  obtain ⟨hiff, hordered, hjoined⟩ := widening_covers_join.2 p q hp hq
  have hcovers := hordered hle
  exact ⟨hp, hq, by decide, by decide, hle, hcovers,
    ((hiff.mp hcovers).resolve_left hpb).resolve_left hqb, hjoined⟩

theorem widening_outgrows_join :
    let a : Bounds := ⟨.ofList [("x", .singleton "y")], false⟩
    let b : Bounds := ⟨.ofList [("x", .above (.ofList ["y", "z"]))], false⟩
    let p : Pentagon := ⟨a, .top⟩
    let q : Pentagon := ⟨b, .top⟩
    (a.WellFormed ∧ b.WellFormed ∧ (a.join b).leq (a.widen b) = false) ∧
      p.WellFormed ∧ q.WellFormed ∧ (p.join q).leq (p.widen q) = false := by
  decide

end Pentagon

end ValueAnalysis
