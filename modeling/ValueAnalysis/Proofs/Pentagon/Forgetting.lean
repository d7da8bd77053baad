import ValueAnalysis.Proofs.Env.Monotone
import ValueAnalysis.Proofs.Pentagon.Order
import ValueAnalysis.Proofs.Pentagon.Transfer

/-! Forgetting variables. What is left are the facts about the other variables, each as it was, so forgetting in
two steps is forgetting at once, and the stores may hold anything at the forgotten variables. -/

namespace ValueAnalysis

variable {s t : Store} {test : String → Bool}

lemma Env.Models.forgetIf {env : Env Interval} (h : env.Models s) (hst : ∀ x, test x = false → t x = s x) :
    (env.forgetIf test).Models t := by
  intro x
  rw [get_forgetIf h.reachable]
  cases hx : test x with
  | true => exact Interval.mem_all _
  | false =>
    rw [if_neg Bool.false_ne_true, hst x hx]
    exact h x

namespace Pentagon

variable {p : Pentagon} {x y : String}

namespace WellFormed

lemma forgetIf (hp : p.WellFormed) (test : String → Bool) : (p.forgetIf test).WellFormed :=
  wellFormed_make (Bounds.wellFormed_forgetIf hp.1 test) (hp.2.1.forgetIf test)

variable (hp : p.WellFormed) (hpb : p.isBottom = false)
include hp hpb

lemma forgetIf_eq (test : String → Bool) :
    p.forgetIf test = ⟨Bounds.forgetIf p.bounds test, p.intervals.forgetIf test⟩ := by
  apply make_of_reachable
  · exact Bounds.isBottom_forgetIf (hp.isBottom_bounds.trans hpb) test
  · exact Env.isBottom_forgetIf (hp.isBottom_intervals.trans hpb) test

lemma isBottom_forgetIf (test : String → Bool) : (p.forgetIf test).isBottom = false := by
  rw [← (hp.forgetIf test).isBottom_intervals, hp.forgetIf_eq hpb]
  exact Env.isBottom_forgetIf (hp.isBottom_intervals.trans hpb) test

lemma get_intervals_forgetIf (test : String → Bool) (x : String) :
    (p.forgetIf test).intervals.get x = if test x = true then .all else p.intervals.get x := by
  rw [hp.forgetIf_eq hpb]
  exact Env.get_forgetIf (hp.reachable_intervals hpb) test x

lemma mem_bounds_forgetIf :
    y ∈ (p.forgetIf test).bounds.get x ↔ y ∈ p.bounds.get x ∧ test x = false ∧ test y = false := by
  rw [hp.forgetIf_eq hpb]
  exact Bounds.mem_forgetIf (hp.isBottom_bounds.trans hpb)

lemma not_mentions_forgetIf (hx : test x = true) : ¬ (p.forgetIf test).Mentions x := by
  rw [(hp.forgetIf test).mentions_iff (hp.isBottom_forgetIf hpb test), not_or, not_or, not_not, not_not]
  refine ⟨?_, ?_, ?_⟩
  · rw [hp.get_intervals_forgetIf hpb, if_pos hx]
  · rw [hp.forgetIf_eq hpb, Bounds.get_forgetIf (hp.isBottom_bounds.trans hpb), if_pos hx]
    rfl
  · rintro ⟨y, hy⟩
    have hkept := ((hp.mem_bounds_forgetIf hpb).mp hy).2.2
    rw [hx] at hkept
    cases hkept

lemma same_forgetIf {q : Pentagon} (hq : q.WellFormed) (hqb : q.isBottom = false)
    (hintervals : ∀ x, q.intervals.get x = if test x = true then .all else p.intervals.get x)
    (hbounds : ∀ x y, y ∈ q.bounds.get x ↔ y ∈ p.bounds.get x ∧ test x = false ∧ test y = false) :
    q.same (p.forgetIf test) = true := by
  have hwf := hp.forgetIf test
  have hb := hp.isBottom_forgetIf hpb test
  refine (hq.same_iff_get hwf).mpr ⟨hqb.trans hb.symm, fun x => ⟨?_, ?_⟩⟩
  · apply BoundSet.ext (hq.bounds_ne hqb x) (hwf.bounds_ne hb x)
    intro y
    rw [hbounds, hp.mem_bounds_forgetIf hpb]
  · rw [hintervals, hp.get_intervals_forgetIf hpb]

lemma forgetIf_forgetIf (first second : String → Bool) :
    ((p.forgetIf first).forgetIf second).same (p.forgetIf fun x => first x || second x) = true := by
  have hwf := hp.forgetIf first
  have hb := hp.isBottom_forgetIf hpb first
  apply hp.same_forgetIf hpb (hwf.forgetIf second) (hwf.isBottom_forgetIf hb second)
  · intro x
    rw [hwf.get_intervals_forgetIf hb, hp.get_intervals_forgetIf hpb]
    cases first x <;> cases second x <;> rfl
  · intro x y
    rw [hwf.mem_bounds_forgetIf hb, hp.mem_bounds_forgetIf hpb, Bool.or_eq_false_iff, Bool.or_eq_false_iff]
    tauto

lemma same_forget (x : String) : (p.forget x).same (p.forgetIf fun z => decide (z = x)) = true := by
  have hbounds := hp.isBottom_bounds.trans hpb
  have hintervals := hp.isBottom_intervals.trans hpb
  have hforget : p.forget x = ⟨Bounds.forget p.bounds x, p.intervals.forget x⟩ :=
    make_of_reachable (Bounds.isBottom_forgetIf hbounds _) (Env.isBottom_forget hintervals x)
  have hb : (p.forget x).isBottom = false := by
    rw [← (hp.forget x).isBottom_intervals, hforget]
    exact Env.isBottom_forget hintervals x
  apply hp.same_forgetIf hpb (hp.forget x) hb
  · intro z
    rw [hforget, Env.get_forget_eq]
    exact Env.get_forgetIf (hp.reachable_intervals hpb) _ z
  · intro z y
    rw [hforget]
    exact Bounds.mem_forgetIf hbounds

end WellFormed

lemma Models.forgetIf (hp : p.WellFormed) (h : p.Models s) (hst : ∀ x, test x = false → t x = s x) :
    (p.forgetIf test).Models t := by
  obtain ⟨hb, hi⟩ := hp.models_iff.mp h
  exact models_make (hb.forgetIf hst) (hi.forgetIf hst)

theorem forgetting_projects (hp : p.WellFormed) (hpb : p.isBottom = false) (test : String → Bool) :
    (∀ x, test x = true → ¬ (p.forgetIf test).Mentions x) ∧
      (∀ x, test x = false → (p.forgetIf test).intervals.get x = p.intervals.get x ∧
        ∀ y, test y = false → (y ∈ (p.forgetIf test).bounds.get x ↔ y ∈ p.bounds.get x)) ∧
      (∀ s t, p.Models s → (∀ x, test x = false → t x = s x) → (p.forgetIf test).Models t) ∧
      (∀ other : String → Bool,
        ((p.forgetIf test).forgetIf other).same (p.forgetIf fun x => test x || other x) = true ∧
        ((p.forgetIf other).forgetIf test).same (p.forgetIf fun x => test x || other x) = true) ∧
      ∀ x, (p.forget x).same (p.forgetIf fun z => decide (z = x)) = true := by
  refine ⟨fun x => hp.not_mentions_forgetIf hpb, fun x hx => ⟨?_, fun y hy => ?_⟩,
    fun s t h hst => h.forgetIf hp hst, fun other => ⟨hp.forgetIf_forgetIf hpb test other, ?_⟩,
    hp.same_forget hpb⟩
  · rw [hp.get_intervals_forgetIf hpb, hx, if_neg Bool.false_ne_true]
  · rw [hp.mem_bounds_forgetIf hpb]
    exact and_iff_left ⟨hx, hy⟩
  · have hcomm : (fun x => test x || other x) = fun x => other x || test x := by
      funext x
      exact Bool.or_comm _ _
    rw [hcomm]
    exact hp.forgetIf_forgetIf hpb other test

/-- The set of `x` is emptied and its key goes too, while `y` leaves the set of a variable that stays. -/
theorem forgetting_projects_reused_name :
    let p : Pentagon :=
      ⟨⟨.ofList [("x", .singleton "y"), ("v", .above (.ofList ["w", "y"])), ("y", .singleton "w")], false⟩,
        ⟨.ofList [("y", .ofBounds (.fin 2) (.fin 5)), ("w", .atLeast (.fin 3))], false⟩⟩
    let s : Store := fun z => if z = "y" then 2 else if z = "w" then 9 else 0
    let test : String → Bool := fun z => decide (z = "y")
    let r := p.forgetIf test
    (p.WellFormed ∧ p.isBottom = false ∧ p.Models s) ∧ r.bounds.facts.keys = ["v"] ∧ ¬ r.Mentions "y" ∧
      r.intervals.get "w" = .atLeast (.fin 3) ∧ "w" ∈ r.bounds.get "v" ∧ r.Models (s.set "y" (-7)) ∧
      (r.forgetIf fun z => decide (z = "v")).same (p.forgetIf fun z => test z || decide (z = "v")) = true ∧
      (p.forget "y").same r = true := by
  intro p s test r
  have hp : p.WellFormed := by decide
  have hpb : p.isBottom = false := by decide
  have hs : p.Models s := hp.models_iff.mpr ⟨by decide, by decide⟩
  obtain ⟨hgone, hkept, hmodels, htwice, hforget⟩ := forgetting_projects hp hpb test
  have hw : "w" ∈ r.bounds.get "v" := ((hkept "v" (by decide)).2 "w" (by decide)).mpr (by decide)
  have hst : ∀ z, test z = false → s.set "y" (-7) z = s z := fun z hz =>
    Store.set_ne s (-7) (of_decide_eq_false hz)
  exact ⟨⟨hp, hpb, hs⟩, by decide, hgone "y" (by decide), (hkept "w" (by decide)).1, hw, hmodels s _ hs hst,
    (htwice fun z => decide (z = "v")).1, hforget "y"⟩

end Pentagon

end ValueAnalysis
