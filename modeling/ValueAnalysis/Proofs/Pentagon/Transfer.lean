import ValueAnalysis.Proofs.Pentagon.Decidable

/-! Soundness of the transfer functions along every sequence of commands, and of the answers to conditions: a
store that a run can reach is among those of the pentagon that the abstract run reaches. -/

namespace ValueAnalysis.Pentagon

variable {p : Pentagon} {s t : Store}

lemma one_le_of_isPositiveDifference {e : Expr} {n : Int} (hb : p.bounds.Models s)
    (hd : isPositiveDifference p.bounds e = true) (he : Evaluates s e n) : 1 ≤ n := by
  simp only [isPositiveDifference] at hd
  split at hd
  · rename_i y z loc
    have hlt := hb.lt (of_decide_eq_true hd)
    obtain ⟨k, m, hk, hm, rfl⟩ := Bounds.evaluates_sub he
    have hk := Bounds.evaluates_identifier hk
    have hm := Bounds.evaluates_identifier hm
    omega
  · cases hd

lemma models_assignIntervals {e : Expr} {n : Int} (hb : p.bounds.Models s) (hi : p.intervals.Models s)
    (x : Identifier) (he : Evaluates s e n) : (p.assignIntervals x e).Models (s.set x.name n) := by
  have hassigned := hi.assign x he
  simp only [assignIntervals]
  split
  · rename_i hd
    have hone : n ∈ Interval.atLeast (.fin 1) :=
      Interval.mem_atLeast.mpr ((ExtInt.fin_le_fin 1 n).mpr (one_le_of_isPositiveDifference hb hd he))
    have hget := hassigned x.name
    rw [Store.set_self] at hget
    apply hassigned.put_self
    rw [Store.set_self]
    exact Interval.mem_meet hget hone
  · exact hassigned

namespace WellFormed

lemma assignIntervals (hp : p.WellFormed) (x : Identifier) (e : Expr) : (p.assignIntervals x e).WellFormed := by
  dsimp only [Pentagon.assignIntervals]
  split
  · exact (hp.2.1.assign x e).put x.name _
  · exact hp.2.1.assign x e

lemma assignOpen (hp : p.WellFormed) (x : Identifier) (e : Expr) : (p.assignOpen x e).WellFormed :=
  wellFormed_make (Bounds.wellFormed_assign hp.1 x e) (hp.assignIntervals x e)

lemma assign (hp : p.WellFormed) (x : Identifier) (e : Expr) : (p.assign x e).WellFormed := by
  rw [Pentagon.assign]
  split
  · exact hp
  · exact (hp.assignOpen x e).closure

lemma assumeOpen (hp : p.WellFormed) (e : Expr) : (p.assumeOpen e).WellFormed :=
  wellFormed_make (Bounds.wellFormed_assume hp.1 e) (hp.2.1.assume e)

lemma assume (hp : p.WellFormed) (e : Expr) : (p.assume e).WellFormed := by
  rw [Pentagon.assume]
  split
  · exact hp
  · exact (hp.assumeOpen e).closure

lemma forget (hp : p.WellFormed) (x : String) : (p.forget x).WellFormed :=
  wellFormed_make (Bounds.wellFormed_forgetIf hp.1 _) (hp.2.1.forget x)

lemma run (hp : p.WellFormed) (c : Command) : (c.run p).WellFormed := by
  cases c with
  | assign x e => exact hp.assign x e
  | assume e => exact hp.assume e
  | forget x => exact hp.forget x

lemma runAll (hp : p.WellFormed) (cs : List Command) : (p.runAll cs).WellFormed := by
  induction cs generalizing p with
  | nil => exact hp
  | cons c cs ih => exact ih (hp.run c)

end WellFormed

namespace Models

lemma assign (hp : p.WellFormed) (h : p.Models s) {e : Expr} {n : Int} (x : Identifier)
    (he : Evaluates s e n) : (p.assign x e).Models (s.set x.name n) := by
  obtain ⟨hb, hi⟩ := hp.models_iff.mp h
  simp only [Pentagon.assign, h.1, Bool.false_eq_true, if_false]
  apply Models.closure (hp.assignOpen x e)
  exact models_make (hb.assign x he) (models_assignIntervals hb hi x he)

lemma assume (hp : p.WellFormed) (h : p.Models s) {lazy : Bool} {e : Expr} (he : Truth lazy s e true) :
    (p.assume e).Models s := by
  obtain ⟨hb, hi⟩ := hp.models_iff.mp h
  simp only [Pentagon.assume, h.1, Bool.false_eq_true, if_false]
  apply Models.closure (hp.assumeOpen e)
  exact models_make (hb.assume he) (hi.assume he)

lemma forget (hp : p.WellFormed) (h : p.Models s) (x : String) (n : Int) :
    (p.forget x).Models (s.set x n) := by
  obtain ⟨hb, hi⟩ := hp.models_iff.mp h
  exact models_make (hb.forget x n) (hi.forget x n)

lemma step (hp : p.WellFormed) (h : p.Models s) {c : Command} (hc : c.Step s t) : (c.run p).Models t := by
  cases hc with
  | assign x he => exact Models.assign hp h x he
  | assume he => exact Models.assume hp h he
  | forget s x n => exact Models.forget hp h x n

lemma runAll (hp : p.WellFormed) (h : p.Models s) {cs : List Command} (hr : Run cs s t) :
    (p.runAll cs).Models t := by
  induction hr generalizing p with
  | nil s => exact h
  | cons hc _ ih => exact ih (hp.run _) (Models.step hp h hc)

end Models

theorem run_sound (hp : p.WellFormed) (h : p.Models s) {cs : List Command} (hr : Run cs s t) :
    (p.runAll cs).WellFormed ∧ (p.runAll cs).Models t :=
  ⟨hp.runAll cs, Models.runAll hp h hr⟩

theorem run_sound_guarded_difference :
    let p : Pentagon :=
      ⟨⟨.ofList [("x", .singleton "y")], false⟩, ⟨.ofList [("x", .ofBounds (.fin 0) (.fin 5))], false⟩⟩
    let s : Store := fun v => if v = "y" then 2 else 0
    let difference : Expr := .binary .sub (.identifier ⟨"y", ∅, .null⟩) (.identifier ⟨"x", ∅, .null⟩) .null
    let guard : Expr :=
      .binary .logicalAnd
        (.binary .lt (.identifier ⟨"z", ∅, .null⟩) (.constant (.int 3) .null) .null)
        (.unary .logicalNot
          (.binary .eq (.identifier ⟨"w", ∅, .null⟩) (.identifier ⟨"z", ∅, .null⟩) .null) .null) .null
    let cs : List Command := [.assign ⟨"z", ∅, .null⟩ difference, .assume guard, .forget "x"]
    let t : Store := (s.set "z" 2).set "x" 7
    p.WellFormed ∧ p.Models s ∧ Run cs s t ∧
      (p.runAll cs).intervals.get "z" = .ofBounds (.fin 1) (.fin 2) ∧
      (p.runAll cs).WellFormed ∧ (p.runAll cs).Models t := by
  intro p s difference guard cs t
  have hp : p.WellFormed := by decide
  have hs : p.Models s := hp.models_iff.mpr ⟨by decide, by decide⟩
  have hdifference : Evaluates s difference 2 := .sub _ (.identifier _) (.identifier _)
  have hguard : Truth true (s.set "z" 2) guard true :=
    .conjunction _ (.comparison _ rfl (.identifier _) (.literal 3 _))
      (.negation _ (.comparison _ rfl (.identifier _) (.identifier _)))
  have hr : Run cs s t :=
    .cons (.assign _ hdifference) (.cons (.assume hguard) (.cons (.forget _ _ _) (.nil _)))
  exact ⟨hp, hs, hr, by decide +kernel, run_sound hp hs hr⟩

lemma satisfies_admits (hp : p.WellFormed) (h : p.Models s) {e : Expr} {v : Bool} (he : Truth false s e v) :
    (p.satisfies e).Admits v := by
  obtain ⟨hb, hi⟩ := hp.models_iff.mp h
  exact (Env.satisfies_admits hi he).meet (Bounds.satisfies_admits hb he)

theorem satisfies_sound {e : Expr} {v : Bool} (he : Truth false s e v) :
    (∀ env : Env Interval, env.Models s → (env.satisfies e).Admits v) ∧
      (∀ b : Bounds, b.Models s → (Bounds.satisfies b e).Admits v) ∧
      ∀ p : Pentagon, p.WellFormed → p.Models s → (p.satisfies e).Admits v :=
  ⟨fun _ h => Env.satisfies_admits h he, fun _ h => Bounds.satisfies_admits h he,
    fun _ hp h => satisfies_admits hp h he⟩

theorem satisfies_sound_ordered :
    let p : Pentagon :=
      ⟨⟨.ofList [("x", .singleton "y")], false⟩, ⟨.ofList [("z", .ofBounds (.fin 3) (.fin 4))], false⟩⟩
    let s : Store := fun v => if v = "y" then 2 else if v = "z" then 3 else 0
    let x : Expr := .identifier ⟨"x", ∅, .null⟩
    let y : Expr := .identifier ⟨"y", ∅, .null⟩
    let z : Expr := .identifier ⟨"z", ∅, .null⟩
    let e : Expr :=
      .binary .logicalAnd (.unary .logicalNot (.binary .le y x .null) .null)
        (.binary .logicalOr (.binary .lt z (.constant (.int 3) .null) .null) (.binary .lt x y .null) .null) .null
    p.WellFormed ∧ p.Models s ∧ Truth false s e true ∧ p.satisfies e = .satisfied ∧
      (p.intervals.satisfies e).Admits true ∧ (Bounds.satisfies p.bounds e).Admits true ∧
      (p.satisfies e).Admits true := by
  intro p s x y z e
  have hp : p.WellFormed := by decide
  have hs : p.Models s := hp.models_iff.mpr ⟨by decide, by decide⟩
  have he : Truth false s e true :=
    .conjunction _ (.negation _ (.comparison _ rfl (.identifier _) (.identifier _)))
      (.disjunction _ (.comparison _ rfl (.identifier _) (.literal 3 _))
        (.comparison _ rfl (.identifier _) (.identifier _)))
  obtain ⟨hb, hi⟩ := hp.models_iff.mp hs
  obtain ⟨hintervals, hbounds, hpentagon⟩ := satisfies_sound he
  exact ⟨hp, hs, he, by decide +kernel, hintervals _ hi, hbounds _ hb, hpentagon p hp hs⟩

end ValueAnalysis.Pentagon
