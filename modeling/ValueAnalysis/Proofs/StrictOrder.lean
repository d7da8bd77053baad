import ValueAnalysis.Proofs.Decided
import ValueAnalysis.Proofs.Env.Comparison
import ValueAnalysis.Proofs.Pentagon.Associativity
import ValueAnalysis.Proofs.Pentagon.Precision

/-! Conjunctions of strict comparisons between variables. Once such a condition is assumed, each of its comparisons is
recorded, unless nothing is left. Only the bounds that a variable gets together are searched for a contradiction, so a
cycle through more variables can stay: then some `x < y` is recorded in both directions, and the condition that was just
assumed does not hold of the result. A state with a store in which the condition holds has no such cycle. -/

namespace ValueAnalysis

/-- A conjunction of strict comparisons between variables, with the pairs that it puts in order. -/
inductive Expr.StrictOrder : Expr → List (String × String) → Prop where
  | lt (x y : Identifier) (loc : Value) :
    StrictOrder (.binary .lt (.identifier x) (.identifier y) loc) [(x.name, y.name)]
  | gt (x y : Identifier) (loc : Value) :
    StrictOrder (.binary .gt (.identifier x) (.identifier y) loc) [(y.name, x.name)]
  | and {l r : Expr} {fs gs : List (String × String)} (loc : Value) (hl : StrictOrder l fs) (hr : StrictOrder r gs) :
    StrictOrder (.binary .logicalAnd l r loc) (fs ++ gs)

namespace Satisfiability

variable {a b : Satisfiability}

lemma admits_and_iff : (a.and b).Admits true ↔ a.Admits true ∧ b.Admits true := by
  cases a <;> cases b <;> simp [Satisfiability.and, Admits]

lemma admits_of_meet (h : a.meet b = satisfied) : a.Admits true ∧ b.Admits true := by
  cases a <;> cases b <;> simp_all [Satisfiability.meet, Admits]

lemma meet_satisfied (h : a.Admits true) : a.meet satisfied = satisfied := by
  cases a <;> simp_all [Satisfiability.meet, Admits]

end Satisfiability

namespace Expr.StrictOrder

variable {c : Expr} {fs : List (String × String)}

lemma answer_iff {decide : BinaryOp → Expr → Expr → Satisfiability} (test : String → String → Satisfiability)
    (hlt : ∀ x y : Identifier, decide .lt (.identifier x) (.identifier y) = test x.name y.name)
    (hgt : ∀ x y : Identifier, decide .gt (.identifier x) (.identifier y) = test y.name x.name)
    {P : Satisfiability → Prop} (hand : ∀ {a b}, P (a.and b) ↔ P a ∧ P b) (hc : c.StrictOrder fs) :
    P (Condition.answer decide c) ↔ ∀ f ∈ fs, P (test f.1 f.2) := by
  induction hc with
  | lt x y loc =>
    rw [List.forall_mem_singleton, ← hlt]
    rfl
  | gt x y loc =>
    rw [List.forall_mem_singleton, ← hgt]
    rfl
  | and loc _ _ ihl ihr =>
    rw [List.forall_mem_append, ← ihl, ← ihr]
    exact hand

lemma length_pos (hc : c.StrictOrder fs) : 0 < fs.length := by
  induction hc with
  | and loc _ _ ihl ihr =>
    rw [List.length_append]
    omega
  | _ => exact Nat.one_pos

lemma ordered {lazy : Bool} {s : Store} (hc : c.StrictOrder fs) (ht : Truth lazy s c true) :
    ∀ f ∈ fs, s f.1 < s f.2 := by
  have hholds {op : BinaryOp} {x y : Identifier} {loc : Value} (ho : op.isComparison = true)
      (ht : Truth lazy s (.binary op (.identifier x) (.identifier y) loc) true) :
      op.holds (s x.name) (s y.name) = true := by
    obtain ⟨hand, hor⟩ := BinaryOp.ne_connective ho
    obtain ⟨m, n, hm, hn, heq⟩ := ht.of_binary hand hor
    rw [← Bounds.evaluates_identifier hm, ← Bounds.evaluates_identifier hn]
    exact (heq ho).symm
  induction hc with
  | lt x y loc =>
    rw [List.forall_mem_singleton]
    exact of_decide_eq_true (hholds rfl ht)
  | gt x y loc =>
    rw [List.forall_mem_singleton]
    exact of_decide_eq_true (hholds rfl ht)
  | and loc _ _ ihl ihr =>
    obtain ⟨hl, hr⟩ := ht.of_and rfl
    rw [List.forall_mem_append]
    exact ⟨ihl hl, ihr hr⟩

lemma two_le_length {r : Expr} {gs : List (String × String)} (hc : c.StrictOrder fs) (hr : r.StrictOrder gs) :
    2 ≤ (fs ++ gs).length := by
  have hfs := hc.length_pos
  have hgs := hr.length_pos
  rw [List.length_append]
  omega

end Expr.StrictOrder

namespace Bounds

variable {b : Bounds} {x y : String} {c : Expr} {fs : List (String × String)}

lemma answerLt_eq_satisfied_iff : answerLt b x y = .satisfied ↔ (x ≠ y ∧ x ∉ b.get y) ∧ y ∈ b.get x := by
  rw [answerLt, ← not_or]
  split_ifs <;> simp_all

lemma admits_answerLt_iff : (answerLt b x y).Admits true ↔ x ≠ y ∧ x ∉ b.get y := by
  rw [answerLt, ← not_or]
  split_ifs <;> simp_all [Satisfiability.Admits]

lemma recorded_refineLt (hb : b.isBottom = false) (h : ((refineLt? b x y).getD .bottom).isBottom = false) :
    (x ≠ y ∧ y ∈ ((refineLt? b x y).getD .bottom).get x) ∧ x ∉ ((refineLt? b x y).getD .bottom).get y := by
  have hx := Env.get_ne_bottom hb x
  have hy := Env.get_ne_bottom hb y
  have hxy := BoundSet.meet_ne_unreachable hx hy
  have hsingle : BoundSet.singleton y ≠ .unreachable := BoundSet.above_ne_unreachable _
  by_cases hguard : x = y ∨ x ∈ ((b.get x).meet (b.get y)).meet (.singleton y)
  · rw [refineLt?, if_pos hguard] at h
    cases h
  · rw [refineLt?, if_neg hguard, Option.getD_some]
    rw [not_or, BoundSet.mem_meet hxy hsingle, BoundSet.mem_meet hx hy] at hguard
    have hget := Env.get_put_of_ne_bottom (x := x) (Env.reachable_of_isBottom hb)
      (BoundSet.meet_ne_unreachable hxy hsingle)
    refine ⟨⟨hguard.1, ?_⟩, ?_⟩
    · rw [hget, if_pos rfl, BoundSet.mem_meet hxy hsingle]
      exact .inr (BoundSet.mem_singleton.mpr rfl)
    · rw [hget, if_neg (Ne.symm hguard.1)]
      exact fun hmem => hguard.2 (.inl (.inr hmem))

lemma assume_lt (hb : b.isBottom = false) (x y : Identifier) (loc : Value) :
    Bounds.assume b (.binary .lt (.identifier x) (.identifier y) loc) = (refineLt? b x.name y.name).getD .bottom :=
  Condition.restrict_comparison hb rfl _ _ loc

lemma assume_gt (hb : b.isBottom = false) (x y : Identifier) (loc : Value) :
    Bounds.assume b (.binary .gt (.identifier x) (.identifier y) loc) = (refineLt? b y.name x.name).getD .bottom :=
  Condition.restrict_comparison hb rfl _ _ loc

lemma admits_satisfies_iff (hb : b.isBottom = false) (hc : c.StrictOrder fs) :
    (satisfies b c).Admits true ↔ ∀ f ∈ fs, f.1 ≠ f.2 ∧ f.1 ∉ b.get f.2 := by
  rw [satisfies, hb, if_neg Bool.false_ne_true, hc.answer_iff (answerLt b) (fun _ _ => rfl) (fun _ _ => rfl)
    (P := (Satisfiability.Admits · true)) Satisfiability.admits_and_iff]
  simp only [admits_answerLt_iff]

lemma satisfies_iff (hb : b.isBottom = false) (hc : c.StrictOrder fs) :
    satisfies b c = .satisfied ↔ ∀ f ∈ fs, (f.1 ≠ f.2 ∧ f.1 ∉ b.get f.2) ∧ f.2 ∈ b.get f.1 := by
  rw [satisfies, hb, if_neg Bool.false_ne_true, hc.answer_iff (answerLt b) (fun _ _ => rfl) (fun _ _ => rfl)
    (P := (· = .satisfied)) Satisfiability.and_eq_satisfied_iff]
  simp only [answerLt_eq_satisfied_iff]

section Assume

variable (h : b.WellFormed) (hc : c.StrictOrder fs)
include h hc

lemma recorded_single (hone : fs.length = 1) (ha : (Bounds.assume b c).isBottom = false) :
    ∀ f ∈ fs, (f.1 ≠ f.2 ∧ f.2 ∈ (Bounds.assume b c).get f.1) ∧ f.1 ∉ (Bounds.assume b c).get f.2 := by
  have hb := (assume_below h _).reachable ha
  cases hc with
  | lt x y loc =>
    rw [assume_lt hb] at ha ⊢
    rw [List.forall_mem_singleton]
    exact recorded_refineLt hb ha
  | gt x y loc =>
    rw [assume_gt hb] at ha ⊢
    rw [List.forall_mem_singleton]
    exact recorded_refineLt hb ha
  | and loc hl hr =>
    have htwo := hl.two_le_length hr
    omega

lemma recorded_assume (ha : (Bounds.assume b c).isBottom = false) :
    ∀ f ∈ fs, f.1 ≠ f.2 ∧ f.2 ∈ (Bounds.assume b c).get f.1 := by
  induction hc generalizing b with
  | lt x y loc =>
    intro f hf
    exact (recorded_single h (.lt x y loc) rfl ha f hf).1
  | gt x y loc =>
    intro f hf
    exact (recorded_single h (.gt x y loc) rfl ha f hf).1
  | @and l r fs gs loc _ _ ihl ihr =>
    have hand : Bounds.assume b (.binary .logicalAnd l r loc) = Bounds.assume (Bounds.assume b l) r :=
      Condition.restrict_and b l r loc
    have hleft := wellFormed_assume h l
    have hbelow := assume_below hleft r
    rw [hand] at ha ⊢
    rw [List.forall_mem_append]
    refine ⟨fun f hf => ?_, ihr hleft ha⟩
    -- The second conjunct is assumed below what the first one recorded.
    obtain ⟨hne, hmem⟩ := ihl h (hbelow.reachable ha) f hf
    exact ⟨hne, mem_of_below hbelow ha hmem⟩

lemma satisfies_assume_iff (ha : (Bounds.assume b c).isBottom = false) :
    satisfies (Bounds.assume b c) c = .satisfied ↔ ∀ f ∈ fs, f.1 ∉ (Bounds.assume b c).get f.2 := by
  rw [satisfies_iff ha hc]
  apply forall₂_congr
  intro f hf
  obtain ⟨hne, hmem⟩ := recorded_assume h hc ha f hf
  rw [and_iff_left hmem, and_iff_right hne]

lemma satisfies_assume_of_models {lazy : Bool} {s : Store} (hs : b.Models s) (ht : Truth lazy s c true) :
    (Bounds.assume b c).isBottom = false ∧ satisfies (Bounds.assume b c) c = .satisfied := by
  have hmodels := hs.assume ht
  refine ⟨hmodels.1, (satisfies_assume_iff h hc hmodels.1).mpr fun f hf hmem => ?_⟩
  have hlt := hc.ordered ht f hf
  have hgt := hmodels.lt hmem
  omega

end Assume

end Bounds

lemma Interval.admits_satisfiesLt_iff {a b : Interval} (ha : a.isEmpty = false) (hb : b.isEmpty = false) :
    (satisfiesLt a b).Admits true ↔ ¬ b.high ≤ a.low := by
  obtain ⟨m, hm⟩ := exists_mem ha
  obtain ⟨n, hn⟩ := exists_mem hb
  rw [satisfiesLt]
  split
  case isTrue hlt =>
    have hmn := lt_of_high_lt_low hm hn hlt
    refine iff_of_true ((Satisfiability.admits_iff _ _).mpr (.inr rfl)) fun hle => ?_
    have hnm := le_of_high_le_low hn hm hle
    omega
  case isFalse => split <;> simp_all [Satisfiability.Admits]

namespace Env

variable {env : Env Interval} {c : Expr} {fs : List (String × String)}

lemma decideBinary_identifiers (h : env.isBottom = false) (op : BinaryOp) (x y : Identifier) :
    env.decideBinary op (.identifier x) (.identifier y) =
      Interval.satisfiesBinary op (env.get x.name) (env.get y.name) := by
  rw [decideBinary_of_nonempty (nonempty_eval_identifier h x) (nonempty_eval_identifier h y), eval_identifier h,
    eval_identifier h]

lemma admits_satisfies_iff (h : env.isBottom = false) (hc : c.StrictOrder fs) :
    (env.satisfies c).Admits true ↔ ∀ f ∈ fs, ¬ (env.get f.2).high ≤ (env.get f.1).low := by
  have hne (x : String) := (Interval.ne_empty_iff _).mp (get_ne_bottom h x)
  rw [satisfies, h, if_neg Bool.false_ne_true,
    hc.answer_iff (fun x y => Interval.satisfiesLt (env.get x) (env.get y)) (decideBinary_identifiers h .lt)
      (decideBinary_identifiers h .gt) (P := (Satisfiability.Admits · true)) Satisfiability.admits_and_iff]
  exact forall₂_congr fun f _ => Interval.admits_satisfiesLt_iff (hne f.1) (hne f.2)

lemma exists_models_of_single (h : env.isBottom = false) (hc : c.StrictOrder fs) (hone : fs.length = 1)
    (hne : ∀ f ∈ fs, f.1 ≠ f.2) (ha : (env.assume c).isBottom = false) :
    ∃ s, (env.assume c).Models s ∧ Truth false s c true := by
  obtain ⟨n, hn⟩ := Interval.exists_mem ((Interval.ne_empty_iff _).mp (get_ne_bottom ha ""))
  cases hc with
  | lt x y loc =>
    rw [List.forall_mem_singleton] at hne
    obtain ⟨s, hs, ht, _⟩ := (mem_assume_iff rfl (by decide) h (.names hne) false loc).mp hn
    exact ⟨s, hs.assume ht, ht⟩
  | gt x y loc =>
    rw [List.forall_mem_singleton] at hne
    obtain ⟨s, hs, ht, _⟩ := (mem_assume_iff rfl (by decide) h (.names (Ne.symm hne)) false loc).mp hn
    exact ⟨s, hs.assume ht, ht⟩
  | and loc hl hr =>
    have htwo := hl.two_le_length hr
    omega

end Env

namespace Pentagon

variable {p : Pentagon} {c : Expr} {fs : List (String × String)}

namespace WellFormed

lemma satisfies_iff (h : p.WellFormed) (hb : p.isBottom = false) (hc : c.StrictOrder fs)
    (hrecorded : ∀ f ∈ fs, f.1 ≠ f.2 ∧ f.2 ∈ p.bounds.get f.1) :
    p.satisfies c = .satisfied ↔
      ∀ f ∈ fs, f.1 ∉ p.bounds.get f.2 ∧ ¬ (p.intervals.get f.2).high ≤ (p.intervals.get f.1).low := by
  have hbounds := h.isBottom_bounds.trans hb
  have hintervals := h.isBottom_intervals.trans hb
  rw [forall₂_and, ← Env.admits_satisfies_iff hintervals hc]
  constructor
  · intro hs
    obtain ⟨hi, hadmits⟩ := Satisfiability.admits_of_meet hs
    rw [Bounds.admits_satisfies_iff hbounds hc] at hadmits
    exact ⟨fun f hf => (hadmits f hf).2, hi⟩
  · rintro ⟨hnone, hi⟩
    have hproved : Bounds.satisfies p.bounds c = .satisfied := by
      apply (Bounds.satisfies_iff hbounds hc).mpr
      intro f hf
      obtain ⟨hne, hmem⟩ := hrecorded f hf
      exact ⟨⟨hne, hnone f hf⟩, hmem⟩
    rw [Pentagon.satisfies, hproved]
    exact Satisfiability.meet_satisfied hi

lemma assume_components (h : p.WellFormed) (hq : (p.assume c).isBottom = false) :
    p.isBottom = false ∧ (Bounds.assume p.bounds c).isBottom = false ∧
      (p.assume c).intervals = p.intervals.assume c ∧
      ∀ {x y : String}, y ∈ (p.assume c).bounds.get x →
        y ∈ (Bounds.assume p.bounds c).get x ∨
          ((p.intervals.assume c).get x).high < ((p.intervals.assume c).get y).low := by
  have hp : p.isBottom = false := by
    cases hp : p.isBottom with
    | false => rfl
    | true => rwa [Pentagon.assume, if_pos hp, hp] at hq
  have hassume : p.assume c = (p.assumeOpen c).closure := by
    rw [Pentagon.assume, hp, if_neg Bool.false_ne_true]
  rw [hassume] at hq ⊢
  have hopen := h.assumeOpen c
  have hreach : (p.assumeOpen c).isBottom = false := by
    cases ho : (p.assumeOpen c).isBottom with
    | false => rfl
    | true => rwa [closure_of_isBottom ho, ho] at hq
  rcases make_cases (Bounds.assume p.bounds c) (p.intervals.assume c) with hmake | ⟨hb, _, hmake⟩
  · rw [Pentagon.assumeOpen, hmake] at hreach
    cases hreach
  · refine ⟨hp, hb, ?_, fun hy => ?_⟩
    · rw [hopen.intervals_closure hreach, Pentagon.assumeOpen, hmake]
    · have horders := (hopen.mem_closure_bounds hreach).mp hy
      rwa [Pentagon.assumeOpen, hmake] at horders

section Assume

variable (h : p.WellFormed) (hc : c.StrictOrder fs)
include h hc

lemma recorded_assume (hq : (p.assume c).isBottom = false) :
    ∀ f ∈ fs, f.1 ≠ f.2 ∧ f.2 ∈ (p.assume c).bounds.get f.1 := by
  have hrefines := Refines.assume ⟨h, .refl h.1, .refl h.2.1⟩ c
  have hb := (h.assume c).isBottom_bounds.trans hq
  intro f hf
  obtain ⟨hne, hmem⟩ := Bounds.recorded_assume h.1 hc (hrefines.bounds.reachable hb) f hf
  exact ⟨hne, Bounds.mem_of_below hrefines.bounds hb hmem⟩

lemma satisfies_assume_iff (hq : (p.assume c).isBottom = false) :
    (p.assume c).satisfies c = .satisfied ↔ ∀ f ∈ fs, f.1 ∉ (p.assume c).bounds.get f.2 ∧
      ¬ ((p.assume c).intervals.get f.2).high ≤ ((p.assume c).intervals.get f.1).low :=
  (h.assume c).satisfies_iff hq hc (h.recorded_assume hc hq)

lemma not_refuted_of_single (hone : fs.length = 1) (hq : (p.assume c).isBottom = false) :
    ∀ f ∈ fs, f.1 ∉ (p.assume c).bounds.get f.2 ∧
      ¬ ((p.assume c).intervals.get f.2).high ≤ ((p.assume c).intervals.get f.1).low := by
  obtain ⟨hp, hb, hi, horders⟩ := h.assume_components hq
  have hi' := (h.assume c).isBottom_intervals.trans hq
  rw [hi] at hi' ⊢
  obtain ⟨s, hs, ht⟩ := Env.exists_models_of_single (h.isBottom_intervals.trans hp) hc hone
    (fun f hf => (h.recorded_assume hc hq f hf).1) hi'
  intro f hf
  have hlt := hc.ordered ht f hf
  constructor
  · intro hmem
    rcases horders hmem with hrecorded | himplied
    · exact (Bounds.recorded_single h.1 hc hone hb f hf).2 hrecorded
    · have hgt := Interval.lt_of_high_lt_low (hs f.2) (hs f.1) himplied
      omega
  · intro hle
    have hge := Interval.le_of_high_le_low (hs f.2) (hs f.1) hle
    omega

lemma satisfies_assume_of_models {lazy : Bool} {s : Store} (hs : p.Models s) (ht : Truth lazy s c true) :
    (p.assume c).isBottom = false ∧ (p.assume c).satisfies c = .satisfied := by
  have hmodels := hs.assume h ht
  obtain ⟨hb, hi⟩ := (h.assume c).models_iff.mp hmodels
  refine ⟨hmodels.1, (h.satisfies_assume_iff hc hmodels.1).mpr fun f hf => ?_⟩
  have hlt := hc.ordered ht f hf
  constructor
  · intro hmem
    have hgt := hb.lt hmem
    omega
  · intro hle
    have hge := Interval.le_of_high_le_low (hi f.2) (hi f.1) hle
    omega

end Assume

end WellFormed

end Pentagon

theorem Derivation.strict_order_established (d : Derivation) {c : Expr} {fs : List (String × String)}
    (hc : c.StrictOrder fs) :
    let b : Bounds := d.state id
    let p : Pentagon := d.state Pentagon.closure
    let b' := Bounds.assume b c
    let p' := p.assume c
    (b'.isBottom = true ∨ (∀ f ∈ fs, f.2 ∈ b'.get f.1) ∧
      (Bounds.satisfies b' c = .satisfied ↔ ∀ f ∈ fs, f.1 ∉ b'.get f.2)) ∧
    (p'.isBottom = true ∨ (∀ f ∈ fs, f.2 ∈ p'.bounds.get f.1) ∧
      (p'.satisfies c = .satisfied ↔
        ∀ f ∈ fs, f.1 ∉ p'.bounds.get f.2 ∧ ¬ (p'.intervals.get f.2).high ≤ (p'.intervals.get f.1).low)) ∧
    (fs.length = 1 →
      (b'.isBottom = true ∨ Bounds.satisfies b' c = .satisfied) ∧ (p'.isBottom = true ∨ p'.satisfies c = .satisfied)) ∧
    ∀ (lazy : Bool) (s : Store), Truth lazy s c true →
      (b.Models s → b'.isBottom = false ∧ Bounds.satisfies b' c = .satisfied) ∧
      (p.Models s → p'.isBottom = false ∧ p'.satisfies c = .satisfied) := by
  intro b p b' p'
  have hb : b.WellFormed := (Bounds.preserved.state d).1
  have hp : p.WellFormed := d.wellFormed
  refine ⟨?_, ?_, fun hone => ⟨?_, ?_⟩, fun lazy s ht => ⟨fun hs => ?_, fun hs => ?_⟩⟩
  · cases ha : b'.isBottom with
    | true => exact .inl rfl
    | false =>
      exact .inr ⟨fun f hf => (Bounds.recorded_assume hb hc ha f hf).2, Bounds.satisfies_assume_iff hb hc ha⟩
  · cases hq : p'.isBottom with
    | true => exact .inl rfl
    | false => exact .inr ⟨fun f hf => (hp.recorded_assume hc hq f hf).2, hp.satisfies_assume_iff hc hq⟩
  · cases ha : b'.isBottom with
    | true => exact .inl rfl
    | false =>
      apply Or.inr
      apply (Bounds.satisfies_assume_iff hb hc ha).mpr
      exact fun f hf => (Bounds.recorded_single hb hc hone ha f hf).2
  · cases hq : p'.isBottom with
    | true => exact .inl rfl
    | false => exact .inr ((hp.satisfies_assume_iff hc hq).mpr (hp.not_refuted_of_single hc hone hq))
  · exact Bounds.satisfies_assume_of_models hb hc hs ht
  · exact hp.satisfies_assume_of_models hc hs ht

/-- `(x < y ∧ z < x) ∧ w > y` where `z` is 4 or 6, in a store with `z = 4`. -/
theorem Derivation.strict_order_established_chain :
    let var (v : String) : Identifier := ⟨v, ∅, .null⟩
    let compare (op : BinaryOp) (u v : String) : Expr := .binary op (.identifier (var u)) (.identifier (var v)) .null
    let both (l r : Expr) : Expr := .binary .logicalAnd l r .null
    let c := both (both (compare .lt "x" "y") (compare .lt "z" "x")) (compare .gt "w" "y")
    let assigned (n : Int) : Derivation := .assign .top (var "z") (.constant (.int n) .null)
    let d : Derivation := .join (assigned 4) (assigned 6)
    let b : Bounds := d.state id
    let p : Pentagon := d.state Pentagon.closure
    let s : Store := fun v => if v = "z" then 4 else if v = "x" then 5 else if v = "y" then 6 else 7
    c.StrictOrder [("x", "y"), ("z", "x"), ("y", "w")] ∧ Truth false s c true ∧ b.Models s ∧ p.Models s ∧
      (Bounds.assume b c).isBottom = false ∧ Bounds.satisfies (Bounds.assume b c) c = .satisfied ∧
      (p.assume c).isBottom = false ∧ (p.assume c).satisfies c = .satisfied := by
  intro var compare both c assigned d b p s
  have hc : c.StrictOrder [("x", "y"), ("z", "x"), ("y", "w")] := .and _ (.and _ (.lt _ _ _) (.lt _ _ _)) (.gt _ _ _)
  have hcompare (op : BinaryOp) (u v : String) (ho : op.isComparison = true) (h : op.holds (s u) (s v) = true) :
      Truth false s (compare op u v) true := by
    rw [← h]
    exact .comparison .null ho (.identifier (var u)) (.identifier (var v))
  have ht : Truth false s c true :=
    .conjunction .null
      (.conjunction .null (hcompare .lt "x" "y" rfl (by decide)) (hcompare .lt "z" "x" rfl (by decide)))
      (hcompare .gt "w" "y" rfl (by decide))
  have hb : b.Models s := by decide +kernel
  have hp : p.Models s := d.wellFormed.models_iff.mpr ⟨by decide +kernel, by decide +kernel⟩
  obtain ⟨_, _, _, hstore⟩ := d.strict_order_established hc
  obtain ⟨hbounds, hpentagon⟩ := hstore false s ht
  exact ⟨hc, ht, hb, hp, (hbounds hb).1, (hbounds hb).2, hpentagon hp⟩

/-- A cycle of three comparisons is recorded as it stands. Beside `z = 4` and `w = 6` the intervals of `x` and `y` meet
in 5 after `z < x` and `y < w`, too late for the `x < y` that was assumed before. -/
theorem Derivation.strict_order_cycle_unnoticed :
    let var (v : String) : Identifier := ⟨v, ∅, .null⟩
    let below (u v : String) : Expr := .binary .lt (.identifier (var u)) (.identifier (var v)) .null
    let both (l r : Expr) : Expr := .binary .logicalAnd l r .null
    let cycle := both (both (below "x" "y") (below "y" "z")) (below "z" "x")
    let squeeze := both (both (below "x" "y") (below "z" "x")) (below "y" "w")
    let b : Bounds := Derivation.top.state id
    let p : Pentagon := Derivation.top.state Pentagon.closure
    let assigned : Derivation :=
      .assign (.assign .top (var "z") (.constant (.int 4) .null)) (var "w") (.constant (.int 6) .null)
    let q : Pentagon := assigned.state Pentagon.closure
    cycle.StrictOrder [("x", "y"), ("y", "z"), ("z", "x")] ∧
      squeeze.StrictOrder [("x", "y"), ("z", "x"), ("y", "w")] ∧
      ((Bounds.assume b cycle).isBottom = false ∧ Bounds.satisfies (Bounds.assume b cycle) cycle = .notSatisfied) ∧
      ((p.assume cycle).isBottom = false ∧ (p.assume cycle).satisfies cycle = .notSatisfied) ∧
      (q.assume squeeze).isBottom = false ∧ (q.assume squeeze).satisfies squeeze = .bottom := by
  intro var below both cycle squeeze b p assigned q
  refine ⟨?_, ?_, by decide +kernel, by decide +kernel, by decide +kernel⟩
  · exact .and _ (.and _ (.lt _ _ _) (.lt _ _ _)) (.lt _ _ _)
  · exact .and _ (.and _ (.lt _ _ _) (.lt _ _ _)) (.lt _ _ _)

end ValueAnalysis
