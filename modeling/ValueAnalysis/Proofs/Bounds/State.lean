import ValueAnalysis.Proofs.Bounds.BoundSet
import ValueAnalysis.Proofs.Condition

/-! Soundness of strict upper bounds. An assignment keeps the bounds that do not mention the assigned
variable, and every bound it records follows from those. -/

namespace ValueAnalysis.Bounds

open AbstractDomain (bottom top)

variable {a b : Bounds} {s t : Store}

lemma leq_iff (ha : a.isBottom = false) (hb : b.isBottom = false) :
    a.leq b = true ↔ ∀ x, ∀ y ∈ b.get x, y ∈ a.get x := by
  rw [Env.leq_iff ha, and_iff_right hb]
  exact forall_congr' fun x => BoundSet.leq_iff (Env.get_ne_bottom ha x) (Env.get_ne_bottom hb x)

lemma isBottom_meet (ha : a.isBottom = false) (hb : b.isBottom = false) : (a.meet b).isBottom = false :=
  (Env.isBottom_meet_iff ha hb).mpr fun x =>
    BoundSet.meet_ne_unreachable (Env.get_ne_bottom ha x) (Env.get_ne_bottom hb x)

lemma mem_meet (ha : a.isBottom = false) (hb : b.isBottom = false) {x y : String} :
    y ∈ (a.meet b).get x ↔ y ∈ a.get x ∨ y ∈ b.get x := by
  rw [Env.get_meet ha hb (isBottom_meet ha hb)]
  exact BoundSet.mem_meet (Env.get_ne_bottom ha x) (Env.get_ne_bottom hb x)

lemma models_iff :
    b.Models s ↔ b.unreachable = false ∧ ∀ x, b.get x ≠ bottom ∧ ∀ y ∈ b.get x, s x < s y := by
  rw [Bounds.Models, Env.isBottom_eq_false_iff, and_assoc]
  refine and_congr_right fun _ => ?_
  constructor
  · rintro ⟨hb, hm⟩ x
    exact ⟨hb x, hm x⟩
  · intro h
    exact ⟨fun x => (h x).1, fun x => (h x).2⟩

lemma Models.reachable (h : b.Models s) : b.unreachable = false := (models_iff.mp h).1

lemma Models.get_ne (h : b.Models s) (x : String) : b.get x ≠ .unreachable := ((models_iff.mp h).2 x).1

lemma Models.lt (h : b.Models s) {x y : String} (hy : y ∈ b.get x) : s x < s y := h.2 x y hy

lemma Models.meet (ha : a.Models s) (hb : b.Models s) : Models (a.meet b) s := by
  refine ⟨isBottom_meet ha.1 hb.1, fun x y hy => ?_⟩
  rcases (mem_meet ha.1 hb.1).mp hy with hy | hy
  · exact ha.lt hy
  · exact hb.lt hy

lemma Models.join_left (h : a.Models s) (b : Bounds) : Models (a.join b) s := by
  cases hb : b.isBottom with
  | true => rwa [Env.join_of_isBottom_right h.1 hb]
  | false =>
    refine ⟨Env.isBottom_join h.1 hb, fun x y hy => ?_⟩
    rw [Env.get_join h.1 hb] at hy
    exact h.lt ((BoundSet.mem_join (h.get_ne x) (Env.get_ne_bottom hb x)).mp hy).1

lemma Models.join_right (a : Bounds) (h : b.Models s) : Models (a.join b) s := by
  cases ha : a.isBottom with
  | true => rwa [Env.join_of_isBottom_left ha]
  | false =>
    refine ⟨Env.isBottom_join ha h.1, fun x y hy => ?_⟩
    rw [Env.get_join ha h.1] at hy
    exact h.lt ((BoundSet.mem_join (Env.get_ne_bottom ha x) (h.get_ne x)).mp hy).2

lemma Models.widen_right (a : Bounds) (h : b.Models s) : Models (a.widen b) s := by
  cases ha : a.isBottom with
  | true => rwa [Env.widen_of_isBottom_left ha]
  | false =>
    refine ⟨Env.isBottom_widen ha h.1, fun x y hy => ?_⟩
    rw [Env.get_widen ha h.1] at hy
    exact h.lt (BoundSet.mem_of_mem_widen (h.get_ne x) hy)

lemma Models.put (h : b.Models s) {x : String} {v : BoundSet} (hv : v ≠ .unreachable)
    (hx : ∀ y ∈ v, s x < s y) : Models (b.put x v) s := by
  refine ⟨Env.isBottom_put h.1 hv, fun z y hy => ?_⟩
  rw [Env.get_put_of_ne_bottom h.reachable hv] at hy
  by_cases hz : z = x
  · rw [if_pos hz] at hy
    exact hz ▸ hx y hy
  · rw [if_neg hz] at hy
    exact h.lt hy

lemma get_dropMentions (h : b.unreachable = false) (x z : String) :
    (⟨dropMentions b.facts x, false⟩ : Bounds).get z = if z = x then top else (b.get z).erase x := by
  rw [Env.get_eq rfl, Env.get_eq h, dropMentions, Table.get?_filterMap]
  by_cases hz : z = x
  · cases b.facts.get? z <;> simp [hz]
  · cases b.facts.get? z with
    | none => simp [hz]; rfl
    | some v => simp only [hz, if_false, Option.bind_some, Env.getD_unlessTop, Option.getD_some]

lemma models_dropMentions (h : b.Models s) (x : String) (n : Int) :
    Models ⟨dropMentions b.facts x, false⟩ (s.set x n) := by
  refine models_iff.mpr ⟨rfl, fun z => ?_⟩
  rw [get_dropMentions h.reachable]
  by_cases hz : z = x
  · rw [if_pos hz]
    exact ⟨LawfulDomain.top_ne_bottom, fun y hy => absurd hy BoundSet.not_mem_top⟩
  · rw [if_neg hz]
    refine ⟨BoundSet.erase_ne_unreachable (h.get_ne z), fun y hy => ?_⟩
    obtain ⟨hy, hne⟩ := BoundSet.mem_erase.mp hy
    rw [Store.set_ne s n hz, Store.set_ne s n hne]
    exact h.lt hy

lemma evaluates_literal {r : Expr} {c n : Int} (hc : r.integerLiteral? = some c) (h : Evaluates s r n) :
    n = c := by
  cases h with
  | literal k loc => exact Option.some.inj hc
  | constant v loc k hv => simp [Expr.integerLiteral?, hv] at hc
  | _ => simp [Expr.integerLiteral?] at hc

lemma evaluates_add {l r : Expr} {loc : Value} {k : Int} (h : Evaluates s (.binary .add l r loc) k) :
    ∃ m n, Evaluates s l m ∧ Evaluates s r n ∧ k = m + n := by
  cases h with
  | add loc hl hr => exact ⟨_, _, hl, hr, rfl⟩
  | binary op loc k hl hr ho => simp [BinaryOp.isArithmetic] at ho

lemma evaluates_sub {l r : Expr} {loc : Value} {k : Int} (h : Evaluates s (.binary .sub l r loc) k) :
    ∃ m n, Evaluates s l m ∧ Evaluates s r n ∧ k = m - n := by
  cases h with
  | sub loc hl hr => exact ⟨_, _, hl, hr, rfl⟩
  | binary op loc k hl hr ho => simp [BinaryOp.isArithmetic] at ho

lemma evaluates_identifier {x : Identifier} {n : Int} (h : Evaluates s (.identifier x) n) : n = s x.name := by
  cases h
  rfl

lemma offsetSource_ne {target y : String} {e : Expr} (h : offsetSource? target e = some y) : y ≠ target := by
  revert h
  fun_cases offsetSource? target e with
  | case1 z r loc c hc hcond | case4 l z loc c hc hcond | case7 z r loc _ c hc hcond =>
    intro h
    obtain rfl := Option.some.inj h
    exact hcond.1
  | _ =>
    intro h
    cases h

lemma offsetSource_lt {target y : String} {e : Expr} {n : Int} (h : offsetSource? target e = some y)
    (he : Evaluates s e n) : n < s y := by
  revert h
  fun_cases offsetSource? target e with
  | case1 z r loc c hc hcond =>
    intro h
    obtain rfl := Option.some.inj h
    obtain ⟨m, k, hm, hk, rfl⟩ := evaluates_sub he
    have hm := evaluates_identifier hm
    have hk := evaluates_literal hc hk
    omega
  | case4 l z loc c hc hcond =>
    intro h
    obtain rfl := Option.some.inj h
    obtain ⟨m, k, hm, hk, rfl⟩ := evaluates_add he
    have hm := evaluates_literal hc hm
    have hk := evaluates_identifier hk
    omega
  | case7 z r loc _ c hc hcond =>
    intro h
    obtain rfl := Option.some.inj h
    obtain ⟨m, k, hm, hk, rfl⟩ := evaluates_add he
    have hm := evaluates_identifier hm
    have hk := evaluates_literal hc hk
    omega
  | _ =>
    intro h
    cases h

lemma get_insert (facts : Table BoundSet) (x : String) (v : BoundSet) (z : String) :
    (⟨facts.insert x v, false⟩ : Bounds).get z = if z = x then v else (⟨facts, false⟩ : Bounds).get z := by
  rw [Env.get_eq rfl, Env.get_eq rfl, Table.get?_insert]
  split <;> rfl

lemma Models.assign (h : b.Models s) {e : Expr} {n : Int} (x : Identifier) (he : Evaluates s e n) :
    (Bounds.assign b x e).Models (s.set x.name n) := by
  have hkept := models_dropMentions h x.name n
  simp only [Bounds.assign, h.1, Bool.false_eq_true, if_false]
  cases hsource : offsetSource? x.name e with
  | none => exact hkept
  | some y =>
    have hy : n < s.set x.name n y := by
      rw [Store.set_ne s n (offsetSource_ne hsource)]
      exact offsetSource_lt hsource he
    have hget : ((dropMentions b.facts x.name).get? y).getD .top =
        (⟨dropMentions b.facts x.name, false⟩ : Bounds).get y := rfl
    dsimp only
    rw [hget]
    refine models_iff.mpr ⟨rfl, fun z => ?_⟩
    rw [get_insert]
    by_cases hz : z = x.name
    · rw [if_pos hz, hz, Store.set_self]
      refine ⟨BoundSet.insert_ne_unreachable (hkept.get_ne y), fun w hw => ?_⟩
      rcases (BoundSet.mem_insert (hkept.get_ne y)).mp hw with rfl | hw
      · exact hy
      · exact Int.lt_trans hy (hkept.lt hw)
    · rw [if_neg hz]
      exact (models_iff.mp hkept).2 z

lemma mem_dropMentions (hr : b.unreachable = false) {x y z : String} :
    y ∈ (⟨dropMentions b.facts x, false⟩ : Bounds).get z ↔ z ≠ x ∧ y ≠ x ∧ y ∈ b.get z := by
  rw [get_dropMentions hr]
  split
  case isTrue hz => simp [hz, AbstractDomain.top]
  case isFalse hz =>
    rw [BoundSet.mem_erase]
    exact ⟨fun h => ⟨hz, h.2, h.1⟩, fun h => ⟨h.2.2, h.2.1⟩⟩

lemma mem_assign (hb : b.isBottom = false) {x : Identifier} {e : Expr} {y z : String} :
    y ∈ (Bounds.assign b x e).get z ↔ y ≠ x.name ∧
      (z ≠ x.name ∧ y ∈ b.get z ∨
        z = x.name ∧ ∃ w, offsetSource? x.name e = some w ∧ (y = w ∨ y ∈ b.get w)) := by
  have hr := Env.reachable_of_isBottom hb
  simp only [Bounds.assign, hb, Bool.false_eq_true, if_false]
  cases hsource : offsetSource? x.name e with
  | none =>
    dsimp only
    rw [mem_dropMentions hr]
    simp [and_left_comm]
  | some w =>
    have hw := offsetSource_ne hsource
    have hget : ((dropMentions b.facts x.name).get? w).getD .top =
        (⟨dropMentions b.facts x.name, false⟩ : Bounds).get w := rfl
    have hne : (⟨dropMentions b.facts x.name, false⟩ : Bounds).get w ≠ .unreachable := by
      rw [get_dropMentions hr, if_neg hw]
      exact BoundSet.erase_ne_unreachable (Env.get_ne_bottom hb w)
    dsimp only
    rw [hget, get_insert]
    by_cases hz : z = x.name
    · rw [if_pos hz, BoundSet.mem_insert hne, mem_dropMentions hr]
      constructor
      · rintro (rfl | ⟨_, hyx, hy⟩)
        · exact ⟨hw, .inr ⟨hz, y, rfl, .inl rfl⟩⟩
        · exact ⟨hyx, .inr ⟨hz, w, rfl, .inr hy⟩⟩
      · rintro ⟨hyx, ⟨hzx, _⟩ | ⟨_, v, hv, hy⟩⟩
        · exact absurd hz hzx
        · obtain rfl := Option.some.inj hv
          exact hy.imp_right fun hy => ⟨hw, hyx, hy⟩
    · rw [if_neg hz, mem_dropMentions hr]
      simp [hz]

lemma of_mem_assign (hb : b.isBottom = false) {x : Identifier} {e : Expr} {y z : String}
    (h : y ∈ (Bounds.assign b x e).get z) : y ≠ x.name ∧ (z ≠ x.name → y ∈ b.get z) := by
  obtain ⟨hne, ⟨_, hy⟩ | ⟨hz, _⟩⟩ := (mem_assign hb).mp h
  · exact ⟨hne, fun _ => hy⟩
  · exact ⟨hne, fun hne => absurd hz hne⟩

lemma forgetIf_of_isBottom (hb : b.isBottom = true) (test : String → Bool) : Bounds.forgetIf b test = b := by
  simp [Bounds.forgetIf, hb]

lemma get_forgetIf (hb : b.isBottom = false) (test : String → Bool) (x : String) :
    (Bounds.forgetIf b test).get x =
      if test x = true then top else .above ((b.get x).names.filter (!test ·)) := by
  simp only [Bounds.forgetIf, hb, Bool.false_eq_true, if_false]
  rw [Env.get_eq rfl, Env.get_eq (Env.reachable_of_isBottom hb), Table.get?_filterMap]
  cases test x with
  | true => cases b.facts.get? x <;> rfl
  | false =>
    cases b.facts.get? x with
    | none => rfl
    | some v => exact Env.getD_unlessTop _

lemma isBottom_forgetIf (hb : b.isBottom = false) (test : String → Bool) :
    (Bounds.forgetIf b test).isBottom = false := by
  refine Env.isBottom_eq_false_iff.mpr ⟨by simp [Bounds.forgetIf, hb], fun x => ?_⟩
  rw [get_forgetIf hb]
  split
  · exact LawfulDomain.top_ne_bottom
  · exact BoundSet.above_ne_unreachable _

lemma mem_forgetIf (hb : b.isBottom = false) {test : String → Bool} {x y : String} :
    y ∈ (Bounds.forgetIf b test).get x ↔ y ∈ b.get x ∧ test x = false ∧ test y = false := by
  rw [get_forgetIf hb]
  cases hx : test x with
  | true =>
    rw [if_pos rfl]
    exact iff_of_false BoundSet.not_mem_top fun h => absurd h.2.1 (by decide)
  | false =>
    simp only [Bool.false_eq_true, if_false, true_and]
    exact NameSet.mem_filter.trans (and_congr_right fun _ => by rw [Bool.not_eq_true'])

lemma Models.forgetIf (h : b.Models s) {test : String → Bool} (hst : ∀ x, test x = false → t x = s x) :
    (Bounds.forgetIf b test).Models t := by
  refine ⟨isBottom_forgetIf h.1 test, fun x y hy => ?_⟩
  obtain ⟨hy, hxt, hyt⟩ := (mem_forgetIf h.1).mp hy
  rw [hst x hxt, hst y hyt]
  exact h.lt hy

lemma Models.forget (h : b.Models s) (x : String) (n : Int) : (Bounds.forget b x).Models (s.set x n) := by
  apply h.forgetIf
  intro z hz
  exact Store.set_ne s n (by simpa using hz)

lemma answerLt_admits (h : b.Models s) (x y : String) : (answerLt b x y).Admits (decide (s x < s y)) := by
  rw [Satisfiability.admits_iff, answerLt]
  split
  · rename_i hxy
    have hle : s y ≤ s x := by
      rcases hxy with rfl | hxy
      · exact Int.le_refl _
      · exact Int.le_of_lt (h.lt hxy)
    simp [Int.not_lt.mpr hle, Satisfiability.ofBool]
  · split
    · have hlt := h.lt ‹_›
      simp [hlt, Satisfiability.ofBool]
    · exact .inl rfl

lemma answerLe_admits (h : b.Models s) (x y : String) : (answerLe b x y).Admits (decide (s x ≤ s y)) := by
  rw [Satisfiability.admits_iff, answerLe]
  split
  · rename_i hxy
    have hle : s x ≤ s y := by
      rcases hxy with rfl | hxy
      · exact Int.le_refl _
      · exact Int.le_of_lt (h.lt hxy)
    simp [hle, Satisfiability.ofBool]
  · split
    · have hlt := h.lt ‹_›
      simp [Int.not_le.mpr hlt, Satisfiability.ofBool]
    · exact .inl rfl

lemma decideBinary_admits (h : b.Models s) (op : BinaryOp) (x y : Identifier) :
    (decideBinary b op (.identifier x) (.identifier y)).Admits (op.holds (s x.name) (s y.name)) := by
  cases op with
  | lt => exact answerLt_admits h x.name y.name
  | le => exact answerLe_admits h x.name y.name
  | gt => exact answerLt_admits h y.name x.name
  | ge => exact answerLe_admits h y.name x.name
  | _ => exact (Satisfiability.admits_iff _ _).mpr (.inl rfl)

lemma decideBinary_of_not_identifiers {op : BinaryOp} {l r : Expr}
    (h : ∀ x y, ¬ (l = .identifier x ∧ r = .identifier y)) : decideBinary b op l r = .unknown := by
  simp only [decideBinary]
  split
  · exact absurd ⟨rfl, rfl⟩ (h _ _)
  · rfl

lemma decideBinary_sound (h : b.Models s) : Condition.DecidesSoundly s (decideBinary b) where
  comparison {op l r m n} ho hl hr := by
    by_cases hid : ∃ x y, l = .identifier x ∧ r = .identifier y
    · obtain ⟨x, y, rfl, rfl⟩ := hid
      rw [evaluates_identifier hl, evaluates_identifier hr]
      exact decideBinary_admits h op x y
    · rw [decideBinary_of_not_identifiers fun x y hxy => hid ⟨x, y, hxy⟩]
      exact (Satisfiability.admits_iff _ _).mpr (.inl rfl)
  other {op l r m n} ho _ _ := by
    simp only [decideBinary]
    split
    · cases op <;> simp_all [BinaryOp.isComparison]
    · rfl

lemma satisfies_admits (h : b.Models s) {e : Expr} {v : Bool} (he : Truth false s e v) :
    (Bounds.satisfies b e).Admits v := by
  simp only [Bounds.satisfies, h.1]
  exact Condition.answer_admits (decideBinary_sound h) he

lemma Models.meet_lt (h : b.Models s) {x y z : String} (hxy : s x ≤ s y)
    (hz : z ∈ (b.get x).meet (b.get y)) : s x < s z := by
  rcases (BoundSet.mem_meet (h.get_ne x) (h.get_ne y)).mp hz with hz | hz
  · exact h.lt hz
  · exact Int.lt_of_le_of_lt hxy (h.lt hz)

lemma refineLt_models (h : b.Models s) {x y : String} (hxy : s x < s y) :
    ∃ c, refineLt? b x y = some c ∧ c.Models s := by
  have hne := BoundSet.meet_ne_unreachable (h.get_ne x) (h.get_ne y)
  have hsingle : BoundSet.singleton y ≠ .unreachable := BoundSet.above_ne_unreachable _
  have hupdated : ∀ z ∈ ((b.get x).meet (b.get y)).meet (.singleton y), s x < s z := by
    intro z hz
    rcases (BoundSet.mem_meet hne hsingle).mp hz with hz | hz
    · exact h.meet_lt (Int.le_of_lt hxy) hz
    · rwa [BoundSet.mem_singleton.mp hz]
  have hguard : ¬ (x = y ∨ x ∈ ((b.get x).meet (b.get y)).meet (.singleton y)) := by
    rintro (rfl | hx)
    · exact Int.lt_irrefl _ hxy
    · exact Int.lt_irrefl _ (hupdated x hx)
  exact ⟨_, by simp only [refineLt?, hguard, if_false],
    h.put (BoundSet.meet_ne_unreachable hne hsingle) hupdated⟩

lemma refineLe_models (h : b.Models s) {x y : String} (hxy : s x ≤ s y) :
    ∃ c, refineLe? b x y = some c ∧ c.Models s := by
  by_cases heq : x = y
  · exact ⟨b, by simp only [refineLe?, heq, if_true], h⟩
  · have hne := BoundSet.meet_ne_unreachable (h.get_ne x) (h.get_ne y)
    have hupdated : ∀ z ∈ (b.get x).meet (b.get y), s x < s z := fun z hz => h.meet_lt hxy hz
    have hguard : x ∉ (b.get x).meet (b.get y) := fun hx => Int.lt_irrefl _ (hupdated x hx)
    exact ⟨_, by simp only [refineLe?, heq, hguard, if_false], h.put hne hupdated⟩

lemma refineEq_models (h : b.Models s) {x y : String} (hxy : s x = s y) :
    ∃ c, refineEq? b x y = some c ∧ c.Models s := by
  by_cases heq : x = y
  · exact ⟨b, by simp only [refineEq?, heq, if_true], h⟩
  · have hne := BoundSet.meet_ne_unreachable (h.get_ne x) (h.get_ne y)
    have hx : ∀ z ∈ (b.get x).meet (b.get y), s x < s z := fun z hz => h.meet_lt (Int.le_of_eq hxy) hz
    have hy : ∀ z ∈ (b.get x).meet (b.get y), s y < s z := hxy ▸ hx
    have hguard : ¬ (x ∈ (b.get x).meet (b.get y) ∨ y ∈ (b.get x).meet (b.get y)) := by
      rintro (hz | hz)
      · exact Int.lt_irrefl _ (hx x hz)
      · exact Int.lt_irrefl _ (hy y hz)
    exact ⟨_, by simp only [refineEq?, heq, hguard, if_false], (h.put hne hx).put hne hy⟩

lemma refine_models (h : b.Models s) {op : BinaryOp} {x y : Identifier}
    (ho : op.holds (s x.name) (s y.name) = true) :
    ∃ c, refine? b op (.identifier x) (.identifier y) = some c ∧ c.Models s := by
  cases op with
  | lt => exact refineLt_models h (of_decide_eq_true ho)
  | gt => exact refineLt_models h (of_decide_eq_true ho)
  | le => exact refineLe_models h (of_decide_eq_true ho)
  | ge => exact refineLe_models h (of_decide_eq_true ho)
  | eq => exact refineEq_models h (of_decide_eq_true ho)
  | _ => exact ⟨b, rfl, h⟩

lemma refine_of_not_identifiers {op : BinaryOp} {l r : Expr}
    (h : ∀ x y, ¬ (l = .identifier x ∧ r = .identifier y)) : refine b op l r = b := by
  simp only [refine, refine?]
  split
  · exact absurd ⟨rfl, rfl⟩ (h _ _)
  · rfl

lemma refine_sound : Condition.RefinesSoundly Bounds.Models refine where
  join_left b h := h.join_left b
  join_right a h := h.join_right a
  comparison {b s op l r m n} h ho hl hr hholds := by
    by_cases hid : ∃ x y, l = .identifier x ∧ r = .identifier y
    · obtain ⟨x, y, rfl, rfl⟩ := hid
      rw [evaluates_identifier hl, evaluates_identifier hr] at hholds
      obtain ⟨c, hc, hmodels⟩ := refine_models h hholds
      rwa [refine, hc]
    · rwa [refine_of_not_identifiers fun x y hxy => hid ⟨x, y, hxy⟩]
  other {b s op l r m n} h ho _ _ := by
    have hsame : refine? b op l r = some b := by
      simp only [refine?]
      split
      · cases op <;> simp_all [BinaryOp.isComparison]
      · rfl
    rwa [refine, hsame]

lemma Models.assume (h : b.Models s) {lazy : Bool} {e : Expr} (he : Truth lazy s e true) :
    (Bounds.assume b e).Models s :=
  Condition.restrict_sound refine_sound b e he h

lemma wellFormed_filterMap {facts : Table BoundSet} {f : String → BoundSet → Option BoundSet}
    (hf : ∀ x v w, facts.get? x = some v → f x v = some w → w ≠ top ∧ w ≠ bottom) :
    Env.WellFormed ⟨facts.filterMap f, false⟩ := by
  apply Env.wellFormed_of_reachable
  intro x w hw
  rw [Table.get?_filterMap] at hw
  obtain ⟨v, hv, hvw⟩ := Option.bind_eq_some_iff.mp hw
  exact hf x v w hv hvw

lemma unlessTop_spec {v w : BoundSet} (h : Env.unlessTop v = some w) : w = v ∧ w ≠ top := by
  rw [Env.unlessTop] at h
  split at h
  · cases h
  · obtain rfl := Option.some.inj h
    exact ⟨rfl, fun he => ‹¬_› ((LawfulDomain.isTop_iff v).mpr he)⟩

lemma wellFormed_dropMentions (h : b.WellFormed) (x : String) :
    Env.WellFormed ⟨dropMentions b.facts x, false⟩ := by
  apply wellFormed_filterMap
  intro z v w hv hw
  split at hw
  · cases hw
  · obtain ⟨rfl, ht⟩ := unlessTop_spec hw
    exact ⟨ht, BoundSet.erase_ne_unreachable ((Env.wellFormed_iff.mp h).1 z v hv).2⟩

lemma wellFormed_assign (h : b.WellFormed) (x : Identifier) (e : Expr) : (Bounds.assign b x e).WellFormed := by
  have hkept := wellFormed_dropMentions h x.name
  rw [Bounds.assign]
  split
  · exact h
  · dsimp only
    split
    · rename_i y _
      have hne : ((dropMentions b.facts x.name).get? y).getD .top ≠ .unreachable := by
        cases hy : (dropMentions b.facts x.name).get? y with
        | none => exact BoundSet.above_ne_unreachable _
        | some v => exact ((Env.wellFormed_iff.mp hkept).1 y v hy).2
      apply Env.wellFormed_of_reachable
      intro z w hw
      rw [Table.get?_insert] at hw
      split at hw
      · obtain rfl := Option.some.inj hw
        refine ⟨fun he => ?_, BoundSet.insert_ne_unreachable hne⟩
        have hy := (BoundSet.mem_insert (x := y) hne).mpr (.inl rfl)
        rw [he] at hy
        exact BoundSet.not_mem_top hy
      · exact (Env.wellFormed_iff.mp hkept).1 z w hw
    · exact hkept

section Preserves

variable {P : Bounds → Prop} (hput : ∀ {b : Bounds} {x : String} {v : BoundSet}, P b → x ∉ v → P (b.put x v))
include hput

lemma refineLt?_preserves {x y : String} {c : Bounds} (h : P b) (hc : refineLt? b x y = some c) : P c := by
  simp only [refineLt?] at hc
  split at hc
  · cases hc
  · rename_i hguard
    obtain rfl := Option.some.inj hc
    exact hput h fun hx => hguard (.inr hx)

lemma refineLe?_preserves {x y : String} {c : Bounds} (h : P b) (hc : refineLe? b x y = some c) : P c := by
  simp only [refineLe?] at hc
  split at hc
  · obtain rfl := Option.some.inj hc
    exact h
  · split at hc
    · cases hc
    · rename_i hguard
      obtain rfl := Option.some.inj hc
      exact hput h hguard

lemma refineEq?_preserves {x y : String} {c : Bounds} (h : P b) (hc : refineEq? b x y = some c) : P c := by
  simp only [refineEq?] at hc
  split at hc
  · obtain rfl := Option.some.inj hc
    exact h
  · split at hc
    · cases hc
    · rename_i hguard
      obtain rfl := Option.some.inj hc
      exact hput (hput h fun hx => hguard (.inl hx)) fun hy => hguard (.inr hy)

lemma refine?_preserves {op : BinaryOp} {l r : Expr} {c : Bounds} (h : P b)
    (hc : refine? b op l r = some c) : P c := by
  simp only [refine?] at hc
  split at hc
  · split at hc
    · exact refineLt?_preserves hput h hc
    · exact refineLt?_preserves hput h hc
    · exact refineLe?_preserves hput h hc
    · exact refineLe?_preserves hput h hc
    · exact refineEq?_preserves hput h hc
    · obtain rfl := Option.some.inj hc
      exact h
  · obtain rfl := Option.some.inj hc
    exact h

lemma assume_preserves (hbottom : P .bottom) (hjoin : ∀ {a b : Bounds}, P a → P b → P (a.join b)) (h : P b)
    (e : Expr) : P (Bounds.assume b e) := by
  apply Condition.restrict_preserves hbottom hjoin ?_ b e h
  intro a op l r ha
  rw [refine]
  cases hc : refine? a op l r with
  | none => exact hbottom
  | some c => exact refine?_preserves hput ha hc

end Preserves

lemma wellFormed_assume (h : b.WellFormed) (e : Expr) : (Bounds.assume b e).WellFormed :=
  assume_preserves (fun h _ => h.put _ _) Env.wellFormed_bottom Env.WellFormed.join h e

lemma wellFormed_forgetIf (h : b.WellFormed) (test : String → Bool) :
    (Bounds.forgetIf b test).WellFormed := by
  rw [Bounds.forgetIf]
  split
  · exact h
  · apply wellFormed_filterMap
    intro z v w hv hw
    split at hw
    · cases hw
    · obtain ⟨rfl, ht⟩ := unlessTop_spec hw
      exact ⟨ht, BoundSet.above_ne_unreachable _⟩

end ValueAnalysis.Bounds
