import ValueAnalysis.Proofs.Pentagon.Closed
import ValueAnalysis.Proofs.Taint.Lattice
import ValueAnalysis.Semantics.Derivation

/-! What every state that operations lead to has in common: it is canonical, its flag alone says whether it is
unreachable, and no variable is among its own bounds. Each operation is shown to keep this, and the derivation
of a state carries it from the leaves to the root. -/

namespace ValueAnalysis

namespace Derivation

structure Preserved {S : Type} [AbstractState S] (close : S → S) (P : S → Prop) : Prop where
  top : P AbstractDomain.top
  bottom : P AbstractDomain.bottom
  assign : ∀ {s : S} (x : Identifier) (e : Expr), P s → P (AbstractState.assign s x e)
  assume : ∀ {s : S} (e : Expr), P s → P (AbstractState.assume s e)
  smallStep : ∀ {s : S}, P s → P (AbstractState.smallStep s)
  closure : ∀ {s : S}, P s → P (close s)
  forget : ∀ {s : S} (x : String), P s → P (AbstractState.forget s x)
  forgetIf : ∀ {s : S} (test : String → Bool), P s → P (AbstractState.forgetIf s test)
  join : ∀ {a b : S}, P a → P b → P (AbstractDomain.join a b)
  meet : ∀ {a b : S}, P a → P b → P (AbstractDomain.meet a b)
  widen : ∀ {a b : S}, P a → P b → P (AbstractDomain.widen a b)
  narrow : ∀ {a b : S}, P a → P b → P (AbstractDomain.narrow a b)

lemma Preserved.state {S : Type} [AbstractState S] {close : S → S} {P : S → Prop} (h : Preserved close P)
    (d : Derivation) : P (d.state close) := by
  induction d with
  | top => exact h.top
  | bottom => exact h.bottom
  | assign d x e ih => exact h.assign x e ih
  | assume d e ih => exact h.assume e ih
  | smallStep d ih => exact h.smallStep ih
  | closure d ih => exact h.closure ih
  | forget d x ih => exact h.forget x ih
  | forgetIf d test ih => exact h.forgetIf test ih
  | join l r ihl ihr => exact h.join ihl ihr
  | meet l r ihl ihr => exact h.meet ihl ihr
  | widen l r ihl ihr => exact h.widen ihl ihr
  | narrow l r ihl ihr => exact h.narrow ihl ihr

end Derivation

namespace Env

variable {L : Type} [ValueDomain L] [DecidableEq L] [LawfulDomain L]

lemma RefinesCanonically.preserved (hL : RefinesCanonically L) :
    Derivation.Preserved id (WellFormed (L := L)) where
  top := wellFormed_top
  bottom := wellFormed_bottom
  assign x e h := h.assign x e
  assume e h := hL.assume h e
  smallStep h := h
  closure h := h
  forget x h := h.forget x
  forgetIf test h := h.forgetIf test
  join ha hb := ha.join hb
  meet ha hb := ha.meet hb
  widen ha hb := ha.widen hb
  narrow ha hb := ha.narrow hb

end Env

namespace Bounds

variable {a b c : Bounds} {x y : String}

def Irreflexive (b : Bounds) : Prop := ∀ x, x ∉ b.get x

lemma mem_or_mem_of_mem_join (h : y ∈ (a.join b).get x) : y ∈ a.get x ∨ y ∈ b.get x := by
  cases ha : a.isBottom with
  | true =>
    rw [Env.join_of_isBottom_left ha] at h
    exact .inr h
  | false =>
    cases hb : b.isBottom with
    | true =>
      rw [Env.join_of_isBottom_right ha hb] at h
      exact .inl h
    | false =>
      rw [Env.get_join ha hb] at h
      exact .inl ((BoundSet.mem_join (Env.get_ne_bottom ha x) (Env.get_ne_bottom hb x)).mp h).1

lemma mem_or_mem_of_mem_widen (h : y ∈ (a.widen b).get x) : y ∈ a.get x ∨ y ∈ b.get x := by
  cases ha : a.isBottom with
  | true =>
    rw [Env.widen_of_isBottom_left ha] at h
    exact .inr h
  | false =>
    cases hb : b.isBottom with
    | true =>
      rw [Env.widen_of_isBottom_right ha hb] at h
      exact .inl h
    | false =>
      rw [Env.get_widen ha hb] at h
      exact .inr (BoundSet.mem_of_mem_widen (Env.get_ne_bottom hb x) h)

lemma mem_or_mem_of_mem_meet (h : y ∈ (a.meet b).get x) : y ∈ a.get x ∨ y ∈ b.get x := by
  cases ha : a.isBottom with
  | true =>
    rw [Env.meet_of_isBottom_left ha] at h
    exact .inl h
  | false =>
    cases hb : b.isBottom with
    | true =>
      rw [Env.meet_of_isBottom_right ha hb] at h
      exact .inr h
    | false =>
      cases hc : (a.meet b).isBottom with
      | true =>
        -- A meet that comes out unreachable stores nothing.
        have hcombined : (a.meet b).WellFormed := by
          rw [Env.meet_eq ha hb]
          exact Env.WellFormed.combineAll _ a b
        rw [Env.get_of_unreachable (hcombined.isBottom_eq.symm.trans hc)] at h
        exact absurd h BoundSet.not_mem_unreachable
      | false =>
        rw [Env.get_meet ha hb hc] at h
        exact (BoundSet.mem_meet (Env.get_ne_bottom ha x) (Env.get_ne_bottom hb x)).mp h

namespace Irreflexive

lemma of_mem_or_mem (ha : a.Irreflexive) (hb : b.Irreflexive)
    (h : ∀ x y, y ∈ c.get x → y ∈ a.get x ∨ y ∈ b.get x) : c.Irreflexive := by
  intro x hx
  rcases h x x hx with hx | hx
  · exact ha x hx
  · exact hb x hx

lemma top : Irreflexive .top := fun _ => BoundSet.not_mem_top

lemma bottom : Irreflexive .bottom := fun _ => BoundSet.not_mem_unreachable

lemma join (ha : a.Irreflexive) (hb : b.Irreflexive) : Irreflexive (a.join b) :=
  of_mem_or_mem ha hb fun _ _ => mem_or_mem_of_mem_join

lemma widen (ha : a.Irreflexive) (hb : b.Irreflexive) : Irreflexive (a.widen b) :=
  of_mem_or_mem ha hb fun _ _ => mem_or_mem_of_mem_widen

lemma meet (ha : a.Irreflexive) (hb : b.Irreflexive) : Irreflexive (a.meet b) :=
  of_mem_or_mem ha hb fun _ _ => mem_or_mem_of_mem_meet

lemma put (h : b.Irreflexive) {v : BoundSet} (hx : x ∉ v) : Irreflexive (b.put x v) := by
  cases hr : b.unreachable with
  | true =>
    have hput : b.put x v = b := by simp [Env.put, hr]
    rwa [hput]
  | false =>
    by_cases hv : v = .unreachable
    · have hput : b.put x v = .bottom := by simp [Env.put, hr, hv, AbstractDomain.isBottom, BoundSet.isBottom]
      rw [hput]
      exact bottom
    · intro z hz
      rw [Env.get_put_of_ne_bottom hr hv] at hz
      split at hz
      · rename_i hzx
        exact hx (hzx ▸ hz)
      · exact h z hz

lemma assign (h : b.Irreflexive) (x : Identifier) (e : Expr) : Irreflexive (Bounds.assign b x e) := by
  cases hb : b.isBottom with
  | true =>
    have hassign : Bounds.assign b x e = b := by simp [Bounds.assign, hb]
    rwa [hassign]
  | false =>
    intro z hz
    obtain ⟨hne, hmem⟩ := of_mem_assign hb hz
    exact h z (hmem hne)

lemma assume (h : b.Irreflexive) (e : Expr) : Irreflexive (Bounds.assume b e) :=
  assume_preserves (fun h hx => h.put hx) bottom join h e

lemma forgetIf (h : b.Irreflexive) (test : String → Bool) : Irreflexive (Bounds.forgetIf b test) := by
  cases hb : b.isBottom with
  | true => rwa [forgetIf_of_isBottom hb]
  | false =>
    intro z hz
    exact h z ((mem_forgetIf hb).mp hz).1

end Irreflexive

lemma preserved : Derivation.Preserved id fun b : Bounds => b.WellFormed ∧ b.Irreflexive where
  top := ⟨Env.wellFormed_top, .top⟩
  bottom := ⟨Env.wellFormed_bottom, .bottom⟩
  assign x e h := ⟨wellFormed_assign h.1 x e, h.2.assign x e⟩
  assume e h := ⟨wellFormed_assume h.1 e, h.2.assume e⟩
  smallStep h := h
  closure h := h
  forget _ h := ⟨wellFormed_forgetIf h.1 _, h.2.forgetIf _⟩
  forgetIf test h := ⟨wellFormed_forgetIf h.1 test, h.2.forgetIf test⟩
  join ha hb := ⟨ha.1.join hb.1, ha.2.join hb.2⟩
  meet ha hb := ⟨ha.1.meet hb.1, ha.2.meet hb.2⟩
  widen ha hb := ⟨ha.1.widen hb.1, ha.2.widen hb.2⟩
  narrow ha hb := ⟨ha.1.narrow hb.1, ha.2.meet hb.2⟩

end Bounds

namespace Pentagon

structure Consistent (p : Pentagon) : Prop where
  wellFormed : p.WellFormed
  irreflexive : p.bounds.Irreflexive

namespace Consistent

variable {p q : Pentagon} {b : Bounds} {i : Env Interval}

lemma bottom : Pentagon.bottom.Consistent := ⟨wellFormed_bottom, .bottom⟩

lemma make (hb : b.WellFormed) (hirr : b.Irreflexive) (hi : i.WellFormed) : (Pentagon.make b i).Consistent := by
  refine ⟨wellFormed_make hb hi, ?_⟩
  rw [Pentagon.make]
  split
  · exact .bottom
  · exact hirr

lemma not_orders_self (hp : p.Consistent) (x : String) : ¬ p.Orders x x := by
  rintro (hx | hx)
  · exact hp.irreflexive x hx
  · exact Interval.not_high_lt_low _ hx

lemma closure (hp : p.Consistent) : p.closure.Consistent := by
  cases hpb : p.isBottom with
  | true => rwa [closure_of_isBottom hpb]
  | false =>
    refine ⟨hp.wellFormed.closure, fun x hx => ?_⟩
    exact hp.not_orders_self x ((hp.wellFormed.mem_closure_bounds hpb).mp hx)

lemma assign (hp : p.Consistent) (x : Identifier) (e : Expr) : (p.assign x e).Consistent := by
  rw [Pentagon.assign]
  split
  · exact hp
  · refine closure (make (Bounds.wellFormed_assign hp.wellFormed.1 x e) (hp.irreflexive.assign x e) ?_)
    exact hp.wellFormed.assignIntervals x e

lemma assume (hp : p.Consistent) (e : Expr) : (p.assume e).Consistent := by
  rw [Pentagon.assume]
  split
  · exact hp
  · refine closure (make (Bounds.wellFormed_assume hp.wellFormed.1 e) (hp.irreflexive.assume e) ?_)
    exact hp.wellFormed.2.1.assume e

lemma make_forgetIf (hp : p.Consistent) (test : String → Bool) (hi : i.WellFormed) :
    (Pentagon.make (Bounds.forgetIf p.bounds test) i).Consistent :=
  make (Bounds.wellFormed_forgetIf hp.wellFormed.1 test) (hp.irreflexive.forgetIf test) hi

lemma join (hp : p.Consistent) (hq : q.Consistent) : (p.join q).Consistent := by
  cases hpb : p.isBottom with
  | true => rwa [join_of_isBottom_left hpb]
  | false =>
    cases hqb : q.isBottom with
    | true => rwa [join_of_isBottom_right hpb hqb]
    | false =>
      refine ⟨hp.wellFormed.join hq.wellFormed, fun x hx => ?_⟩
      exact hp.not_orders_self x ((hp.wellFormed.mem_join_bounds hq.wellFormed hpb hqb).mp hx).1

lemma meet (hp : p.Consistent) (hq : q.Consistent) : (p.meet q).Consistent := by
  rw [Pentagon.meet]
  split
  · exact hp
  · split
    · exact hq
    · refine closure (make (hp.wellFormed.1.meet hq.wellFormed.1) (hp.irreflexive.meet hq.irreflexive) ?_)
      exact hp.wellFormed.2.1.meet hq.wellFormed.2.1

lemma widen (hp : p.Consistent) (hq : q.Consistent) : (p.widen q).Consistent := by
  rw [Pentagon.widen]
  split
  · exact hq
  · split
    · exact hp
    · refine make (hp.wellFormed.1.widen hq.wellFormed.1) (hp.irreflexive.widen hq.irreflexive) ?_
      exact hp.wellFormed.2.1.widen hq.wellFormed.2.1

lemma narrow (hp : p.Consistent) (hq : q.Consistent) : (p.narrow q).Consistent := by
  rw [Pentagon.narrow]
  split
  · exact hp
  · split
    · exact hq
    · refine closure (make (hp.wellFormed.1.narrow hq.wellFormed.1) (hp.irreflexive.meet hq.irreflexive) ?_)
      exact hp.wellFormed.2.1.narrow hq.wellFormed.2.1

end Consistent

lemma preserved : Derivation.Preserved closure Consistent where
  top := ⟨⟨Env.wellFormed_top, Env.wellFormed_top, rfl⟩, .top⟩
  bottom := .bottom
  assign x e hp := hp.assign x e
  assume e hp := hp.assume e
  smallStep hp := .make hp.wellFormed.1 hp.irreflexive hp.wellFormed.2.1
  closure hp := hp.closure
  forget x hp := hp.make_forgetIf _ (hp.wellFormed.2.1.forget x)
  forgetIf test hp := hp.make_forgetIf test (hp.wellFormed.2.1.forgetIf test)
  join hp hq := hp.join hq
  meet hp hq := hp.meet hq
  widen hp hq := hp.widen hq
  narrow hp hq := hp.narrow hq

end Pentagon

theorem Derivation.state_canonical (d : Derivation) :
    (let env : Env Interval := d.state id
     env.WellFormed ∧ env.isBottom = env.unreachable) ∧
    (let env : Env Taint := d.state id
     env.WellFormed ∧ env.isBottom = env.unreachable) ∧
    (let b : Bounds := d.state id
     b.WellFormed ∧ b.isBottom = b.unreachable ∧ ∀ x, x ∉ b.get x) ∧
    let p : Pentagon := d.state Pentagon.closure
    p.bounds.WellFormed ∧ p.intervals.WellFormed ∧ p.bounds.unreachable = p.intervals.unreachable ∧
      p.bounds.isBottom = p.bounds.unreachable ∧ p.intervals.isBottom = p.intervals.unreachable ∧
      p.isBottom = p.bounds.unreachable ∧ ∀ x, x ∉ p.bounds.get x := by
  have hintervals := Env.refinesCanonically_interval.preserved.state d
  have htaint := Taint.refinesCanonically.preserved.state d
  obtain ⟨hbounds, hirr⟩ := Bounds.preserved.state d
  obtain ⟨hp, hpirr⟩ := Pentagon.preserved.state d
  refine ⟨⟨hintervals, hintervals.isBottom_eq⟩, ⟨htaint, htaint.isBottom_eq⟩,
    ⟨hbounds, hbounds.isBottom_eq, hirr⟩, ?_⟩
  exact ⟨hp.1, hp.2.1, hp.2.2, hp.1.isBottom_eq, hp.2.1.isBottom_eq,
    hp.isBottom_bounds.symm.trans hp.1.isBottom_eq, hpirr⟩

end ValueAnalysis
