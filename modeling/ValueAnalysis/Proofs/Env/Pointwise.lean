import Mathlib.Tactic.Common
import ValueAnalysis.Semantics.Meaning

/-! Environments seen through their look-ups. Over a domain with a single top and a single bottom value the
operations of an environment are those of the domain at each name, and they keep it canonical. -/

namespace ValueAnalysis

open AbstractDomain (isTop isBottom top bottom join meet widen)

class LawfulDomain (L : Type) [AbstractDomain L] : Prop where
  isTop_iff : ∀ v : L, isTop v = true ↔ v = top
  isBottom_iff : ∀ v : L, isBottom v = true ↔ v = bottom
  top_ne_bottom : (top : L) ≠ bottom
  join_top : ∀ v : L, join v top = top
  top_join : ∀ v : L, join top v = top
  join_ne_bottom : ∀ {v w : L}, v ≠ bottom → w ≠ bottom → join v w ≠ bottom
  widen_top : ∀ v : L, widen v top = top
  top_widen : ∀ v : L, widen top v = top
  widen_ne_bottom : ∀ {v w : L}, v ≠ bottom → w ≠ bottom → widen v w ≠ bottom
  meet_top : ∀ v : L, meet v top = v

namespace LawfulDomain

variable {L : Type} [AbstractDomain L] [LawfulDomain L]

lemma isTop_eq_false_iff (v : L) : isTop v = false ↔ v ≠ top := by
  rw [← Bool.not_eq_true, isTop_iff]

lemma isBottom_eq_false_iff (v : L) : isBottom v = false ↔ v ≠ bottom := by
  rw [← Bool.not_eq_true, isBottom_iff]

end LawfulDomain

namespace Env

open LawfulDomain

variable {L : Type} [AbstractDomain L] {a b : Env L}

lemma get_eq {env : Env L} (h : env.unreachable = false) (x : String) :
    env.get x = (env.facts.get? x).getD top := by
  simp [get, h]

lemma reachable_of_isBottom {env : Env L} (h : env.isBottom = false) : env.unreachable = false := by
  simp only [Env.isBottom, Bool.or_eq_false_iff] at h
  exact h.1

lemma mem_keys_of_get_ne_top {env : Env L} {x : String} (h : env.unreachable = false) (hx : env.get x ≠ top) :
    x ∈ env.facts.keys := by
  rw [Table.mem_keys_iff, ← Option.ne_none_iff_isSome]
  intro hnone
  rw [get_eq h, hnone] at hx
  exact hx rfl

lemma forall_get_iff {env : Env L} {P : String → L → Prop} (h : env.unreachable = false)
    (htop : ∀ x, P x top) : (∀ x, P x (env.get x)) ↔ ∀ e ∈ env.facts.entries, P e.1 e.2 := by
  simp only [Prod.forall, Table.mem_entries_iff]
  constructor
  · intro hget x v hx
    have hx' := hget x
    rwa [get_eq h, hx] at hx'
  · intro hentries x
    rw [get_eq h]
    cases hx : env.facts.get? x with
    | none => exact htop x
    | some v => exact hentries x v hx

lemma get_forgetIf {env : Env L} (h : env.unreachable = false) (test : String → Bool) (x : String) :
    (env.forgetIf test).get x = if test x = true then top else env.get x := by
  simp only [forgetIf, h, Bool.false_eq_true, if_false]
  rw [get_eq rfl, get_eq h, Table.get?_filter]
  cases test x <;> rfl

lemma join_of_isBottom_left (ha : a.isBottom = true) (b : Env L) : a.join b = b := by
  simp [Env.join, ha]

lemma join_of_isBottom_right (ha : a.isBottom = false) (hb : b.isBottom = true) : a.join b = a := by
  simp [Env.join, ha, hb]

lemma widen_of_isBottom_left (ha : a.isBottom = true) (b : Env L) : a.widen b = b := by
  simp [Env.widen, ha]

lemma widen_of_isBottom_right (ha : a.isBottom = false) (hb : b.isBottom = true) : a.widen b = a := by
  simp [Env.widen, ha, hb]

lemma leq_of_isBottom (ha : a.isBottom = true) (b : Env L) : a.leq b = true := by
  simp [Env.leq, ha]

lemma meet_of_isBottom_left (ha : a.isBottom = true) (b : Env L) : a.meet b = a := by
  simp [Env.meet, ha]

lemma meet_of_isBottom_right (ha : a.isBottom = false) (hb : b.isBottom = true) : a.meet b = b := by
  simp [Env.meet, ha, hb]

lemma reachable_of_meet (h : (a.meet b).isBottom = false) : a.isBottom = false ∧ b.isBottom = false := by
  cases ha : a.isBottom with
  | true => simp [Env.meet, ha] at h
  | false =>
    cases hb : b.isBottom with
    | true => simp [Env.meet, ha, hb] at h
    | false => exact ⟨rfl, rfl⟩

lemma join_eq (ha : a.isBottom = false) (hb : b.isBottom = false) : a.join b = combineShared join a b := by
  simp [Env.join, ha, hb]

lemma widen_eq (ha : a.isBottom = false) (hb : b.isBottom = false) :
    a.widen b = combineShared widen a b := by
  simp [Env.widen, ha, hb]

lemma meet_eq (ha : a.isBottom = false) (hb : b.isBottom = false) : a.meet b = combineAll meet a b := by
  simp [Env.meet, ha, hb]

/-- What both environments say at each name, top and bottom values included. -/
def combined (op : L → L → L) (a b : Env L) : Env L :=
  ⟨Table.merge (fun v w => op (v.getD top) (w.getD top)) a.facts b.facts, false⟩

lemma combineAll_eq (op : L → L → L) (a b : Env L) :
    combineAll op a b =
      if (combined op a b).isBottom then .bottom
      else ⟨(combined op a b).facts.filterMap fun _ v => unlessTop v, false⟩ := by
  rw [Env.isBottom]
  rfl

lemma get_combined {op : L → L → L} (hop : op top top = top) (ha : a.unreachable = false)
    (hb : b.unreachable = false) (x : String) : (combined op a b).get x = op (a.get x) (b.get x) := by
  rw [get_eq (rfl : (combined op a b).unreachable = false), get_eq ha, get_eq hb, combined, Table.get?_merge]
  cases a.facts.get? x <;> cases b.facts.get? x <;> simp [hop]

@[simp] lemma isBottom_bottom : (Env.bottom : Env L).isBottom = true := rfl

lemma wellFormed_top : (Env.top : Env L).WellFormed := by
  refine ⟨fun x v h => ?_, fun h => ?_⟩
  · simp [Env.top] at h
  · cases h

lemma wellFormed_bottom : (Env.bottom : Env L).WellFormed := by
  refine ⟨fun x v h => ?_, fun _ => rfl⟩
  simp [Env.bottom] at h

variable [LawfulDomain L]

lemma isBottom_eq_false_iff {env : Env L} :
    env.isBottom = false ↔ env.unreachable = false ∧ ∀ x, env.get x ≠ bottom := by
  rw [Env.isBottom, Bool.or_eq_false_iff]
  refine and_congr_right fun hr => ?_
  rw [forall_get_iff hr (P := fun _ v => v ≠ bottom) fun _ => top_ne_bottom]
  simp only [List.any_eq_false, Bool.not_eq_true, LawfulDomain.isBottom_eq_false_iff]

lemma get_ne_bottom {env : Env L} (h : env.isBottom = false) (x : String) : env.get x ≠ bottom :=
  (isBottom_eq_false_iff.mp h).2 x

lemma getD_unlessTop (v : L) : (unlessTop v).getD top = v := by
  rw [unlessTop]
  split
  · exact ((isTop_iff v).mp ‹_›).symm
  · rfl

lemma get_put_of_ne_bottom {env : Env L} {x : String} {v : L} (h : env.unreachable = false)
    (hv : v ≠ bottom) (z : String) : (env.put x v).get z = if z = x then v else env.get z :=
  get_put h ((LawfulDomain.isBottom_eq_false_iff v).mpr hv) (isTop_iff v).mp

lemma unreachable_put {env : Env L} {x : String} {v : L} (h : env.unreachable = false) (hv : v ≠ bottom) :
    (env.put x v).unreachable = false := by
  simp only [put, h, (LawfulDomain.isBottom_eq_false_iff v).mpr hv, Bool.false_eq_true, if_false]
  split <;> rfl

lemma isBottom_put {env : Env L} {x : String} {v : L} (h : env.isBottom = false) (hv : v ≠ bottom) :
    (env.put x v).isBottom = false := by
  have hr := reachable_of_isBottom h
  refine isBottom_eq_false_iff.mpr ⟨unreachable_put hr hv, fun z => ?_⟩
  rw [get_put_of_ne_bottom hr hv]
  split
  · exact hv
  · exact get_ne_bottom h z

lemma isBottom_forget {env : Env L} (h : env.isBottom = false) (x : String) :
    (env.forget x).isBottom = false := by
  have hr := reachable_of_isBottom h
  refine isBottom_eq_false_iff.mpr ⟨?_, fun z => ?_⟩
  · rw [forget]
    split
    · exact hr
    · rfl
  · rw [get_forget hr]
    split
    · exact top_ne_bottom
    · exact get_ne_bottom h z

lemma isBottom_forgetIf {env : Env L} (h : env.isBottom = false) (test : String → Bool) :
    (env.forgetIf test).isBottom = false := by
  have hr := reachable_of_isBottom h
  refine isBottom_eq_false_iff.mpr ⟨?_, fun z => ?_⟩
  · simp [forgetIf, hr]
  · rw [get_forgetIf hr]
    split
    · exact top_ne_bottom
    · exact get_ne_bottom h z

lemma get_combineShared {op : L → L → L} (hl : ∀ v, op top v = top) (hr : ∀ v, op v top = top)
    (ha : a.unreachable = false) (hb : b.unreachable = false) (x : String) :
    (combineShared op a b).get x = op (a.get x) (b.get x) := by
  rw [get_eq (rfl : (combineShared op a b).unreachable = false), get_eq ha, get_eq hb, combineShared,
    Table.get?_filterMap]
  cases a.facts.get? x with
  | none => exact (hl _).symm
  | some v =>
    cases b.facts.get? x with
    | none => exact (hr v).symm
    | some w => exact getD_unlessTop (op v w)

lemma isBottom_combineShared {op : L → L → L} (hl : ∀ v, op top v = top) (hr : ∀ v, op v top = top)
    (hop : ∀ {v w}, v ≠ bottom → w ≠ bottom → op v w ≠ bottom) (ha : a.isBottom = false)
    (hb : b.isBottom = false) : (combineShared op a b).isBottom = false := by
  refine isBottom_eq_false_iff.mpr ⟨rfl, fun x => ?_⟩
  rw [get_combineShared hl hr (reachable_of_isBottom ha) (reachable_of_isBottom hb)]
  exact hop (get_ne_bottom ha x) (get_ne_bottom hb x)

lemma get_join (ha : a.isBottom = false) (hb : b.isBottom = false) (x : String) :
    (a.join b).get x = join (a.get x) (b.get x) := by
  rw [join_eq ha hb]
  exact get_combineShared top_join join_top (reachable_of_isBottom ha) (reachable_of_isBottom hb) x

lemma get_widen (ha : a.isBottom = false) (hb : b.isBottom = false) (x : String) :
    (a.widen b).get x = widen (a.get x) (b.get x) := by
  rw [widen_eq ha hb]
  exact get_combineShared top_widen widen_top (reachable_of_isBottom ha) (reachable_of_isBottom hb) x

lemma isBottom_join (ha : a.isBottom = false) (hb : b.isBottom = false) : (a.join b).isBottom = false := by
  rw [join_eq ha hb]
  exact isBottom_combineShared top_join join_top join_ne_bottom ha hb

lemma isBottom_widen (ha : a.isBottom = false) (hb : b.isBottom = false) :
    (a.widen b).isBottom = false := by
  rw [widen_eq ha hb]
  exact isBottom_combineShared top_widen widen_top widen_ne_bottom ha hb

lemma get_filterMap_unlessTop (facts : Table L) (x : String) :
    (⟨facts.filterMap fun _ v => unlessTop v, false⟩ : Env L).get x = (⟨facts, false⟩ : Env L).get x := by
  rw [get_eq rfl, get_eq rfl, Table.get?_filterMap]
  cases facts.get? x with
  | none => rfl
  | some v => exact getD_unlessTop v

section CombineAll

variable {op : L → L → L} (hop : op top top = top) (ha : a.unreachable = false) (hb : b.unreachable = false)
include hop ha hb

lemma isBottom_combineAll :
    (combineAll op a b).isBottom = false ↔ ∀ x, op (a.get x) (b.get x) ≠ bottom := by
  have hcombined : (combined op a b).isBottom = false ↔ ∀ x, op (a.get x) (b.get x) ≠ bottom := by
    rw [isBottom_eq_false_iff]
    simp only [get_combined hop ha hb]
    exact and_iff_right rfl
  rw [combineAll_eq, ← hcombined]
  cases h : (combined op a b).isBottom with
  | true => simp
  | false =>
    simp only [Bool.false_eq_true, if_false, iff_true, isBottom_eq_false_iff, get_filterMap_unlessTop]
    exact ⟨trivial, get_ne_bottom h⟩

lemma get_combineAll (h : (combineAll op a b).isBottom = false) (x : String) :
    (combineAll op a b).get x = op (a.get x) (b.get x) := by
  have hcombined := get_combined hop ha hb x
  rw [combineAll_eq] at h ⊢
  split
  · rename_i hbottom
    rw [if_pos hbottom, isBottom_bottom] at h
    cases h
  · rw [get_filterMap_unlessTop]
    exact hcombined

end CombineAll

lemma get_meet (ha : a.isBottom = false) (hb : b.isBottom = false) (h : (a.meet b).isBottom = false)
    (x : String) : (a.meet b).get x = meet (a.get x) (b.get x) := by
  rw [meet_eq ha hb] at h ⊢
  exact get_combineAll (meet_top top) (reachable_of_isBottom ha) (reachable_of_isBottom hb) h x

lemma isBottom_meet_iff (ha : a.isBottom = false) (hb : b.isBottom = false) :
    (a.meet b).isBottom = false ↔ ∀ x, meet (a.get x) (b.get x) ≠ bottom := by
  rw [meet_eq ha hb]
  exact isBottom_combineAll (meet_top top) (reachable_of_isBottom ha) (reachable_of_isBottom hb)

lemma wellFormed_iff {env : Env L} :
    env.WellFormed ↔ (∀ x v, env.facts.get? x = some v → v ≠ top ∧ v ≠ bottom) ∧
      (env.unreachable = true → env.facts = ∅) := by
  simp only [WellFormed, isTop_eq_false_iff, LawfulDomain.isBottom_eq_false_iff]

lemma wellFormed_of_reachable {facts : Table L}
    (h : ∀ x v, facts.get? x = some v → v ≠ top ∧ v ≠ bottom) : (⟨facts, false⟩ : Env L).WellFormed :=
  wellFormed_iff.mpr ⟨h, fun hu => absurd hu Bool.false_ne_true⟩

namespace WellFormed

lemma isBottom_eq {env : Env L} (h : env.WellFormed) : env.isBottom = env.unreachable := by
  cases hr : env.unreachable with
  | true => simp [Env.isBottom, hr]
  | false =>
    refine isBottom_eq_false_iff.mpr ⟨hr, fun x => ?_⟩
    rw [get_eq hr]
    cases hx : env.facts.get? x with
    | none => exact top_ne_bottom
    | some v => exact ((wellFormed_iff.mp h).1 x v hx).2

lemma get?_eq {env : Env L} (h : env.WellFormed) (hr : env.unreachable = false) (x : String) :
    env.facts.get? x = unlessTop (env.get x) := by
  rw [get_eq hr]
  cases hx : env.facts.get? x with
  | none => simp [unlessTop, (isTop_iff (top : L)).mpr rfl]
  | some v => simp [unlessTop, (h.1 x v hx).1]

lemma mem_keys_iff {env : Env L} (h : env.WellFormed) (hr : env.unreachable = false) {x : String} :
    x ∈ env.facts.keys ↔ env.get x ≠ top := by
  rw [Table.mem_keys_iff, h.get?_eq hr, unlessTop, ← isTop_eq_false_iff]
  split <;> simp [*]

lemma put {env : Env L} (h : env.WellFormed) (x : String) (v : L) : (env.put x v).WellFormed := by
  rw [Env.put]
  split
  · exact h
  · split
    · exact wellFormed_bottom
    · rename_i hb
      split
      · apply wellFormed_of_reachable
        intro z w hz
        rw [Table.get?_erase] at hz
        split at hz
        · cases hz
        · exact (wellFormed_iff.mp h).1 z w hz
      · rename_i ht
        apply wellFormed_of_reachable
        intro z w hz
        rw [Table.get?_insert] at hz
        split at hz
        · obtain rfl := Option.some.inj hz
          exact ⟨fun he => ht ((isTop_iff v).mpr he), fun he => hb ((isBottom_iff v).mpr he)⟩
        · exact (wellFormed_iff.mp h).1 z w hz

lemma combineShared {op : L → L → L} (hop : ∀ {v w}, v ≠ bottom → w ≠ bottom → op v w ≠ bottom)
    (ha : a.WellFormed) (hb : b.WellFormed) : (Env.combineShared op a b).WellFormed := by
  apply wellFormed_of_reachable
  intro x u hx
  rw [Table.get?_filterMap] at hx
  obtain ⟨v, hv, hx⟩ := Option.bind_eq_some_iff.mp hx
  obtain ⟨w, hw, hx⟩ := Option.bind_eq_some_iff.mp hx
  rw [unlessTop] at hx
  split at hx
  · cases hx
  · rename_i ht
    obtain rfl := Option.some.inj hx
    refine ⟨fun he => ht ((isTop_iff _).mpr he), ?_⟩
    exact hop ((wellFormed_iff.mp ha).1 x v hv).2 ((wellFormed_iff.mp hb).1 x w hw).2

lemma join (ha : a.WellFormed) (hb : b.WellFormed) : (a.join b).WellFormed := by
  rw [Env.join]
  split
  · exact hb
  · split
    · exact ha
    · exact ha.combineShared join_ne_bottom hb

lemma widen (ha : a.WellFormed) (hb : b.WellFormed) : (a.widen b).WellFormed := by
  rw [Env.widen]
  split
  · exact hb
  · split
    · exact ha
    · exact ha.combineShared widen_ne_bottom hb

lemma combineAll (op : L → L → L) (a b : Env L) : (Env.combineAll op a b).WellFormed := by
  rw [combineAll_eq]
  split
  · exact wellFormed_bottom
  · rename_i hb
    rw [Bool.not_eq_true, isBottom_eq_false_iff] at hb
    apply wellFormed_of_reachable
    intro x v hx
    rw [Table.get?_filterMap] at hx
    obtain ⟨w, hw, hv⟩ := Option.bind_eq_some_iff.mp hx
    rw [unlessTop] at hv
    split at hv
    · cases hv
    · rename_i ht
      obtain rfl := Option.some.inj hv
      refine ⟨fun he => ht ((isTop_iff _).mpr he), ?_⟩
      have hget := hb.2 x
      rwa [get_eq hb.1, hw, Option.getD_some] at hget

lemma meet (ha : a.WellFormed) (hb : b.WellFormed) : (a.meet b).WellFormed := by
  rw [Env.meet]
  split
  · exact ha
  · split
    · exact hb
    · exact combineAll _ a b

lemma narrow (ha : a.WellFormed) (hb : b.WellFormed) : (a.narrow b).WellFormed := by
  rw [Env.narrow]
  split
  · exact ha
  · split
    · exact hb
    · exact combineAll _ a b

lemma forgetIf {env : Env L} (h : env.WellFormed) (test : String → Bool) :
    (env.forgetIf test).WellFormed := by
  rw [Env.forgetIf]
  split
  · exact h
  · apply wellFormed_of_reachable
    intro z w hz
    rw [Table.get?_filter] at hz
    split at hz
    · exact (wellFormed_iff.mp h).1 z w hz
    · cases hz

lemma forget {env : Env L} (h : env.WellFormed) (x : String) : (env.forget x).WellFormed := by
  rw [Env.forget]
  split
  · exact h
  · apply wellFormed_of_reachable
    intro z w hz
    rw [Table.get?_erase] at hz
    split at hz
    · cases hz
    · exact (wellFormed_iff.mp h).1 z w hz

end WellFormed

lemma same_iff_get [DecidableEq L] (ha : a.WellFormed) (hb : b.WellFormed) :
    a.same b = true ↔ a.unreachable = b.unreachable ∧ ∀ x, a.get x = b.get x := by
  rw [same_iff, and_comm, and_congr_right_iff]
  intro hr
  constructor
  · intro h x
    simp [get, hr, h x]
  · intro h x
    cases hu : a.unreachable with
    | true => rw [ha.2 hu, hb.2 (hr ▸ hu)]
    | false => rw [ha.get?_eq hu, hb.get?_eq (hr ▸ hu), h x]

end Env

end ValueAnalysis
