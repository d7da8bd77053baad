import ValueAnalysis.Checked.Value
import ValueAnalysis.Proofs.Interval.Exactness

/-! No construction of a value fails. An operation on intervals that have members hands bounds to the constructor
that have the results of the members between them, and one on an empty interval hands over two undefined bounds;
so with its constructions checked each operation is what it is without. -/

namespace ValueAnalysis

lemma ok_bind {α β : Type} (a : α) (f : α → Except Failure β) : (.ok a >>= f) = f a := rfl

lemma ite_ite_ok {α : Type} (p q : Prop) [Decidable p] [Decidable q] (a b c : α) :
    (if p then .ok a else if q then .ok b else .ok c : Except Failure α) =
      .ok (if p then a else if q then b else c) := by
  split
  · rfl
  · split <;> rfl

namespace Table

variable {α β γ : Type}

def okEntries (l : List (String × α)) : List (String × Except Failure α) := l.map fun e => (e.1, .ok e.2)

lemma forM_okEntries (l : List (String × α)) :
    ((okEntries l).forM fun e => e.2.map fun _ => ()) = (.ok () : Except Failure Unit) := by
  induction l with
  | nil => rfl
  | cons e l ih => exact ih

lemma filterEntries_okEntries (l : List (String × α)) :
    filterEntries (fun _ r => r.toOption) (okEntries l) = l := by
  induction l with
  | nil => rfl
  | cons e l ih =>
    rw [okEntries, List.map_cons, filterEntries]
    exact congrArg (e :: ·) ih

lemma sequence_of_entries {t : Table (Except Failure α)} {u : Table α} (h : t.entries = okEntries u.entries) :
    t.sequence = .ok u := by
  have hforM : (t.entries.forM fun e => e.2.map fun _ => ()) = (.ok () : Except Failure Unit) := by
    rw [h]
    exact forM_okEntries u.entries
  have htable : (t.filterMap fun _ r => r.toOption) = u := by
    cases u
    simp only [filterMap, mk.injEq]
    rw [h]
    exact filterEntries_okEntries _
  rw [sequence, hforM, htable]
  rfl

lemma filterEntries_ok {f : String → α → Option (Except Failure β)} {g : String → α → Option β}
    (hfg : ∀ k a, f k a = (g k a).map .ok) (l : List (String × α)) :
    filterEntries f l = okEntries (filterEntries g l) := by
  induction l with
  | nil => rfl
  | cons e l ih =>
    obtain ⟨k, a⟩ := e
    rw [filterEntries, filterEntries, hfg]
    cases g k a with
    | none => exact ih
    | some b => exact congrArg ((k, .ok b) :: ·) ih

lemma sequence_filterMap {f : String → α → Option (Except Failure β)} {g : String → α → Option β}
    (hfg : ∀ k a, f k a = (g k a).map .ok) (t : Table α) : (t.filterMap f).sequence = .ok (t.filterMap g) :=
  sequence_of_entries (filterEntries_ok hfg t.entries)

lemma sequence_merge {f : Option α → Option β → Except Failure γ} {g : Option α → Option β → γ}
    (hfg : ∀ a b, f a b = .ok (g a b)) (s : Table α) (t : Table β) :
    (merge f s t).sequence = .ok (merge g s t) := by
  apply sequence_of_entries
  simp only [merge]
  rw [okEntries, List.map_append]
  refine congrArg₂ (· ++ ·) (filterEntries_ok (fun k a => ?_) s.entries) (filterEntries_ok (fun k b => ?_) t.entries)
  · rw [hfg]
    rfl
  · split
    · rfl
    · rw [hfg]
      rfl

lemma filterMap_filterMap (f : String → α → Option β) (g : String → β → Option γ) (t : Table α) :
    (t.filterMap f).filterMap g = t.filterMap fun k a => (f k a).bind (g k) := by
  have hentries (l : List (String × α)) :
      filterEntries g (filterEntries f l) = filterEntries (fun k a => (f k a).bind (g k)) l := by
    induction l with
    | nil => rfl
    | cons e l ih =>
      obtain ⟨k, a⟩ := e
      rw [filterEntries, filterEntries]
      cases f k a with
      | none => exact ih
      | some b =>
        rw [filterEntries, ih]
        rfl
  simp only [filterMap, mk.injEq]
  exact hentries t.entries

lemma collect_eq {f : String → α → Option (Except Failure β)} {keep : β → Option γ} {g : String → α → Option β}
    {r : String → α → Option γ} (hf : ∀ k a, f k a = (g k a).map .ok) (hr : ∀ k a, (g k a).bind keep = r k a)
    (t : Table α) : t.collect f keep = .ok (t.filterMap r) := by
  have hbind : r = fun k a => (g k a).bind keep := by
    funext k a
    exact (hr k a).symm
  rw [collect, sequence_filterMap hf, ok_bind, hbind, ← filterMap_filterMap]
  rfl

end Table

namespace ExtInt

lemma add_fin_ne {a : ExtInt} (h : a ≠ nan) (hp : a ≠ posInf) (n : Int) : a + fin n ≠ nan ∧ a + fin n ≠ posInf := by
  cases a with
  | negInf => exact ⟨nofun, nofun⟩
  | fin m => exact ⟨nofun, nofun⟩
  | posInf => exact absurd rfl hp
  | nan => exact absurd rfl h

lemma sub_fin_ne {a : ExtInt} (h : a ≠ nan) (hn : a ≠ negInf) (n : Int) : a - fin n ≠ nan ∧ a - fin n ≠ negInf := by
  cases a with
  | negInf => exact absurd rfl hn
  | fin m => exact ⟨nofun, nofun⟩
  | posInf => exact ⟨nofun, nofun⟩
  | nan => exact absurd rfl h

lemma foldl_nan {op : ExtInt → ExtInt → ExtInt} (h : ∀ c, op nan c = nan) (cs : List ExtInt) :
    cs.foldl op nan = nan := by
  induction cs with
  | nil => rfl
  | cons c cs ih => rw [List.foldl_cons, h, ih]

end ExtInt

class LawfulCheckedLattice (L : Type) [AbstractDomain L] [CheckedLattice L] : Prop where
  join_eq : ∀ a b : L, CheckedLattice.join a b = .ok (AbstractDomain.join a b)
  meet_eq : ∀ a b : L, CheckedLattice.meet a b = .ok (AbstractDomain.meet a b)
  widen_eq : ∀ a b : L, CheckedLattice.widen a b = .ok (AbstractDomain.widen a b)
  narrow_eq : ∀ a b : L, CheckedLattice.narrow a b = .ok (AbstractDomain.narrow a b)

namespace Interval.Checked

open ExtInt

variable {a b : Interval} {low high : ExtInt} {n : Int}

lemma new_eq (h : boundsFault? low high = none) : new low high = .ok (ofBounds low high) := by
  rw [ofBounds_eq h, new]
  split
  · rfl
  · rename_i hf
    rw [h] at hf
    cases hf

lemma new_of_mem (h : n ∈ ofBounds low high) : new low high = .ok (ofBounds low high) := by
  apply new_eq
  rw [ofBounds] at h
  split at h
  · assumption
  · exact absurd h (not_mem_empty n)

lemma new_of_nan (hl : low = .nan) (hh : high = .nan) : new low high = .ok (ofBounds low high) := by
  subst hl hh
  exact new_eq rfl

lemma of_eq (hl : low ≠ .nan) (hp : low ≠ .posInf) (hh : high ≠ .nan) (hn : high ≠ .negInf) :
    of low high = .ok (ofBounds low high) := by
  have hnan : (low.isNan && high.isNan) = false := by simp [hl]
  rw [of, hnan]
  by_cases hlt : high < low
  · have hfault : boundsFault? low high ≠ none := by
      rw [Ne, boundsFault?_eq_none_iff]
      rintro (⟨h, _⟩ | ⟨_, _, hle⟩)
      · exact hl h
      · exact ((lt_iff high low).mp hlt).2 hle
    simp [hlt, ofBounds, hfault]
  · rw [if_neg Bool.false_ne_true, if_neg hlt]
    exact new_eq ((boundsFault?_eq_none_iff low high).mpr (.inr ⟨hp, hn, (not_lt hh hl).mp hlt⟩))

lemma of_bounds (ha : a.isEmpty = false) (hb : b.isEmpty = false) :
    of a.low b.high = .ok (ofBounds a.low b.high) := by
  obtain ⟨hp, _, _⟩ := bounds_of_nonempty ha
  obtain ⟨_, hn, _⟩ := bounds_of_nonempty hb
  exact of_eq (low_ne_nan ha) hp (high_ne_nan hb) hn

lemma hull_eq (a b : Interval) : hull a b = .ok (a.hull b) := by
  cases ha : a.isEmpty with
  | true => simp [hull, Interval.hull, ha]
  | false =>
    cases hb : b.isEmpty with
    | true => simp [hull, Interval.hull, ha, hb]
    | false =>
      obtain ⟨n, hn⟩ := exists_mem ha
      have hmem := mem_hull_left b hn
      simp only [hull, Interval.hull, ha, hb, Bool.false_eq_true, if_false] at hmem ⊢
      exact new_of_mem hmem

lemma intersect_eq (a b : Interval) : intersect a b = .ok (a.intersect b) := by
  cases ha : a.isEmpty with
  | true => simp [intersect, Interval.intersect, ha]
  | false =>
    cases hb : b.isEmpty with
    | true => simp [intersect, Interval.intersect, hb]
    | false =>
      simp only [intersect, Interval.intersect, ha, hb, Bool.or_self, Bool.false_eq_true, if_false]
      rw [max_eq (low_ne_nan ha) (low_ne_nan hb), min_eq (high_ne_nan ha) (high_ne_nan hb)]
      split
      · split
        · exact of_bounds ha ha
        · exact of_bounds ha hb
      · split
        · exact of_bounds hb ha
        · exact of_bounds hb hb

lemma widen_eq (a b : Interval) : widen a b = .ok (a.widen b) := by
  cases ha : a.isEmpty with
  | true => simp [widen, Interval.widen, ha]
  | false =>
    cases hb : b.isEmpty with
    | true => simp [widen, Interval.widen, ha, hb]
    | false =>
      obtain ⟨n, hn⟩ := exists_mem ha
      have hmem := mem_widen_left b hn
      simp only [widen, Interval.widen, ha, hb, Bool.false_eq_true, if_false] at hmem ⊢
      exact new_of_mem hmem

lemma narrow_eq (a b : Interval) : narrow a b = .ok (a.narrow b) := by
  cases ha : a.isEmpty with
  | true => simp [narrow, Interval.narrow, ha]
  | false =>
    cases hb : b.isEmpty with
    | true => simp [narrow, Interval.narrow, ha, hb]
    | false =>
      simp only [narrow, Interval.narrow, ha, hb, Bool.false_eq_true, if_false]
      split
      · split
        · exact of_bounds hb hb
        · exact of_bounds hb ha
      · split
        · exact of_bounds ha hb
        · exact of_bounds ha ha

instance : LawfulCheckedLattice Interval where
  join_eq := hull_eq
  meet_eq := intersect_eq
  widen_eq := widen_eq
  narrow_eq := narrow_eq

lemma eq_empty_or_exists_mem (a : Interval) : a = empty ∨ ∃ n, n ∈ a := by
  cases ha : a.isEmpty with
  | true => exact .inl ((isEmpty_iff a).mp ha)
  | false => exact .inr (exists_mem ha)

lemma negate_eq (a : Interval) : negate a = .ok a.negate := by
  cases ha : a.isEmpty with
  | true => simp [negate, Interval.negate, ha]
  | false =>
    obtain ⟨n, hn⟩ := exists_mem ha
    have hmem := mem_negate hn
    simp only [negate, Interval.negate, ha, Bool.false_eq_true, if_false] at hmem ⊢
    exact new_of_mem hmem

lemma plus_eq (a b : Interval) : plus a b = .ok (a.plus b) := by
  obtain rfl | ⟨m, hm⟩ := eq_empty_or_exists_mem a
  · exact new_of_nan (nan_add _) (nan_add _)
  · obtain rfl | ⟨n, hn⟩ := eq_empty_or_exists_mem b
    · exact new_of_nan (add_nan _) (add_nan _)
    · exact new_of_mem (mem_plus hm hn)

lemma minus_eq (a b : Interval) : minus a b = .ok (a.minus b) := by
  obtain rfl | ⟨m, hm⟩ := eq_empty_or_exists_mem a
  · exact new_of_nan (nan_add _) (nan_add _)
  · obtain rfl | ⟨n, hn⟩ := eq_empty_or_exists_mem b
    · exact new_of_nan (add_nan _) (add_nan _)
    · exact new_of_mem (mem_minus hm hn)

lemma spanning_of_mem {cs : List ExtInt} (h : n ∈ Interval.spanning cs) :
    spanning cs = .ok (Interval.spanning cs) := by
  cases cs with
  | nil => exact absurd h (not_mem_empty n)
  | cons c cs => exact new_of_mem h

lemma spanning_nan (cs : List ExtInt) : spanning (.nan :: cs) = .ok (Interval.spanning (.nan :: cs)) :=
  new_of_nan (foldl_nan (fun _ => rfl) cs) (foldl_nan (fun _ => rfl) cs)

lemma times_eq (a b : Interval) : times a b = .ok (a.times b) := by
  obtain rfl | ⟨m, hm⟩ := eq_empty_or_exists_mem a
  · rw [times, Interval.times, empty, nan_mul]
    exact spanning_nan _
  · obtain rfl | ⟨n, hn⟩ := eq_empty_or_exists_mem b
    · rw [times, Interval.times, empty, mul_nan]
      exact spanning_nan _
    · exact spanning_of_mem (mem_times hm hn)

lemma quotientCorner_nan_left (b : ExtInt) : quotientCorner .nan b = [.nan] := by
  cases b <;> rfl

lemma quotientCorner_nan_right (a : ExtInt) : quotientCorner a .nan = [.nan] := by
  cases a <;> rfl

lemma quotientNonzero_eq (a : Interval) (hz : (0 : Int) ∉ b) :
    quotientNonzero a b = .ok (a.quotientNonzero b) := by
  obtain rfl | ⟨m, hm⟩ := eq_empty_or_exists_mem a
  · rw [quotientNonzero, Interval.quotientNonzero, empty, quotientCorner_nan_left]
    exact spanning_nan _
  · obtain rfl | ⟨n, hn⟩ := eq_empty_or_exists_mem b
    · rw [quotientNonzero, Interval.quotientNonzero, empty, quotientCorner_nan_right]
      exact spanning_nan _
    · exact spanning_of_mem (mem_quotientNonzero hm hn hz)

lemma quotientBelow_eq (a b : Interval) :
    quotientBelow a b = .ok (if b.low < .fin 0 then a.quotientNonzero b.negativePart else empty) := by
  rw [quotientBelow]
  split
  · rename_i hlt
    have hmem : (-1 : Int) ∈ b.negativePart := mem_ofBounds.mpr ⟨le_pred_of_lt hlt, le_refl nofun⟩
    have hz : (0 : Int) ∉ b.negativePart := fun h => absurd (mem_ofBounds.mp h).2 (by simp)
    rw [new_of_mem hmem]
    exact quotientNonzero_eq a hz
  · rfl

lemma quotientAbove_eq (a b : Interval) :
    quotientAbove a b = .ok (if .fin 0 < b.high then a.quotientNonzero b.positivePart else empty) := by
  rw [quotientAbove]
  split
  · rename_i hlt
    have hmem : (1 : Int) ∈ b.positivePart := mem_ofBounds.mpr ⟨le_refl nofun, succ_le_of_lt hlt⟩
    have hz : (0 : Int) ∉ b.positivePart := fun h => absurd (mem_ofBounds.mp h).1 (by simp)
    rw [new_of_mem hmem]
    exact quotientNonzero_eq a hz
  · rfl

lemma quotient_eq (a b : Interval) : quotient a b = .ok (a.quotient b) := by
  rw [quotient, Interval.quotient]
  split
  · rw [quotientBelow_eq, quotientAbove_eq]
    exact hull_eq _ _
  · rename_i hcontains
    refine quotientNonzero_eq a fun hz => hcontains ?_
    simp [contains, nonempty_of_mem hz, hz.1, hz.2]

lemma atLeast_eq (hl : low ≠ .nan) (hp : low ≠ .posInf) : atLeast low = .ok (Interval.atLeast low) :=
  of_eq hl hp nofun nofun

lemma atMost_eq (hh : high ≠ .nan) (hn : high ≠ .negInf) : atMost high = .ok (Interval.atMost high) :=
  of_eq nofun nofun hh hn

lemma evalConstant_eq (v : Value) : evalConstant v = .ok (Interval.evalConstant v) := by
  rw [evalConstant, Interval.evalConstant]
  cases v with
  | int n =>
    have hof : of (.fin n) (.fin n) = .ok (singleton n) := of_eq nofun nofun nofun nofun
    exact hof
  | _ => rfl

lemma evalUnary_eq (op : UnaryOp) (a : Interval) : evalUnary op a = .ok (Interval.evalUnary op a) := by
  cases op with
  | negation => exact negate_eq a
  | stringLength => exact atLeast_eq nofun nofun
  | logicalNot => rfl
  | bitwiseNot => rfl

lemma evalBinary_eq (op : BinaryOp) (a b : Interval) : evalBinary op a b = .ok (Interval.evalBinary op a b) := by
  cases op with
  | add =>
    simp only [evalBinary, Interval.evalBinary, plus_eq]
    split <;> rfl
  | sub =>
    simp only [evalBinary, Interval.evalBinary, minus_eq]
    split <;> rfl
  | mul =>
    simp only [evalBinary, Interval.evalBinary, times_eq]
    split
    · rfl
    · split <;> rfl
  | div =>
    simp only [evalBinary, Interval.evalBinary, quotient_eq]
    split
    · rfl
    · split
      · rfl
      · split <;> rfl
  | _ => rfl

lemma satisfiesEq_eq (a b : Interval) : satisfiesEq a b = .ok (Interval.satisfiesEq a b) := by
  rw [satisfiesEq, intersect_eq]
  rfl

lemma satisfiesBinary_eq (op : BinaryOp) (a b : Interval) :
    satisfiesBinary op a b = .ok (Interval.satisfiesBinary op a b) := by
  cases op with
  | eq => exact satisfiesEq_eq a b
  | ne =>
    rw [satisfiesBinary, satisfiesEq_eq]
    rfl
  | _ => rfl

lemma refined_eq (op : BinaryOp) (a : Interval) {bound : Interval} (h : bound.isEmpty = false) :
    refined? op a bound = .ok (Interval.refined? op a bound) := by
  obtain ⟨hp, hn, _⟩ := bounds_of_nonempty h
  have hl := low_ne_nan h
  have hh := high_ne_nan h
  cases op with
  | lt =>
    obtain ⟨hh', hn'⟩ := sub_fin_ne hh hn 1
    rw [refined?, atMost_eq hh' hn']
    exact congrArg (Except.map some) (intersect_eq a _)
  | le =>
    rw [refined?, atMost_eq hh hn]
    exact congrArg (Except.map some) (intersect_eq a _)
  | gt =>
    obtain ⟨hl', hp'⟩ := add_fin_ne hl hp 1
    rw [refined?, atLeast_eq hl' hp']
    exact congrArg (Except.map some) (intersect_eq a _)
  | ge =>
    rw [refined?, atLeast_eq hl hp]
    exact congrArg (Except.map some) (intersect_eq a _)
  | eq => exact congrArg (Except.map some) (intersect_eq a _)
  | _ => rfl

lemma refineVariable_eq (env : Env Interval) (x : String) (op : BinaryOp) (bound : Interval) :
    refineVariable env x op bound = .ok (Interval.refineVariable env x op bound) := by
  cases hb : bound.isEmpty with
  | true => simp [refineVariable, Interval.refineVariable, hb]
  | false =>
    simp only [refineVariable, Interval.refineVariable, hb, Bool.false_eq_true, if_false]
    rw [refined_eq op _ hb]
    cases Interval.refined? op (env.get x) bound with
    | some a => rfl
    | none => rfl

end Interval.Checked

namespace BoundSet.Checked

lemma ofNames_eq (s : NameSet) : ofNames s = .ok (.above s) := by
  have hs : NameSet.ofList s.names = s := NameSet.ext fun x => NameSet.mem_ofList
  rw [ofNames, make, hs]
  rfl

lemma insert_eq (x : String) (b : BoundSet) : insert x b = .ok (b.insert x) := by
  cases b with
  | unreachable => rfl
  | above s => exact ofNames_eq _

lemma erase_eq (x : String) (b : BoundSet) : erase x b = .ok (b.erase x) := by
  cases b with
  | unreachable => rfl
  | above s => exact ofNames_eq _

lemma join_eq (a b : BoundSet) : join a b = .ok (a.join b) := by
  cases a with
  | unreachable => rfl
  | above s =>
    cases b with
    | unreachable => rfl
    | above t => exact ofNames_eq _

lemma meet_eq (a b : BoundSet) : meet a b = .ok (a.meet b) := by
  cases a with
  | unreachable => rfl
  | above s =>
    cases b with
    | unreachable => rfl
    | above t => exact ofNames_eq _

instance : LawfulCheckedLattice BoundSet where
  join_eq := join_eq
  meet_eq := meet_eq
  widen_eq _ _ := rfl
  narrow_eq := meet_eq

end BoundSet.Checked

end ValueAnalysis
