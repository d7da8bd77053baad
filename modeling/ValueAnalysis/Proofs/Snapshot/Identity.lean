import Mathlib.Data.String.Basic
import ValueAnalysis.Proofs.Pentagon.Decidable
import ValueAnalysis.Proofs.Snapshot.Data
import ValueAnalysis.Proofs.Taint.Lattice
import ValueAnalysis.State

/-! Snapshots identify states. The written bounds of an interval can be told apart, since a number holds no comma, and a
set of names is shown in their order. So the data of a state gives back the value of each variable. Environments and
pentagons are both shown as listings, in which the order of names does not count. -/

namespace ValueAnalysis

namespace ExtInt

lemma isDigit_of_mem_repr {c : Char} {m : Nat} (h : c ∈ m.repr.toList) : c.isDigit = true := by
  rw [Nat.toList_repr] at h
  exact Nat.isDigit_of_mem_toDigits (by decide) (by decide) h

lemma mem_text_fin {c : Char} {n : Int} (h : c ∈ (fin n).text.toList) : c = '-' ∨ c.isDigit = true := by
  have htext : (fin n).text = n.repr := rfl
  rw [htext, Int.repr_eq_if] at h
  split at h
  · exact .inr (isDigit_of_mem_repr h)
  · rw [String.toList_append] at h
    exact (List.mem_cons.mp h).imp_right isDigit_of_mem_repr

lemma text_fin_injective {m n : Int} (h : (fin m).text = (fin n).text) : m = n := by
  have hvalue {a b : Nat} (hab : a.repr.toList = b.repr.toList) : a = b := by
    rw [Nat.toList_repr, Nat.toList_repr] at hab
    rw [← Nat.ofDigitChars_ten_toDigits (n := a), hab, Nat.ofDigitChars_ten_toDigits]
  have hsign {a b : Nat} : a.repr.toList ≠ ("-" ++ b.repr).toList := by
    intro hab
    have hminus : '-' ∈ a.repr.toList := by
      rw [hab, String.toList_append]
      exact List.mem_cons_self
    exact absurd (isDigit_of_mem_repr hminus) (by decide)
  have hlist : m.repr.toList = n.repr.toList := congrArg String.toList h
  rw [Int.repr_eq_if, Int.repr_eq_if] at hlist
  split at hlist <;> split at hlist
  · have := hvalue hlist
    omega
  · exact absurd hlist hsign
  · exact absurd hlist.symm hsign
  · rw [String.toList_append, String.toList_append] at hlist
    have := hvalue (List.append_cancel_left hlist)
    omega

lemma text_fin_ne {c : Char} {s : String} (hc : c ∈ s.toList) (hne : c ≠ '-' ∧ c.isDigit = false) (n : Int) :
    (fin n).text ≠ s := by
  rintro rfl
  rcases mem_text_fin hc with h | h
  · exact hne.1 h
  · simp [hne.2] at h

lemma text_injective {a b : ExtInt} (h : a.text = b.text) : a = b := by
  have hminus (n : Int) : (fin n).text ≠ "-Inf" := text_fin_ne (c := 'I') (by decide) (by decide) n
  have hplus (n : Int) : (fin n).text ≠ "+Inf" := text_fin_ne (c := 'I') (by decide) (by decide) n
  have hnan (n : Int) : (fin n).text ≠ "NaN" := text_fin_ne (c := 'N') (by decide) (by decide) n
  cases a <;> cases b
  case fin.fin m n => exact congrArg fin (text_fin_injective h)
  case fin.negInf n => exact absurd h (hminus n)
  case fin.posInf n => exact absurd h (hplus n)
  case fin.nan n => exact absurd h (hnan n)
  case negInf.fin n => exact absurd h.symm (hminus n)
  case posInf.fin n => exact absurd h.symm (hplus n)
  case nan.fin n => exact absurd h.symm (hnan n)
  all_goals first | rfl | exact absurd h (by decide)

lemma comma_not_mem_text (a : ExtInt) : ',' ∉ a.text.toList := by
  cases a with
  | fin n =>
    intro h
    exact absurd (mem_text_fin h) (by decide)
  | negInf => decide
  | posInf => decide
  | nan => decide

end ExtInt

namespace Interval

lemma toList_text {a : Interval} (h : a.isEmpty = false) :
    a.text.toList = '[' :: (a.low.text.toList ++ ',' :: (' ' :: (a.high.text.toList ++ [']']))) := by
  simp [text, h]

lemma text_injective {a b : Interval} (ha : a.isEmpty = false) (hb : b.isEmpty = false) (h : a.text = b.text) :
    a = b := by
  have hrest : ',' ∉ ' ' :: (a.high.text.toList ++ [']']) := by
    simp [a.high.comma_not_mem_text]
  have hlist := congrArg String.toList h
  rw [toList_text ha, toList_text hb, List.cons_inj_right,
    List.append_cons_inj_of_notMem a.low.comma_not_mem_text hrest] at hlist
  obtain ⟨hlow, -, hhigh⟩ := hlist
  rw [List.cons_inj_right, List.append_cancel_right_eq] at hhigh
  exact Interval.ext (ExtInt.text_injective (String.toList_inj.mp hlow))
    (ExtInt.text_injective (String.toList_inj.mp hhigh))

lemma toData_snapshot (a : Interval) :
    a.snapshot.toData = .string (if a.isEmpty then Snapshot.bottomText else a.text) := by
  rw [snapshot]
  split <;> rfl

lemma text_ne_bottomText {a : Interval} (h : a.isEmpty = false) : a.text ≠ Snapshot.bottomText := by
  intro htext
  have hlist := congrArg String.toList htext
  rw [toList_text h] at hlist
  exact absurd (List.cons.inj hlist).1 (by decide)

lemma eq_of_same_data {a b : Interval} (h : a.snapshot.toData.same b.snapshot.toData = true) : a = b := by
  rw [toData_snapshot, toData_snapshot, Data.same_string] at h
  cases ha : a.isEmpty <;> cases hb : b.isEmpty <;> simp only [ha, hb, if_true, Bool.false_eq_true, if_false] at h
  · exact text_injective ha hb h
  · exact absurd h (text_ne_bottomText ha)
  · exact absurd h.symm (text_ne_bottomText hb)
  · rw [(isEmpty_iff a).mp ha, (isEmpty_iff b).mp hb]

end Interval

lemma Taint.eq_of_same_data {a b : Taint} (h : a.snapshot.toData.same b.snapshot.toData = true) : a = b := by
  cases a <;> cases b <;> first | rfl | exact absurd h (by decide)

namespace Snapshot

lemma distinct_texts {names : List String} (h : names.Nodup) : distinct (names.map text) = names.map text := by
  induction names with
  | nil => rfl
  | cons x rest ih =>
    obtain ⟨hx, hrest⟩ := List.nodup_cons.mp h
    rw [List.map_cons, distinct, ih hrest, List.filter_eq_self.mpr]
    simp only [List.forall_mem_map]
    intro y hy
    simp [same, kindName, render, ne_of_mem_of_not_mem hy hx |>.symm]

lemma toDataAll_texts (names : List String) : toDataAll (names.map text) = names.map Data.string := by
  induction names with
  | nil => rfl
  | cons x rest ih => rw [List.map_cons, toDataAll, ih, toData, List.map_cons]

lemma setOf_texts (s : NameSet) : setOf (s.names.map text) = set (s.names.map text) := by
  have hsorted : (s.names.map text).Pairwise fun x y => decide (x.render ≤ y.render) = true := by
    rw [List.pairwise_map]
    exact s.sorted.imp fun hlt => decide_eq_true (le_of_lt hlt)
  have hnodup : s.names.Nodup := s.sorted.imp fun hlt => String.ne_of_lt hlt
  rw [setOf, distinct_texts hnodup, List.mergeSort_of_pairwise hsorted]

lemma mapOf_texts (s : NameSet) (f : String → Snapshot) :
    mapOf (s.names.map fun x => (text x, f x)) = map (s.names.map fun x => (text x, f x)) := by
  rw [mapOf, List.mergeSort_of_pairwise]
  rw [List.pairwise_map]
  exact s.sorted.imp fun hlt => decide_eq_true (le_of_lt hlt)

lemma renderEntries_congr {f g : String → Snapshot} (h : ∀ x, (f x).render = (g x).render) (names : List String) :
    renderEntries (names.map fun x => (text x, f x)) = renderEntries (names.map fun x => (text x, g x)) := by
  induction names with
  | nil => rfl
  | cons x rest ih => rw [List.map_cons, List.map_cons, renderEntries, renderEntries, h x, ih]

end Snapshot

lemma Data.eq_of_sameAll_strings {xs ys : List String}
    (h : sameAll (xs.map string) (ys.map string) = true) : xs = ys := by
  induction xs generalizing ys with
  | nil =>
    cases ys with
    | nil => rfl
    | cons y ys => exact absurd h (by simp [sameAll])
  | cons x xs ih =>
    cases ys with
    | nil => exact absurd h (by simp [sameAll])
    | cons y ys =>
      rw [List.map_cons, List.map_cons, sameAll, Bool.and_eq_true, same_string] at h
      rw [h.1, ih h.2]

namespace BoundSet

lemma snapshot_above {s : NameSet} (h : s.isEmpty = false) : (above s).snapshot = .set (s.names.map .text) := by
  rw [snapshot, h, if_neg Bool.false_ne_true, Snapshot.setOf_texts]

lemma toData_snapshot_above (s : NameSet) : s = ∅ ∧ (above s).snapshot.toData = .string Snapshot.topText ∨
    (above s).snapshot.toData = .array (s.names.map .string) := by
  cases h : s.isEmpty with
  | true =>
    rw [snapshot, if_pos h]
    exact .inl ⟨NameSet.isEmpty_iff.mp h, rfl⟩
  | false =>
    rw [snapshot_above h, Snapshot.toData, Snapshot.toDataAll_texts]
    exact .inr rfl

lemma not_same_bottom (s : NameSet) : (Data.string Snapshot.bottomText).same (above s).snapshot.toData = false ∧
    (above s).snapshot.toData.same (.string Snapshot.bottomText) = false := by
  rcases toData_snapshot_above s with ⟨_, hdata⟩ | hdata <;> rw [hdata]
  · decide
  · exact ⟨rfl, rfl⟩

lemma eq_of_same_data {a b : BoundSet} (h : a.snapshot.toData.same b.snapshot.toData = true) : a = b := by
  have hbottom : unreachable.snapshot.toData = .string Snapshot.bottomText := rfl
  cases a <;> cases b
  case unreachable.unreachable => rfl
  case unreachable.above t => simp [hbottom, (not_same_bottom t).1] at h
  case above.unreachable s => simp [hbottom, (not_same_bottom s).2] at h
  case above.above s t =>
    rcases toData_snapshot_above s with ⟨hs, hdata⟩ | hdata <;>
      rcases toData_snapshot_above t with ⟨ht, hdata'⟩ | hdata' <;> rw [hdata, hdata'] at h
    · rw [hs, ht]
    · exact absurd h Bool.false_ne_true
    · exact absurd h Bool.false_ne_true
    · have hnames := Data.eq_of_sameAll_strings h
      exact congrArg above (NameSet.ext fun x => by rw [NameSet.mem_def, NameSet.mem_def, hnames])

end BoundSet

/-- What a state tells: whether it is unreachable, and the value of each name. The names whose value says something are
listed in some order. -/
structure Listing (V : Type) (unset : V) where
  isBottom : Bool
  names : List String
  value : String → V
  nodup : names.Nodup
  mem_names_iff : isBottom = false → ∀ x, x ∈ names ↔ value x ≠ unset

namespace Listing

variable {V : Type} {unset : V} {l m : Listing V unset} {cell : V → Snapshot}

def rows (l : Listing V unset) (cell : V → Snapshot) : List (String × Snapshot) :=
  l.names.map fun x => (x, cell (l.value x))

def snapshot (l : Listing V unset) (cell : V → Snapshot) : Snapshot := .sheet l.isBottom (l.rows cell)

def Agrees (l m : Listing V unset) : Prop :=
  l.isBottom = m.isBottom ∧ (l.isBottom = false → ∀ x, l.value x = m.value x)

lemma map_fst_rows (l : Listing V unset) (cell : V → Snapshot) : (l.rows cell).map Prod.fst = l.names := by
  simp [rows, Function.comp_def]

lemma nodup_rows (l : Listing V unset) (cell : V → Snapshot) : ((l.rows cell).map Prod.fst).Nodup := by
  rw [map_fst_rows]
  exact l.nodup

lemma mem_rows {x : String} {s : Snapshot} : (x, s) ∈ l.rows cell ↔ x ∈ l.names ∧ cell (l.value x) = s := by
  simp [rows]

lemma Agrees.snapshot_eq (h : l.Agrees m) (cell : V → Snapshot) : l.snapshot cell = m.snapshot cell := by
  obtain ⟨hbottom, hvalue⟩ := h
  rw [snapshot, snapshot, ← hbottom]
  cases hl : l.isBottom with
  | true => rfl
  | false =>
    have hfun : l.value = m.value := funext (hvalue hl)
    have hnames : l.names.Perm m.names := by
      rw [List.perm_ext_iff_of_nodup l.nodup m.nodup]
      intro x
      rw [l.mem_names_iff hl, m.mem_names_iff (hbottom ▸ hl), hfun]
    refine Snapshot.sheet_eq_of_perm (l.nodup_rows cell) false ?_
    rw [rows, rows, hfun]
    exact hnames.map _

lemma same_snapshot_iff (hcell : ∀ v w, (cell v).toData.same (cell w).toData = true → v = w) :
    (l.snapshot cell).toData.same (m.snapshot cell).toData = true ↔ l.Agrees m := by
  constructor
  · intro h
    obtain ⟨hbottom, hrows⟩ := (Snapshot.same_sheet_iff (l.nodup_rows cell) (m.nodup_rows cell) _ _).mp h
    refine ⟨hbottom, fun hl x => ?_⟩
    obtain ⟨hsame, hkeys⟩ := hrows hl
    rw [map_fst_rows, map_fst_rows] at hkeys
    by_cases hx : x ∈ l.names
    · obtain ⟨y, hy, hdata⟩ := hsame x _ (mem_rows.mpr ⟨hx, rfl⟩)
      obtain ⟨_, rfl⟩ := mem_rows.mp hy
      exact hcell _ _ hdata
    · -- A name missing on both sides has the value that says nothing on both.
      have hx' : x ∉ m.names := fun hmem => hx (hkeys x hmem)
      rw [l.mem_names_iff hl, not_not] at hx
      rw [m.mem_names_iff (hbottom ▸ hl), not_not] at hx'
      rw [hx, hx']
  · intro h
    rw [h.snapshot_eq cell]
    exact Snapshot.same_toData_self _

end Listing

namespace Env

open AbstractDomain (top)

variable {L : Type} [AbstractDomain L] [LawfulDomain L] {a b : Env L}

namespace WellFormed

def listing (h : a.WellFormed) : Listing L top where
  isBottom := a.unreachable
  names := a.facts.keys
  value := a.get
  nodup := a.facts.nodup
  mem_names_iff hr _ := h.mem_keys_iff hr

lemma rows_listing (h : a.WellFormed) (hr : a.unreachable = false) (cell : L → Snapshot) :
    h.listing.rows cell = a.facts.entries.map fun e => (e.1, cell e.2) := by
  have hrows : h.listing.rows cell = (a.facts.entries.map Prod.fst).map fun x => (x, cell (a.get x)) := rfl
  rw [hrows, List.map_map]
  refine List.map_congr_left fun e he => ?_
  have hget : a.get e.1 = e.2 := by rw [get_eq hr, Table.mem_entries_iff.mp he, Option.getD_some]
  rw [Function.comp_apply, hget]

lemma snapshot_eq (h : a.WellFormed) : a.snapshot = h.listing.snapshot AbstractDomain.snapshot := by
  rw [Env.snapshot, h.isBottom_eq, Listing.snapshot]
  cases hr : a.unreachable with
  | true =>
    have hbottom : h.listing.isBottom = true := hr
    rw [hbottom]
    rfl
  | false =>
    have hbottom : h.listing.isBottom = false := hr
    rw [hbottom, h.rows_listing hr, Env.isTop, hr, Snapshot.sheet, Snapshot.table, List.isEmpty_map, List.map_map]
    rfl

lemma agrees_iff [DecidableEq L] (ha : a.WellFormed) (hb : b.WellFormed) :
    ha.listing.Agrees hb.listing ↔ a.same b = true := by
  rw [same_iff_get ha hb]
  refine and_congr_right fun hr => ⟨fun h x => ?_, fun h _ => h⟩
  cases ha' : a.unreachable with
  | true => rw [get_of_unreachable ha', get_of_unreachable (hr.symm.trans ha')]
  | false => exact h ha' x

end WellFormed

end Env

namespace Pentagon

variable {p q : Pentagon}

def cell (v : Interval × BoundSet) : Snapshot := .list [v.1.snapshot, v.2.snapshot]

lemma eq_of_same_cell (v w : Interval × BoundSet) (h : (cell v).toData.same (cell w).toData = true) : v = w := by
  simp only [cell, Snapshot.toData, Snapshot.toDataAll, Data.same_array, Data.sameAll, Bool.and_eq_true] at h
  exact Prod.ext (Interval.eq_of_same_data h.1) (BoundSet.eq_of_same_data h.2.1)

lemma text_eq_of_render_cell (hbottom : p.isBottom = q.isBottom) (htop : p.isTop = q.isTop) (hnames : p.names = q.names)
    (hcell : ∀ x, (cell (p.intervals.get x, p.bounds.get x)).render =
      (cell (q.intervals.get x, q.bounds.get x)).render) : AbstractDomain.text p = AbstractDomain.text q := by
  have htext (r : Pentagon) : AbstractDomain.text r = r.snapshot.render := rfl
  rw [htext, htext, snapshot, snapshot, hbottom, htop, hnames]
  split
  · rfl
  · split
    · rfl
    · rw [Snapshot.mapOf_texts, Snapshot.mapOf_texts, Snapshot.render, Snapshot.render]
      exact congrArg _ (Snapshot.renderEntries_congr hcell _)

lemma mem_names {x : String} : x ∈ p.names ↔ x ∈ p.intervals.facts.keys ∨ x ∈ p.bounds.facts.keys := by
  simp [names, Env.names]

lemma isEmpty_names (p : Pentagon) :
    p.names.isEmpty = (p.bounds.facts.isEmpty && p.intervals.facts.isEmpty) := by
  have hkeys {L : Type} (t : Table L) : t.isEmpty = true ↔ ∀ x, x ∉ t.keys := by
    rw [Table.isEmpty, List.isEmpty_iff, ← List.eq_nil_iff_forall_not_mem, Table.keys, List.map_eq_nil_iff]
  rw [Bool.eq_iff_iff, Bool.and_eq_true, hkeys, hkeys, ← forall_and, NameSet.isEmpty, List.isEmpty_iff,
    List.eq_nil_iff_forall_not_mem]
  refine forall_congr' fun x => ?_
  rw [← NameSet.mem_def, mem_names, not_or, and_comm]

namespace WellFormed

lemma unreachable_eq (h : p.WellFormed) :
    p.bounds.unreachable = p.isBottom ∧ p.intervals.unreachable = p.isBottom := by
  rw [← h.1.isBottom_eq, ← h.2.1.isBottom_eq]
  exact ⟨h.isBottom_bounds, h.isBottom_intervals⟩

lemma mem_names_iff (h : p.WellFormed) (hr : p.isBottom = false) (x : String) :
    x ∈ p.names.names ↔ (p.intervals.get x, p.bounds.get x) ≠ (.all, .top) := by
  obtain ⟨hb, hi⟩ := h.unreachable_eq
  rw [← NameSet.mem_def, mem_names, h.2.1.mem_keys_iff (hi.trans hr), h.1.mem_keys_iff (hb.trans hr), ← not_and_or,
    ne_eq, Prod.mk.injEq]
  rfl

def listing (h : p.WellFormed) : Listing (Interval × BoundSet) (.all, .top) where
  isBottom := p.isBottom
  names := p.names.names
  value x := (p.intervals.get x, p.bounds.get x)
  nodup := p.names.sorted.imp fun hlt => String.ne_of_lt hlt
  mem_names_iff := h.mem_names_iff

lemma isTop_eq (h : p.WellFormed) : p.isTop = (!p.isBottom && p.names.isEmpty) := by
  obtain ⟨hb, hi⟩ := h.unreachable_eq
  rw [Pentagon.isTop, Env.isTop, Env.isTop, hb, hi, isEmpty_names]
  cases p.isBottom <;> simp

lemma snapshot_eq (h : p.WellFormed) : p.snapshot = h.listing.snapshot cell := by
  rw [Pentagon.snapshot, h.isTop_eq, Listing.snapshot]
  have hbottom : h.listing.isBottom = p.isBottom := rfl
  rw [hbottom]
  cases p.isBottom with
  | true => rfl
  | false =>
    have hrows : h.listing.rows cell = p.names.names.map fun x => (x, cell (p.intervals.get x, p.bounds.get x)) := rfl
    rw [Snapshot.sheet, Snapshot.table, hrows, List.isEmpty_map, List.map_map]
    rfl

lemma agrees_iff (hp : p.WellFormed) (hq : q.WellFormed) : hp.listing.Agrees hq.listing ↔ p.same q = true := by
  have hvalue (x : String) : hp.listing.value x = hq.listing.value x ↔
      p.bounds.get x = q.bounds.get x ∧ p.intervals.get x = q.intervals.get x := by
    rw [and_comm]
    exact Prod.mk_inj
  rw [hp.same_iff_get hq]
  refine and_congr_right fun hr => ⟨fun h x => ?_, fun h _ x => (hvalue x).mpr (h x)⟩
  cases hpb : p.isBottom with
  | true =>
    obtain ⟨hb, hi⟩ := hp.get_of_isBottom hpb x
    obtain ⟨hb', hi'⟩ := hq.get_of_isBottom (hr.symm.trans hpb) x
    rw [hb, hi, hb', hi']
    exact ⟨rfl, rfl⟩
  | false => exact (hvalue x).mp (h hpb x)

end WellFormed

end Pentagon

section Identified

variable {S : Type} [AbstractState S]

open AbstractDomain (snapshot text)
open AbstractState (same)

/-- The data of two states is the same just if the states are, and then the whole snapshots are, with all that is
written from them. -/
def IdentifiedBySnapshots (s t : S) : Prop :=
  ((snapshot s).toData.same (snapshot t).toData = true ↔ same s t = true) ∧
    (same s t = true → snapshot s = snapshot t ∧ text s = text t ∧
      (snapshot s).toSexp = (snapshot t).toSexp ∧ (snapshot s).sexpText = (snapshot t).sexpText)

lemma identifiedBySnapshots_of_listing {V : Type} {unset : V} {cell : V → Snapshot} {s t : S} {l m : Listing V unset}
    (htext : ∀ s : S, text s = (snapshot s).render)
    (hcell : ∀ v w, (cell v).toData.same (cell w).toData = true → v = w)
    (hs : snapshot s = l.snapshot cell) (ht : snapshot t = m.snapshot cell)
    (hsame : l.Agrees m ↔ same s t = true) : IdentifiedBySnapshots s t := by
  refine ⟨?_, fun h => ?_⟩
  · rw [hs, ht, Listing.same_snapshot_iff hcell, hsame]
  · have hsnapshot : snapshot s = snapshot t := by rw [hs, ht, (hsame.mpr h).snapshot_eq cell]
    rw [htext, htext, hsnapshot]
    exact ⟨rfl, rfl, rfl, rfl⟩

end Identified

theorem snapshots_identify_states :
    (∀ a b : Env Interval, a.WellFormed → b.WellFormed → IdentifiedBySnapshots a b) ∧
      (∀ a b : Env Taint, a.WellFormed → b.WellFormed → IdentifiedBySnapshots a b) ∧
      (∀ a b : Bounds, a.WellFormed → b.WellFormed → IdentifiedBySnapshots a b) ∧
      ∀ p q : Pentagon, p.WellFormed → q.WellFormed → IdentifiedBySnapshots p q := by
  refine ⟨fun a b ha hb => ?_, fun a b ha hb => ?_, fun a b ha hb => ?_, fun p q hp hq => ?_⟩
  · exact identifiedBySnapshots_of_listing (fun _ => rfl) (fun _ _ => Interval.eq_of_same_data)
      ha.snapshot_eq hb.snapshot_eq (ha.agrees_iff hb)
  · exact identifiedBySnapshots_of_listing (fun _ => rfl) (fun _ _ => Taint.eq_of_same_data)
      ha.snapshot_eq hb.snapshot_eq (ha.agrees_iff hb)
  · exact identifiedBySnapshots_of_listing (fun _ => rfl) (fun _ _ => BoundSet.eq_of_same_data)
      ha.snapshot_eq hb.snapshot_eq (ha.agrees_iff hb)
  · exact identifiedBySnapshots_of_listing (fun _ => rfl) Pentagon.eq_of_same_cell
      hp.snapshot_eq hq.snapshot_eq (hp.agrees_iff hq)

/-- The order of insertion does not show. Two bounds and one bound with a comma in its name have the same text, but not
the same data. -/
theorem snapshots_identify_states_reordered :
    let i : Interval := .ofBounds (.fin 1) .posInf
    let p : Pentagon := ⟨⟨⟨[("_|_", .above (.ofList ["a", "b"]))], by decide⟩, false⟩,
      ⟨⟨[("#TOP#", i), ("x: y", i)], by decide⟩, false⟩⟩
    let q : Pentagon := ⟨p.bounds, ⟨⟨[("x: y", i), ("#TOP#", i)], by decide⟩, false⟩⟩
    let r : Pentagon := ⟨⟨⟨[("_|_", .above (.ofList ["a, b"]))], by decide⟩, false⟩, p.intervals⟩
    (p.WellFormed ∧ q.WellFormed ∧ r.WellFormed) ∧ p ≠ q ∧ p.snapshot = q.snapshot ∧
      AbstractDomain.text p = AbstractDomain.text q ∧ p.snapshot.toSexp = q.snapshot.toSexp ∧
      p.snapshot.sexpText = q.snapshot.sexpText ∧ AbstractDomain.text p = AbstractDomain.text r ∧
      ¬ p.snapshot.toData.same r.snapshot.toData = true := by
  intro i p q r
  have hp : p.WellFormed := by decide
  have hq : q.WellFormed := by decide
  have hr : r.WellFormed := by decide
  obtain ⟨hsnapshot, htext, hsexp, hsexpText⟩ := (snapshots_identify_states.2.2.2 p q hp hq).2 (by decide)
  have hpr := (snapshots_identify_states.2.2.2 p r hp hr).1
  have hcell : ∀ x, (Pentagon.cell (p.intervals.get x, p.bounds.get x)).render =
      (Pentagon.cell (r.intervals.get x, r.bounds.get x)).render := by
    intro x
    by_cases hx : x = "_|_"
    · have hbounds : p.bounds.get x = .above (.ofList ["a", "b"]) ∧ r.bounds.get x = .above (.ofList ["a, b"]) := by
        rw [hx]
        decide
      rw [Pentagon.cell, Pentagon.cell, hbounds.1, hbounds.2, BoundSet.snapshot_above (by decide),
        BoundSet.snapshot_above (by decide)]
      rfl
    · have hbounds : p.bounds.get x = r.bounds.get x := by
        simp [p, r, Env.get, Table.get?, Table.find, Ne.symm hx]
      rw [hbounds]
  have htext' := Pentagon.text_eq_of_render_cell (by decide) (by decide) (by decide) hcell
  exact ⟨⟨hp, hq, hr⟩, by decide, hsnapshot, htext, hsexp, hsexpText, htext', fun h => absurd (hpr.mp h) (by decide)⟩

end ValueAnalysis
