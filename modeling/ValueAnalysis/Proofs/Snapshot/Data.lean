import Mathlib.Data.List.Nodup
import ValueAnalysis.Collection.Table
import ValueAnalysis.Snapshot.Basic

/-! Equality of plain data, and the data of a map with rows of its own for each name. Such a map does not show the
order of its rows, and its data equals that of another map just if the rows agree name by name. -/

namespace ValueAnalysis

namespace Data

mutual

/-- Equality of plain data. The order of items counts in an array, but not that of the fields in an object. -/
def same : Data → Data → Bool
  | string s, string t => s == t
  | array xs, array ys => sameAll xs ys
  | object fs, object gs => sameFields fs gs && gs.all fun g => (Table.find g.1 fs).isSome
  | _, _ => false

def sameAll : List Data → List Data → Bool
  | [], [] => true
  | x :: xs, y :: ys => same x y && sameAll xs ys
  | _, _ => false

def sameFields : List (String × Data) → List (String × Data) → Bool
  | [], _ => true
  | (k, d) :: rest, gs => (Table.find k gs).any (same d) && sameFields rest gs

end

@[simp] lemma same_string {s t : String} : (string s).same (string t) = true ↔ s = t := beq_iff_eq

@[simp] lemma same_array (xs ys : List Data) : (array xs).same (array ys) = sameAll xs ys := rfl

lemma sameFields_iff {fs gs : List (String × Data)} :
    sameFields fs gs = true ↔ ∀ k d, (k, d) ∈ fs → ∃ e, Table.find k gs = some e ∧ d.same e = true := by
  induction fs with
  | nil => simp [sameFields]
  | cons f rest ih =>
    obtain ⟨k, d⟩ := f
    simp only [sameFields, Bool.and_eq_true, ih, Option.any_eq_true, List.mem_cons, Prod.mk.injEq]
    constructor
    · rintro ⟨hhead, hrest⟩ k' d' (⟨rfl, rfl⟩ | hmem)
      · exact hhead
      · exact hrest k' d' hmem
    · intro h
      exact ⟨h k d (.inl ⟨rfl, rfl⟩), fun k' d' hmem => h k' d' (.inr hmem)⟩

lemma same_object_iff {fs gs : List (String × Data)} (hg : (gs.map Prod.fst).Nodup) :
    (object fs).same (object gs) = true ↔
      (∀ k d, (k, d) ∈ fs → ∃ e, (k, e) ∈ gs ∧ d.same e = true) ∧
        ∀ k, k ∈ gs.map Prod.fst → k ∈ fs.map Prod.fst := by
  have hfind (k : String) (e : Data) : Table.find k gs = some e ↔ (k, e) ∈ gs :=
    ⟨Table.mem_of_find, Table.find_of_mem hg⟩
  have hkey (k : String) : (Table.find k fs).isSome = true ↔ k ∈ fs.map Prod.fst := by
    rw [← Option.ne_none_iff_isSome, ne_eq, Table.find_eq_none_iff, not_not]
  simp only [same, Bool.and_eq_true, sameFields_iff, hfind, List.all_eq_true, hkey, List.forall_mem_map]

end Data

namespace Snapshot

lemma setField_eq (k : String) (d : Data) (fields : List (String × Data)) :
    setField k d fields = Table.insertEntry k d fields := by
  induction fields with
  | nil => rfl
  | cons f rest ih => rw [setField, Table.insertEntry, ih]

lemma setField_of_not_mem {k : String} {fields : List (String × Data)} (h : k ∉ fields.map Prod.fst) (d : Data) :
    setField k d fields = fields ++ [(k, d)] := by
  induction fields with
  | nil => rfl
  | cons f rest ih =>
    rw [List.map_cons, List.mem_cons, not_or] at h
    rw [setField, if_neg (Ne.symm h.1), ih h.2, List.cons_append]

lemma toFields_eq {fields : List (String × Data)} {entries : List (Snapshot × Snapshot)}
    (h : (fields.map Prod.fst ++ entries.map (·.1.render)).Nodup) :
    toFields fields entries = fields ++ entries.map fun e => (e.1.render, e.2.toData) := by
  induction entries generalizing fields with
  | nil => rw [toFields, List.map_nil, List.append_nil]
  | cons e rest ih =>
    obtain ⟨k, v⟩ := e
    have hk : k.render ∉ fields.map Prod.fst := by
      intro hmem
      exact (List.nodup_append.mp h).2.2 _ hmem _ List.mem_cons_self rfl
    rw [toFields, setField_of_not_mem hk, ih]
    · rw [List.append_assoc]
      rfl
    · rwa [List.map_append, List.append_assoc]

section Self

lemma mem_setField {f : String × Data} {k : String} {d : Data} {fields : List (String × Data)}
    (h : f ∈ setField k d fields) : f = (k, d) ∨ f ∈ fields := by
  induction fields with
  | nil => exact .inl (List.mem_singleton.mp h)
  | cons g rest ih =>
    rw [setField] at h
    split at h
    · exact (List.mem_cons.mp h).imp_right (List.mem_cons_of_mem g)
    · rcases List.mem_cons.mp h with rfl | hrest
      · exact .inr List.mem_cons_self
      · exact (ih hrest).imp_right (List.mem_cons_of_mem g)

mutual

/-- No object among the data of a snapshot repeats a key, so the data equals itself. -/
lemma same_toData_self : ∀ x : Snapshot, x.toData.same x.toData = true
  | text _ | top | bottom => by rw [toData, Data.same_string]
  | set items | list items => by rw [toData, Data.same_array, sameAll_toDataAll_self items]
  | map entries => by
    obtain ⟨hnodup, hself⟩ := same_toFields_self [] entries List.nodup_nil nofun
    rw [toData, Data.same_object_iff hnodup]
    exact ⟨fun k d hmem => ⟨d, hmem, hself _ hmem⟩, fun k hk => hk⟩

lemma sameAll_toDataAll_self : ∀ items : List Snapshot, Data.sameAll (toDataAll items) (toDataAll items) = true
  | [] => rfl
  | x :: xs => by
    rw [toDataAll, Data.sameAll, same_toData_self x, sameAll_toDataAll_self xs]
    rfl

lemma same_toFields_self : ∀ (fields : List (String × Data)) (entries : List (Snapshot × Snapshot)),
    (fields.map Prod.fst).Nodup → (∀ f ∈ fields, f.2.same f.2 = true) →
      ((toFields fields entries).map Prod.fst).Nodup ∧ ∀ f ∈ toFields fields entries, f.2.same f.2 = true
  | _, [], hnodup, hself => ⟨hnodup, hself⟩
  | fields, (k, v) :: rest, hnodup, hself => by
    rw [toFields]
    apply same_toFields_self _ rest
    · rw [setField_eq]
      exact Table.nodup_insertEntry hnodup
    · intro f hf
      rcases mem_setField hf with rfl | hmem
      · exact same_toData_self v
      · exact hself f hmem

end

end Self

lemma pairwise_mergeSort_render (entries : List (Snapshot × Snapshot)) :
    (entries.mergeSort fun x y => decide (x.1.render ≤ y.1.render)).Pairwise fun x y => x.1.render ≤ y.1.render := by
  have hsorted : (entries.mergeSort fun x y => decide (x.1.render ≤ y.1.render)).Pairwise
      fun x y => decide (x.1.render ≤ y.1.render) = true := by
    apply List.pairwise_mergeSort
    · intro x y z hxy hyz
      exact decide_eq_true (String.le_trans (of_decide_eq_true hxy) (of_decide_eq_true hyz))
    · intro x y
      simpa using String.le_total x.1.render y.1.render
  exact hsorted.imp of_decide_eq_true

lemma mapOf_eq_of_perm {entries entries' : List (Snapshot × Snapshot)}
    (h : (entries.map (·.1.render)).Nodup) (hperm : entries.Perm entries') : mapOf entries = mapOf entries' := by
  rw [mapOf, mapOf]
  congr 1
  refine List.Perm.eq_of_pairwise ?_ (pairwise_mergeSort_render entries) (pairwise_mergeSort_render entries') ?_
  · intro a b ha hb hab hba
    rw [List.mem_mergeSort] at ha hb
    exact List.inj_on_of_nodup_map h ha (hperm.mem_iff.mpr hb) (String.le_antisymm hab hba)
  · exact (List.mergeSort_perm _ _).trans (hperm.trans (List.mergeSort_perm _ _).symm)

lemma toData_mapOf {entries : List (Snapshot × Snapshot)} (h : (entries.map (·.1.render)).Nodup) :
    ∃ fields, (mapOf entries).toData = .object fields ∧ (fields.map Prod.fst).Nodup ∧
      fields.Perm (entries.map fun e => (e.1.render, e.2.toData)) := by
  have hperm := List.mergeSort_perm entries fun x y => decide (x.1.render ≤ y.1.render)
  have hnodup := (hperm.map (·.1.render)).nodup_iff.mpr h
  have hfields : toFields [] (entries.mergeSort fun x y => decide (x.1.render ≤ y.1.render)) = _ := toFields_eq hnodup
  refine ⟨_, ?_, ?_, hperm.map _⟩
  · rw [mapOf, toData, hfields, List.nil_append]
  · rwa [List.map_map]

def table (rows : List (String × Snapshot)) : Snapshot := mapOf (rows.map fun e => (text e.1, e.2))

/-- Each row of the first list has one of the same name and data in the second, and no name is new there. -/
def RowsAgree (rows rows' : List (String × Snapshot)) : Prop :=
  (∀ k x, (k, x) ∈ rows → ∃ y, (k, y) ∈ rows' ∧ x.toData.same y.toData = true) ∧
    ∀ k, k ∈ rows'.map Prod.fst → k ∈ rows.map Prod.fst

section Table

variable {rows rows' : List (String × Snapshot)}

lemma map_render_rows (rows : List (String × Snapshot)) :
    (rows.map fun e => (text e.1, e.2)).map (·.1.render) = rows.map Prod.fst := by
  rw [List.map_map]
  rfl

lemma table_eq_of_perm (h : (rows.map Prod.fst).Nodup) (hperm : rows.Perm rows') : table rows = table rows' :=
  mapOf_eq_of_perm (by rwa [map_render_rows]) (hperm.map _)

lemma toData_table (h : (rows.map Prod.fst).Nodup) :
    ∃ fields, (table rows).toData = .object fields ∧ (fields.map Prod.fst).Nodup ∧
      fields.Perm (rows.map fun e => (e.1, e.2.toData)) := by
  rw [← map_render_rows] at h
  obtain ⟨fields, hdata, hnodup, hperm⟩ := toData_mapOf h
  rw [List.map_map] at hperm
  exact ⟨fields, hdata, hnodup, hperm⟩

lemma same_table_iff (h : (rows.map Prod.fst).Nodup) (h' : (rows'.map Prod.fst).Nodup) :
    (table rows).toData.same (table rows').toData = true ↔ RowsAgree rows rows' := by
  obtain ⟨fields, hdata, _, hperm⟩ := toData_table h
  obtain ⟨fields', hdata', hnodup', hperm'⟩ := toData_table h'
  have hkeys {l : List (String × Snapshot)} {fs : List (String × Data)}
      (hfs : fs.Perm (l.map fun e => (e.1, e.2.toData))) (k : String) :
      k ∈ fs.map Prod.fst ↔ k ∈ l.map Prod.fst := by
    rw [(hfs.map Prod.fst).mem_iff, List.map_map]
    rfl
  have hmem (l : List (String × Snapshot)) (k : String) (d : Data) :
      (k, d) ∈ l.map (fun e => (e.1, e.2.toData)) ↔ ∃ x, (k, x) ∈ l ∧ x.toData = d := by
    simp
  rw [hdata, hdata', Data.same_object_iff hnodup', RowsAgree]
  simp only [hperm.mem_iff, hperm'.mem_iff, hkeys hperm, hkeys hperm', hmem]
  refine and_congr_left fun _ => ?_
  constructor
  · intro hrows k x hx
    obtain ⟨d, ⟨y, hy, rfl⟩, hsame⟩ := hrows k _ ⟨x, hx, rfl⟩
    exact ⟨y, hy, hsame⟩
  · rintro hrows k d ⟨x, hx, rfl⟩
    obtain ⟨y, hy, hsame⟩ := hrows k x hx
    exact ⟨_, ⟨y, hy, rfl⟩, hsame⟩

end Table

def sheet (isBottom : Bool) (rows : List (String × Snapshot)) : Snapshot :=
  if isBottom then bottom else if rows.isEmpty then top else table rows

section Sheet

variable {rows rows' : List (String × Snapshot)} (h : (rows.map Prod.fst).Nodup)
include h

lemma sheet_eq_of_perm (isBottom : Bool) (hperm : rows.Perm rows') : sheet isBottom rows = sheet isBottom rows' := by
  rw [sheet, sheet, table_eq_of_perm h hperm, hperm.isEmpty_eq]

lemma toData_sheet : rows = [] ∧ (sheet false rows).toData = .string topText ∨
    rows ≠ [] ∧ sheet false rows = table rows ∧ ∃ fields, (sheet false rows).toData = .object fields := by
  cases rows with
  | nil => exact .inl ⟨rfl, rfl⟩
  | cons e rest =>
    obtain ⟨fields, hdata, _⟩ := toData_table h
    exact .inr ⟨List.cons_ne_nil e rest, rfl, fields, hdata⟩

lemma not_same_bottom : (Data.string bottomText).same (sheet false rows).toData = false ∧
    (sheet false rows).toData.same (.string bottomText) = false := by
  rcases toData_sheet h with ⟨_, hdata⟩ | ⟨_, _, fields, hdata⟩
  · rw [hdata]
    decide
  · rw [hdata]
    exact ⟨rfl, rfl⟩

lemma same_reachable_iff (h' : (rows'.map Prod.fst).Nodup) :
    (sheet false rows).toData.same (sheet false rows').toData = true ↔ RowsAgree rows rows' := by
  rcases toData_sheet h with ⟨rfl, hdata⟩ | ⟨hrows, htable, fields, hdata⟩ <;>
    rcases toData_sheet h' with ⟨rfl, hdata'⟩ | ⟨hrows', htable', fields', hdata'⟩
  · simp [hdata, RowsAgree]
  · obtain ⟨e, he⟩ := List.exists_mem_of_ne_nil rows' hrows'
    rw [hdata, hdata']
    refine iff_of_false nofun fun hagree => ?_
    exact absurd (hagree.2 e.1 (List.mem_map_of_mem he)) List.not_mem_nil
  · obtain ⟨e, he⟩ := List.exists_mem_of_ne_nil rows hrows
    rw [hdata, hdata']
    refine iff_of_false nofun fun hagree => ?_
    obtain ⟨y, hy, _⟩ := hagree.1 e.1 e.2 he
    exact absurd hy List.not_mem_nil
  · rw [htable, htable']
    exact same_table_iff h h'

lemma same_sheet_iff (h' : (rows'.map Prod.fst).Nodup) (b b' : Bool) :
    (sheet b rows).toData.same (sheet b' rows').toData = true ↔ b = b' ∧ (b = false → RowsAgree rows rows') := by
  have hbottom (l : List (String × Snapshot)) : (sheet true l).toData = .string bottomText := rfl
  cases b <;> cases b'
  · simp [same_reachable_iff h h']
  · simp [hbottom, (not_same_bottom h).2]
  · simp [hbottom, (not_same_bottom h').1]
  · simp [hbottom]

end Sheet

end Snapshot

end ValueAnalysis
