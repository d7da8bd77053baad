/-!
Finite maps from names to values that keep their keys in order of arrival. A key occurs once. The order is
only seen by those who list the entries; two tables with the same look-ups hold the same facts.
-/

namespace ValueAnalysis

universe u v w

structure Table (α : Type u) where
  entries : List (String × α)
  nodup : (entries.map Prod.fst).Nodup
  deriving DecidableEq

namespace Table

variable {α : Type u} {β : Type v} {γ : Type w}

def find (k : String) : List (String × α) → Option α
  | [] => none
  | (k', a) :: rest => if k' = k then some a else find k rest

theorem find_eq_none_iff {k : String} {l : List (String × α)} :
    find k l = none ↔ k ∉ l.map Prod.fst := by
  induction l with
  | nil => simp [find]
  | cons e rest ih =>
    obtain ⟨k', a⟩ := e
    by_cases h : k' = k
    · simp [find, h]
    · have h' : ¬ k = k' := fun he => h he.symm
      simp [find, h, h', ih]

theorem mem_of_find {k : String} {a : α} {l : List (String × α)} (h : find k l = some a) :
    (k, a) ∈ l := by
  induction l with
  | nil => simp [find] at h
  | cons e rest ih =>
    obtain ⟨k', a'⟩ := e
    by_cases hk : k' = k
    · simp only [find, hk, if_true, Option.some.injEq] at h
      simp [hk, h]
    · simp only [find, hk, if_false] at h
      exact List.mem_cons_of_mem _ (ih h)

theorem find_of_mem {k : String} {a : α} {l : List (String × α)} (hl : (l.map Prod.fst).Nodup)
    (h : (k, a) ∈ l) : find k l = some a := by
  induction l with
  | nil => simp at h
  | cons e rest ih =>
    obtain ⟨k', a'⟩ := e
    obtain ⟨hk', hrest⟩ := List.pairwise_cons.mp hl
    rcases List.mem_cons.mp h with he | hr
    · cases he
      simp [find]
    · have hne : k' ≠ k := hk' k (List.mem_map_of_mem hr)
      simp only [find, hne, if_false]
      exact ih hrest hr

def get? (t : Table α) (k : String) : Option α := find k t.entries

theorem mem_entries_iff {t : Table α} {k : String} {a : α} : (k, a) ∈ t.entries ↔ t.get? k = some a :=
  ⟨find_of_mem t.nodup, mem_of_find⟩

def empty : Table α := ⟨[], .nil⟩

instance : EmptyCollection (Table α) := ⟨empty⟩
instance : Inhabited (Table α) := ⟨empty⟩

@[simp] theorem get?_empty (k : String) : (∅ : Table α).get? k = none := rfl

def isEmpty (t : Table α) : Bool := t.entries.isEmpty

def keys (t : Table α) : List String := t.entries.map Prod.fst

def contains (t : Table α) (k : String) : Bool := (t.get? k).isSome

theorem mem_keys_iff {t : Table α} {k : String} : k ∈ t.keys ↔ (t.get? k).isSome = true := by
  rw [← Option.ne_none_iff_isSome, Ne, get?, find_eq_none_iff, keys]
  exact Classical.not_not.symm

/-- Replaces the value of a key in its place, or adds the key at the end. -/
def insertEntry (k : String) (a : α) : List (String × α) → List (String × α)
  | [] => [(k, a)]
  | (k', a') :: rest => if k' = k then (k, a) :: rest else (k', a') :: insertEntry k a rest

theorem keys_insertEntry {k z : String} {a : α} {l : List (String × α)} :
    z ∈ (insertEntry k a l).map Prod.fst ↔ z = k ∨ z ∈ l.map Prod.fst := by
  induction l with
  | nil => simp [insertEntry]
  | cons e rest ih =>
    obtain ⟨k', a'⟩ := e
    by_cases h : k' = k
    · simp [insertEntry, h]
    · simp only [insertEntry, h, if_false, List.map_cons, List.mem_cons, ih]
      exact or_left_comm

theorem nodup_insertEntry {k : String} {a : α} {l : List (String × α)} (hl : (l.map Prod.fst).Nodup) :
    ((insertEntry k a l).map Prod.fst).Nodup := by
  induction l with
  | nil => simp [insertEntry]
  | cons e rest ih =>
    obtain ⟨k', a'⟩ := e
    obtain ⟨hk', hrest⟩ := List.pairwise_cons.mp hl
    by_cases h : k' = k
    · subst h
      simpa [insertEntry] using hl
    · simp only [insertEntry, h, if_false, List.map_cons]
      refine List.pairwise_cons.mpr ⟨fun z hz => ?_, ih hrest⟩
      rcases keys_insertEntry.mp hz with rfl | hz
      · exact h
      · exact hk' z hz

theorem find_insertEntry {k z : String} {a : α} {l : List (String × α)} :
    find z (insertEntry k a l) = if z = k then some a else find z l := by
  induction l with
  | nil => simp [insertEntry, find, eq_comm]
  | cons e rest ih =>
    obtain ⟨k', a'⟩ := e
    by_cases h : k' = k
    · subst h
      by_cases hz : z = k' <;> simp [insertEntry, find, hz, eq_comm]
    · by_cases hz : k' = z
      · subst hz
        simp [insertEntry, find, h]
      · simp [insertEntry, find, h, hz, ih]

def insert (t : Table α) (k : String) (a : α) : Table α :=
  ⟨insertEntry k a t.entries, nodup_insertEntry t.nodup⟩

theorem get?_insert {t : Table α} {k z : String} {a : α} :
    (t.insert k a).get? z = if z = k then some a else t.get? z :=
  find_insertEntry

def ofList (l : List (String × α)) : Table α :=
  l.foldl (fun t e => t.insert e.1 e.2) ∅

def filterEntries (f : String → α → Option β) : List (String × α) → List (String × β)
  | [] => []
  | (k, a) :: rest =>
    match f k a with
    | some b => (k, b) :: filterEntries f rest
    | none => filterEntries f rest

theorem keys_filterEntries {f : String → α → Option β} {l : List (String × α)} {z : String}
    (h : z ∈ (filterEntries f l).map Prod.fst) : z ∈ l.map Prod.fst := by
  induction l with
  | nil => simp [filterEntries] at h
  | cons e rest ih =>
    obtain ⟨k, a⟩ := e
    simp only [filterEntries] at h
    split at h
    · rcases List.mem_cons.mp h with he | h
      · simp [he]
      · exact List.mem_cons_of_mem _ (ih h)
    · exact List.mem_cons_of_mem _ (ih h)

theorem nodup_filterEntries {f : String → α → Option β} {l : List (String × α)}
    (hl : (l.map Prod.fst).Nodup) : ((filterEntries f l).map Prod.fst).Nodup := by
  induction l with
  | nil => simp [filterEntries]
  | cons e rest ih =>
    obtain ⟨k, a⟩ := e
    obtain ⟨hk, hrest⟩ := List.pairwise_cons.mp hl
    simp only [filterEntries]
    split
    · exact List.pairwise_cons.mpr ⟨fun z hz => hk z (keys_filterEntries hz), ih hrest⟩
    · exact ih hrest

theorem find_filterEntries {f : String → α → Option β} {l : List (String × α)} {k : String}
    (hl : (l.map Prod.fst).Nodup) : find k (filterEntries f l) = (find k l).bind (f k) := by
  induction l with
  | nil => rfl
  | cons e rest ih =>
    obtain ⟨k', a⟩ := e
    obtain ⟨hk', hrest⟩ := List.pairwise_cons.mp hl
    by_cases h : k' = k
    · subst h
      have hnone : find k' rest = none := find_eq_none_iff.mpr fun hm => hk' k' hm rfl
      simp only [filterEntries, find, if_true, Option.bind_some]
      split
      · rename_i b hb
        simp [find, hb]
      · rename_i hb
        rw [ih hrest, hnone, hb]
        rfl
    · simp only [filterEntries, find, h, if_false]
      split
      · simp [find, h, ih hrest]
      · exact ih hrest

def filterMap (f : String → α → Option β) (t : Table α) : Table β :=
  ⟨filterEntries f t.entries, nodup_filterEntries t.nodup⟩

theorem get?_filterMap {f : String → α → Option β} {t : Table α} {k : String} :
    (t.filterMap f).get? k = (t.get? k).bind (f k) :=
  find_filterEntries t.nodup

def filter (p : String → Bool) (t : Table α) : Table α :=
  t.filterMap fun k a => if p k then some a else none

def erase (t : Table α) (k : String) : Table α := t.filter (· ≠ k)

theorem get?_filter {p : String → Bool} {t : Table α} {k : String} :
    (t.filter p).get? k = if p k then t.get? k else none := by
  rw [filter, get?_filterMap]
  by_cases h : p k = true <;> cases t.get? k <;> simp [h]

theorem get?_erase {t : Table α} {k z : String} : (t.erase k).get? z = if z = k then none else t.get? z := by
  rw [erase, get?_filter]
  by_cases h : z = k <;> simp [h]

/-- Combines the two tables at every key of either: first the keys of `s`, then those only `t` has. -/
def merge (f : Option α → Option β → γ) (s : Table α) (t : Table β) : Table γ :=
  ⟨(s.filterMap fun k a => some (f (some a) (t.get? k))).entries ++
      (t.filterMap fun k b => if s.contains k then none else some (f none (some b))).entries, by
    rw [List.map_append]
    refine List.nodup_append.mpr ⟨nodup_filterEntries s.nodup, nodup_filterEntries t.nodup, ?_⟩
    rintro a ha b hb rfl
    have hs : a ∈ s.keys := keys_filterEntries ha
    obtain ⟨⟨k, c⟩, hc, rfl⟩ := List.mem_map.mp hb
    have hg := find_of_mem (nodup_filterEntries t.nodup) hc
    rw [find_filterEntries t.nodup] at hg
    have hcontains : s.contains k = true := mem_keys_iff.mp hs
    simp [hcontains] at hg⟩

theorem find_append {k : String} {l m : List (String × α)} :
    find k (l ++ m) = (find k l).or (find k m) := by
  induction l with
  | nil => rfl
  | cons e rest ih =>
    obtain ⟨k', a⟩ := e
    by_cases h : k' = k <;> simp [find, h, ih]

theorem get?_merge {f : Option α → Option β → γ} {s : Table α} {t : Table β} {k : String} :
    (merge f s t).get? k =
      if (s.get? k).isSome ∨ (t.get? k).isSome then some (f (s.get? k) (t.get? k)) else none := by
  have happ : (merge f s t).get? k =
      ((s.filterMap fun k a => some (f (some a) (t.get? k))).get? k).or
        ((t.filterMap fun k b => if s.contains k then none else some (f none (some b))).get? k) :=
    find_append
  rw [happ, get?_filterMap, get?_filterMap]
  cases hs : s.get? k <;> cases ht : t.get? k <;> simp [contains, hs]

def same [DecidableEq α] (s t : Table α) : Bool :=
  (s.entries.all fun e => t.get? e.1 = some e.2) && (t.entries.all fun e => s.get? e.1 = some e.2)

theorem same_iff [DecidableEq α] {s t : Table α} : s.same t = true ↔ ∀ k, s.get? k = t.get? k := by
  simp only [same, Bool.and_eq_true, List.all_eq_true, decide_eq_true_eq, Prod.forall, mem_entries_iff]
  constructor
  · rintro ⟨hst, hts⟩ k
    cases hs : s.get? k with
    | some a => exact (hst k a hs).symm
    | none =>
      cases ht : t.get? k with
      | none => rfl
      | some b => exact absurd (hts k b ht) (by simp [hs])
  · intro h
    exact ⟨fun k a ha => h k ▸ ha, fun k a ha => (h k).trans ha⟩

end Table

end ValueAnalysis
