/-!
Finite sets of names, kept as strictly increasing lists. Each set has one list, so sets with the same
members are equal.
-/

namespace ValueAnalysis

structure NameSet where
  names : List String
  sorted : names.Pairwise (· < ·)
  deriving DecidableEq

namespace NameSet

instance : Membership String NameSet := ⟨fun s x => x ∈ s.names⟩

theorem mem_def {x : String} {s : NameSet} : x ∈ s ↔ x ∈ s.names := Iff.rfl

instance (x : String) (s : NameSet) : Decidable (x ∈ s) :=
  inferInstanceAs (Decidable (x ∈ s.names))

def empty : NameSet := ⟨[], .nil⟩

instance : EmptyCollection NameSet := ⟨empty⟩
instance : Inhabited NameSet := ⟨empty⟩

@[simp] theorem not_mem_empty (x : String) : x ∉ (∅ : NameSet) := List.not_mem_nil

def isEmpty (s : NameSet) : Bool := s.names.isEmpty

def size (s : NameSet) : Nat := s.names.length

def insertSorted (x : String) : List String → List String
  | [] => [x]
  | y :: ys => if x < y then x :: y :: ys else if x = y then y :: ys else y :: insertSorted x ys

theorem mem_insertSorted {x z : String} {l : List String} : z ∈ insertSorted x l ↔ z = x ∨ z ∈ l := by
  induction l with
  | nil => simp [insertSorted]
  | cons y ys ih =>
    by_cases hlt : x < y
    · simp [insertSorted, hlt]
    · by_cases heq : x = y
      · subst heq
        rw [insertSorted, if_neg hlt, if_pos rfl]
        simp
      · simp only [insertSorted, hlt, heq, if_false, List.mem_cons, ih]
        exact or_left_comm

theorem pairwise_insertSorted {x : String} {l : List String} (h : l.Pairwise (· < ·)) :
    (insertSorted x l).Pairwise (· < ·) := by
  induction l with
  | nil => simp [insertSorted]
  | cons y ys ih =>
    obtain ⟨hy, hys⟩ := List.pairwise_cons.mp h
    by_cases hlt : x < y
    · simp only [insertSorted, hlt, if_true]
      refine List.pairwise_cons.mpr ⟨?_, h⟩
      intro z hz
      rcases List.mem_cons.mp hz with rfl | hz
      · exact hlt
      · exact String.lt_trans hlt (hy z hz)
    · by_cases heq : x = y
      · simpa [insertSorted, hlt, heq, String.lt_irrefl] using h
      · simp only [insertSorted, hlt, heq, if_false]
        refine List.pairwise_cons.mpr ⟨?_, ih hys⟩
        intro z hz
        rcases mem_insertSorted.mp hz with rfl | hz
        · exact Classical.byContradiction fun hn =>
            heq (String.le_antisymm (String.not_lt.mp hn) (String.not_lt.mp hlt))
        · exact hy z hz

def insert (x : String) (s : NameSet) : NameSet :=
  ⟨insertSorted x s.names, pairwise_insertSorted s.sorted⟩

@[simp] theorem mem_insert {x z : String} {s : NameSet} : z ∈ s.insert x ↔ z = x ∨ z ∈ s :=
  mem_insertSorted

def singleton (x : String) : NameSet := (∅ : NameSet).insert x

@[simp] theorem mem_singleton {x z : String} : z ∈ singleton x ↔ z = x := by
  simp [singleton]

def filter (p : String → Bool) (s : NameSet) : NameSet :=
  ⟨s.names.filter p, s.sorted.filter p⟩

@[simp] theorem mem_filter {p : String → Bool} {z : String} {s : NameSet} :
    z ∈ s.filter p ↔ z ∈ s ∧ p z = true :=
  List.mem_filter

def erase (x : String) (s : NameSet) : NameSet := s.filter (· ≠ x)

@[simp] theorem mem_erase {x z : String} {s : NameSet} : z ∈ s.erase x ↔ z ∈ s ∧ z ≠ x := by
  simp [erase]

def inter (s t : NameSet) : NameSet := s.filter (decide <| · ∈ t)

@[simp] theorem mem_inter {z : String} {s t : NameSet} : z ∈ s.inter t ↔ z ∈ s ∧ z ∈ t := by
  simp [inter]

def insertAll (l : List String) (s : NameSet) : NameSet := l.foldl (fun s x => s.insert x) s

theorem mem_insertAll {l : List String} {s : NameSet} {z : String} : z ∈ s.insertAll l ↔ z ∈ l ∨ z ∈ s := by
  induction l generalizing s with
  | nil => simp [insertAll]
  | cons x xs ih =>
    have h : insertAll (x :: xs) s = insertAll xs (s.insert x) := rfl
    rw [h, ih, mem_insert, List.mem_cons, or_left_comm, or_assoc]

def ofList (l : List String) : NameSet := (∅ : NameSet).insertAll l

@[simp] theorem mem_ofList {l : List String} {z : String} : z ∈ ofList l ↔ z ∈ l := by
  simp [ofList, mem_insertAll]

def union (s t : NameSet) : NameSet := s.insertAll t.names

@[simp] theorem mem_union {z : String} {s t : NameSet} : z ∈ s.union t ↔ z ∈ s ∨ z ∈ t := by
  rw [union, mem_insertAll, or_comm, mem_def (s := t)]

instance : HasSubset NameSet := ⟨fun s t => ∀ x ∈ s, x ∈ t⟩

theorem subset_def {s t : NameSet} : s ⊆ t ↔ ∀ x ∈ s, x ∈ t := Iff.rfl

instance (s t : NameSet) : Decidable (s ⊆ t) :=
  inferInstanceAs (Decidable (∀ x ∈ s.names, x ∈ t))

theorem eq_of_sorted {l m : List String} (hl : l.Pairwise (· < ·)) (hm : m.Pairwise (· < ·))
    (h : ∀ x, x ∈ l ↔ x ∈ m) : l = m := by
  induction l generalizing m with
  | nil =>
    cases m with
    | nil => rfl
    | cons y ys => exact absurd ((h y).mpr (List.mem_cons_self ..)) List.not_mem_nil
  | cons x xs ih =>
    cases m with
    | nil => exact absurd ((h x).mp (List.mem_cons_self ..)) List.not_mem_nil
    | cons y ys =>
      obtain ⟨hx, hxs⟩ := List.pairwise_cons.mp hl
      obtain ⟨hy, hys⟩ := List.pairwise_cons.mp hm
      have hxy : x = y := by
        rcases List.mem_cons.mp ((h x).mp (List.mem_cons_self ..)) with he | hx'
        · exact he
        · rcases List.mem_cons.mp ((h y).mpr (List.mem_cons_self ..)) with he | hy'
          · exact he.symm
          · exact absurd (hx y hy') (String.lt_asymm (hy x hx'))
      subst hxy
      congr 1
      refine ih hxs hys fun z => ⟨fun hz => ?_, fun hz => ?_⟩
      · rcases List.mem_cons.mp ((h z).mp (List.mem_cons_of_mem _ hz)) with rfl | hz'
        · exact absurd (hx z hz) (String.lt_irrefl z)
        · exact hz'
      · rcases List.mem_cons.mp ((h z).mpr (List.mem_cons_of_mem _ hz)) with rfl | hz'
        · exact absurd (hy z hz) (String.lt_irrefl z)
        · exact hz'

theorem ext {s t : NameSet} (h : ∀ x, x ∈ s ↔ x ∈ t) : s = t := by
  cases s
  cases t
  congr 1
  exact eq_of_sorted ‹_› ‹_› h

theorem isEmpty_iff {s : NameSet} : s.isEmpty = true ↔ s = ∅ := by
  cases s with
  | mk names sorted =>
    cases names with
    | nil => exact ⟨fun _ => rfl, fun _ => rfl⟩
    | cons x xs => exact ⟨(nomatch ·), (nomatch ·)⟩

end NameSet

end ValueAnalysis
