import Mathlib.Data.Set.Basic
import ValueAnalysis.Proofs.Interval.Exactness
import ValueAnalysis.Proofs.Pentagon.Decidable

/-! Interval environments against the stores that they stand for. The variables of a store are free of each
other, so in a reachable environment every member of every interval is the value of some store, and order,
equality, emptiness, meet and join can be read off the sets of stores. What an expression evaluates to in one of
the stores is a member of its interval. -/

namespace ValueAnalysis.Env

variable {a b c env : Env Interval} {s : Store}

def stores (env : Env Interval) : Set Store := {s | env.Models s}

lemma Models.set (h : env.Models s) {x : String} {n : Int} (hn : n ∈ env.get x) : env.Models (s.set x n) := by
  intro z
  by_cases hz : z = x
  · rw [hz, Store.set_self]
    exact hn
  · rw [Store.set_ne s n hz]
    exact h z

lemma exists_models (h : env.isBottom = false) {x : String} {n : Int} (hn : n ∈ env.get x) :
    ∃ s, env.Models s ∧ s x = n := by
  have hne (z : String) : ∃ k, k ∈ env.get z :=
    Interval.exists_mem ((Interval.ne_empty_iff _).mp (get_ne_bottom h z))
  choose t ht using hne
  exact ⟨Store.set t x n, Models.set ht hn, Store.set_self t x n⟩

lemma isBottom_iff_stores : env.isBottom = true ↔ env.stores = ∅ := by
  rw [Set.eq_empty_iff_forall_notMem]
  constructor
  · intro h s hs
    have hreach := Models.isBottom hs
    rw [h] at hreach
    cases hreach
  · intro h
    cases hb : env.isBottom with
    | true => rfl
    | false =>
      obtain ⟨n, hn⟩ := Interval.exists_mem ((Interval.ne_empty_iff _).mp (get_ne_bottom hb ""))
      obtain ⟨s, hs, _⟩ := exists_models hb hn
      exact absurd hs (h s)

lemma isBottom_of_stores_subset (h : a.stores ⊆ b.stores) (hb : b.isBottom = true) : a.isBottom = true := by
  rw [isBottom_iff_stores] at hb ⊢
  exact Set.subset_eq_empty h hb

lemma leq_iff_stores : a.leq b = true ↔ a.stores ⊆ b.stores := by
  constructor
  · intro h s hs
    exact Models.of_leq hs h
  · intro h
    cases ha : a.isBottom with
    | true => exact leq_of_isBottom ha b
    | false =>
      refine (leq_iff ha).mpr ⟨?_, fun x => Interval.leq_iff_forall_mem.mpr fun n hn => ?_⟩
      · cases hb : b.isBottom with
        | false => rfl
        | true =>
          rw [isBottom_of_stores_subset h hb] at ha
          cases ha
      · obtain ⟨s, hs, rfl⟩ := exists_models ha hn
        exact h hs x

lemma WellFormed.same_iff_stores (ha : a.WellFormed) (hb : b.WellFormed) :
    a.same b = true ↔ a.stores = b.stores := by
  rw [Set.Subset.antisymm_iff, ← leq_iff_stores, ← leq_iff_stores]
  constructor
  · intro h
    have hba : b.same a = true := by
      obtain ⟨hu, hget⟩ := (same_iff_get ha hb).mp h
      exact (same_iff_get hb ha).mpr ⟨hu.symm, fun x => (hget x).symm⟩
    exact ⟨ha.leq_of_same hb h, hb.leq_of_same ha hba⟩
  · rintro ⟨hab, hba⟩
    exact ha.same_of_leq hb hab hba

lemma models_meet_iff : (a.meet b).Models s ↔ a.Models s ∧ b.Models s := by
  constructor
  · intro h
    obtain ⟨ha, hb⟩ := reachable_of_meet h.isBottom
    have hmem (x : String) : s x ∈ (a.get x).meet (b.get x) := by
      have hx := h x
      rwa [get_meet ha hb h.isBottom] at hx
    exact ⟨fun x => (Interval.mem_meet_iff.mp (hmem x)).1, fun x => (Interval.mem_meet_iff.mp (hmem x)).2⟩
  · rintro ⟨ha, hb⟩
    exact ha.meet hb

lemma stores_meet (a b : Env Interval) : (a.meet b).stores = a.stores ∩ b.stores := by
  ext s
  exact models_meet_iff

/-- The bound `c` need not be canonical. -/
lemma join_leq_of_leq (hac : a.leq c = true) (hbc : b.leq c = true) : (a.join b).leq c = true := by
  cases ha : a.isBottom with
  | true => rwa [join_of_isBottom_left ha]
  | false =>
    cases hb : b.isBottom with
    | true => rwa [join_of_isBottom_right ha hb]
    | false =>
      obtain ⟨hc, hac⟩ := (leq_iff ha).mp hac
      obtain ⟨_, hbc⟩ := (leq_iff hb).mp hbc
      refine (leq_iff (isBottom_join ha hb)).mpr ⟨hc, fun x => ?_⟩
      rw [get_join ha hb]
      exact LatticeDomain.join_leq (hac x) (hbc x)

theorem exact_abstraction (ha : a.WellFormed) (hb : b.WellFormed) :
    (a.leq b = true ↔ a.stores ⊆ b.stores) ∧
    (a.same b = true ↔ a.stores = b.stores) ∧
    (a.isBottom = true ↔ a.stores = ∅) ∧
    (a.meet b).stores = a.stores ∩ b.stores ∧
    ∀ e : Env Interval, a.stores ⊆ e.stores → b.stores ⊆ e.stores → (a.join b).leq e = true := by
  refine ⟨leq_iff_stores, ha.same_iff_stores hb, isBottom_iff_stores, stores_meet a b, fun e hae hbe => ?_⟩
  exact join_leq_of_leq (leq_iff_stores.mpr hae) (leq_iff_stores.mpr hbe)

/-- Two half-lines that touch in one point, beside a variable that only one side knows, and an upper bound that is
not canonical. -/
theorem exact_abstraction_half_lines :
    let a : Env Interval :=
      ⟨.ofList [("x", .ofBounds (.fin 0) .posInf), ("y", .ofBounds (.fin 5) (.fin 6))], false⟩
    let b : Env Interval := ⟨.ofList [("x", .ofBounds .negInf (.fin 0))], false⟩
    let c : Env Interval :=
      ⟨.ofList [("y", .ofBounds (.fin 5) (.fin 6)), ("x", .ofBounds (.fin 0) (.fin 0))], false⟩
    (a.WellFormed ∧ b.WellFormed ∧ c.WellFormed) ∧ ¬ a.stores ⊆ b.stores ∧ c.stores ⊆ b.stores ∧
      (a.meet b).stores = c.stores ∧ b.stores ≠ ∅ ∧ (b.join a).leq ⟨.ofList [("x", .all)], false⟩ = true := by
  intro a b c
  have ha : a.WellFormed := by decide
  have hb : b.WellFormed := by decide
  have hc : c.WellFormed := by decide
  have hmeet : (a.meet b).same c = true := by decide
  have hall (s : Store) : (⟨.ofList [("x", .all)], false⟩ : Env Interval).Models s :=
    models_iff_entries.mpr ⟨rfl, List.forall_mem_singleton.mpr (Interval.mem_all (s "x"))⟩
  obtain ⟨hab, -⟩ := exact_abstraction ha hb
  obtain ⟨hcb, -⟩ := exact_abstraction hc hb
  obtain ⟨-, hsame, -⟩ := exact_abstraction (ha.meet hb) hc
  obtain ⟨-, -, hbottom, -, hjoin⟩ := exact_abstraction hb ha
  refine ⟨⟨ha, hb, hc⟩, ?_, hcb.mp (by decide), hsame.mp hmeet, ?_, hjoin _ ?_ ?_⟩
  · rw [← hab]
    decide
  · rw [Ne, ← hbottom]
    decide
  · exact fun s _ => hall s
  · exact fun s _ => hall s

theorem eval_covers (h : env.Models s) {e : Expr} {n : Int} (he : Evaluates s e n) :
    (env.eval e).isEmpty = false ∧ n ∈ env.eval e := by
  have hmem := eval_sound h he
  exact ⟨Interval.nonempty_of_mem hmem, hmem⟩

/-- A divisor across zero and a length: `7 / x + length "ab"` at `x = -2`. -/
theorem eval_covers_divisor_across_zero :
    let env : Env Interval := ⟨.ofList [("x", .ofBounds (.fin (-2)) (.fin 3))], false⟩
    let s : Store := fun _ => -2
    let e : Expr :=
      .binary .add (.binary .div (.constant (.int 7) .null) (.identifier ⟨"x", ∅, .null⟩) .null)
        (.unary .stringLength (.constant (.text "ab") .null) .null) .null
    env.Models s ∧ Evaluates s e (-1) ∧ env.eval e = .ofBounds (.fin (-7)) .posInf ∧
      (env.eval e).isEmpty = false ∧ -1 ∈ env.eval e := by
  intro env s e
  have hs : env.Models s := by decide
  have he : Evaluates s e (-1) :=
    .add .null (.div .null (.literal 7 .null) (.identifier _) (by decide))
      (.stringLength .null 2 (.constant (.text "ab") .null 0 rfl) (by decide))
  exact ⟨hs, he, by decide, eval_covers hs he⟩

end ValueAnalysis.Env
