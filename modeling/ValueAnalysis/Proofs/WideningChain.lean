import Mathlib.Data.Seq.Defs
import ValueAnalysis.Proofs.Interval.Lattice
import ValueAnalysis.Proofs.Rank

/-! Chains of widenings over single values. A chain starts at bottom and widens its head by the join with each value
that comes in. The first value above bottom is taken over as it is, and every later change of the head lowers a
rank. -/

namespace ValueAnalysis

open AbstractDomain (bottom leq join widen)

namespace WideningChain

variable {L : Type} [AbstractDomain L]

def step (head v : L) : L := widen head (join head v)

/-- The heads of a chain. They stay the same once the sequence has ended. -/
def heads (s : Stream'.Seq L) : Nat → L
  | 0 => bottom
  | n + 1 => (s.get? n).elim (heads s n) (step (heads s n))

def changes (s : Stream'.Seq L) : Set Nat := {n | heads s (n + 1) ≠ heads s n}

lemma mem_changes {s : Stream'.Seq L} {n : Nat} : n ∈ changes s ↔ heads s (n + 1) ≠ heads s n := Iff.rfl

lemma heads_succ_of_some {s : Stream'.Seq L} {n : Nat} {v : L} (h : s.get? n = some v) :
    heads s (n + 1) = step (heads s n) v := by
  rw [heads, h, Option.elim_some]

lemma heads_succ_of_none {s : Stream'.Seq L} {n : Nat} (h : s.get? n = none) : heads s (n + 1) = heads s n := by
  rw [heads, h, Option.elim_none]

/-- A rank for the values above bottom that falls with every change of the head of a chain, where a widening covers its
second argument. -/
structure Rank (L : Type) [AbstractDomain L] (bound : Nat) where
  rank : L → Nat
  rank_le : ∀ v, rank v ≤ bound
  leq_widen_right : ∀ v w : L, leq w (widen v w) = true
  rank_step_lt : ∀ {head : L} (v : L), head ≠ bottom → step head v ≠ head → rank (step head v) < rank head

namespace Rank

variable [LatticeDomain L] {bound : Nat} (r : Rank L bound)
include r

lemma leq_step_left (head v : L) : leq head (step head v) = true :=
  LatticeDomain.leq_trans (LatticeDomain.leq_join_left head v) (r.leq_widen_right head _)

lemma leq_step_right (head v : L) : leq v (step head v) = true :=
  LatticeDomain.leq_trans (LatticeDomain.leq_join_right head v) (r.leq_widen_right head _)

lemma leq_heads_succ (s : Stream'.Seq L) (n : Nat) : leq (heads s n) (heads s (n + 1)) = true := by
  cases h : s.get? n with
  | none =>
    rw [heads_succ_of_none h]
    exact LatticeDomain.leq_refl _
  | some v =>
    rw [heads_succ_of_some h]
    exact r.leq_step_left _ v

lemma leq_heads {s : Stream'.Seq L} {i j : Nat} {v : L} (h : s.get? i = some v) (hij : i < j) :
    leq v (heads s j) = true := by
  induction j, hij using Nat.le_induction with
  | base =>
    rw [heads_succ_of_some h]
    exact r.leq_step_right _ v
  | succ j _ ih => exact LatticeDomain.leq_trans ih (r.leq_heads_succ s j)

variable [DecidableEq L]

/-- The rank of a head. Bottom can still change once more than any other value. -/
def headRank (head : L) : Nat := if head = bottom then bound + 1 else r.rank head

lemma headRank_step_lt {head v : L} (h : step head v ≠ head) : r.headRank (step head v) < r.headRank head := by
  have hne : step head v ≠ bottom := by
    intro hb
    have hhead := (LatticeDomain.leq_bottom_iff head).mp (hb ▸ r.leq_step_left head v)
    exact h (hb.trans hhead.symm)
  rw [headRank, headRank, if_neg hne]
  by_cases hhead : head = bottom
  · rw [if_pos hhead]
    exact Nat.lt_succ_of_le (r.rank_le _)
  · rw [if_neg hhead]
    exact r.rank_step_lt v hhead h

lemma headRank_heads_lt {s : Stream'.Seq L} {n : Nat} (h : n ∈ changes s) :
    r.headRank (heads s (n + 1)) < r.headRank (heads s n) := by
  rw [mem_changes] at h
  cases hget : s.get? n with
  | none => exact absurd (heads_succ_of_none hget) h
  | some v =>
    rw [heads_succ_of_some hget] at h ⊢
    exact r.headRank_step_lt h

lemma encard_changes_le (s : Stream'.Seq L) : (changes s).encard ≤ (bound + 1 : Nat) := by
  have hle (n : Nat) : r.headRank (heads s (n + 1)) ≤ r.headRank (heads s n) := by
    by_cases h : n ∈ changes s
    · exact Nat.le_of_lt (r.headRank_heads_lt h)
    · rw [mem_changes, not_ne_iff] at h
      rw [h]
  have hcount := encard_decreases_le (fun n => r.headRank (heads s n)) (· ∈ changes s) (n := 0)
    (fun n _ => hle n) (fun n _ h => r.headRank_heads_lt h)
  have hstart : r.headRank (heads s 0) = bound + 1 := if_pos rfl
  simpa [hstart] using hcount

end Rank

end WideningChain

open WideningChain (heads changes)

namespace Interval

lemma leq_widen (a b : Interval) : b.leq (a.widen b) = true := by
  cases hb : b.isEmpty with
  | true => exact leq_of_isEmpty _ hb
  | false =>
    cases ha : a.isEmpty with
    | true =>
      have hwiden : a.widen b = b := by simp [widen, ha]
      rw [hwiden]
      exact leq_refl b
    | false => exact leq_widen_right ha hb

def chainRank : WideningChain.Rank Interval 2 where
  rank := finiteBounds
  rank_le := finiteBounds_le_two
  leq_widen_right := leq_widen
  rank_step_lt {head} v hhead hne := by
    have ha := (ne_empty_iff head).mp hhead
    exact finiteBounds_widen_lt ha (nonempty_of_leq (leq_hull_left head v) ha) hne

end Interval

namespace BoundSet

lemma widen_ne_unreachable (a : BoundSet) {b : BoundSet} (hb : b ≠ unreachable) : a.widen b ≠ unreachable := by
  by_cases ha : a = unreachable
  · rw [ha]
    exact hb
  · exact LawfulDomain.widen_ne_bottom ha hb

lemma leq_widen (a b : BoundSet) : b.leq (a.widen b) = true := by
  by_cases hb : b = unreachable
  · rw [hb]
    rfl
  · rw [leq_iff hb (widen_ne_unreachable a hb)]
    exact fun y hy => mem_of_mem_widen hb hy

def chainRank : WideningChain.Rank BoundSet 1 where
  rank := room ∅
  rank_le := room_le ∅
  leq_widen_right := leq_widen
  rank_step_lt {head} v hhead hne := by
    have hleq : head.leq (head.join v) = true := LatticeDomain.leq_join_left head v
    exact room_widen_lt hhead (ne_unreachable_of_leq hhead hleq) (fun y hy => .inl (mem_of_leq hhead hleq hy)) hne

end BoundSet

theorem widening_chains_short :
    (∀ s : Stream'.Seq Interval, (changes s).encard ≤ 3 ∧
      ∀ i j v, s.get? i = some v → i < j → v.leq (heads s j) = true) ∧
    ∀ s : Stream'.Seq BoundSet, (changes s).encard ≤ 2 ∧
      ∀ i j v, s.get? i = some v → i < j → v.leq (heads s j) = true :=
  ⟨fun s => ⟨Interval.chainRank.encard_changes_le s, fun _ _ _ h hij => Interval.chainRank.leq_heads h hij⟩,
    fun s => ⟨BoundSet.chainRank.encard_changes_le s, fun _ _ _ h hij => BoundSet.chainRank.leq_heads h hij⟩⟩

/-- Each bound is given up in a step of its own and the empty interval changes nothing, so three changes do occur. -/
theorem widening_chains_short_sharp :
    let v : Interval := .singleton 0
    let s : Stream'.Seq Interval := .ofList [.empty, v, .ofBounds (.fin (-1)) (.fin 0), v, .singleton 5, v]
    let t : Stream'.Seq BoundSet := .ofList [.above (.ofList ["y", "z"]), .singleton "y"]
    (s.get? 1 = some v ∧ heads s 1 = .empty ∧ heads s 2 = v ∧ heads s 3 = .atMost (.fin 0) ∧ heads s 6 = .all) ∧
      (changes s).encard ≤ 3 ∧ v.leq (heads s 6) = true ∧
      heads t 1 = .above (.ofList ["y", "z"]) ∧ heads t 2 = .top ∧ (changes t).encard ≤ 2 := by
  intro v s t
  obtain ⟨hintervals, hbounds⟩ := widening_chains_short
  obtain ⟨hcount, hleq⟩ := hintervals s
  exact ⟨by decide, hcount, hleq 1 6 v rfl (by decide), by decide, by decide, (hbounds t).1⟩

end ValueAnalysis
