import Mathlib.Logic.Relation
import ValueAnalysis.Proofs.Pentagon.Transfer
import ValueAnalysis.Semantics.Iteration

/-! Soundness of the state at a loop head. Each head covers the one before and what the body makes of it, so
a head that covers its successor covers every round of the loop. -/

namespace ValueAnalysis.Pentagon

variable {c : Config} {p q : Pentagon} {s t : Store}

lemma WellFormed.extrapolate (hp : p.WellFormed) (hq : q.WellFormed) (k : Int) :
    (c.extrapolate p q k).WellFormed := by
  rw [Config.extrapolate]
  split
  · exact hp.join hq
  · exact hp.widen hq

lemma Models.extrapolate (hp : p.WellFormed) (hq : q.WellFormed) (h : q.Models s) (k : Int) :
    (c.extrapolate p q k).Models s := by
  rw [Config.extrapolate]
  split
  · exact Models.join_right hp hq h
  · exact Models.widen_right p hq h

variable {body : Nat → Pentagon → Pentagon}

lemma WellFormed.heads (hp : p.WellFormed) (hbody : ∀ k {q : Pentagon}, q.WellFormed → (body k q).WellFormed)
    (n : Nat) : (c.heads body p n).WellFormed := by
  induction n with
  | zero => exact hp
  | succ n ih => exact ih.extrapolate (ih.join (hbody n ih)) n

lemma models_heads_succ (hp : p.WellFormed) (hbody : ∀ k {q : Pentagon}, q.WellFormed → (body k q).WellFormed)
    {n : Nat} (h : (c.heads body p n).Models s ∨ (body n (c.heads body p n)).Models s) :
    (c.heads body p (n + 1)).Models s := by
  have hn : (c.heads body p n).WellFormed := hp.heads hbody n
  have hb := hbody n hn
  apply Models.extrapolate hn (hn.join hb)
  rcases h with h | h
  · exact Models.join_left hn hb h
  · exact Models.join_right hn hb h

lemma models_heads (hp : p.WellFormed) (hbody : ∀ k {q : Pentagon}, q.WellFormed → (body k q).WellFormed)
    (h : p.Models s) (n : Nat) : (c.heads body p n).Models s := by
  induction n with
  | zero => exact h
  | succ n ih => exact models_heads_succ hp hbody (.inl ih)

lemma models_of_stable (hp : p.WellFormed) {cs : List Command} {n : Nat}
    (hstop : (loopHead c p cs (n + 1)).leq (loopHead c p cs n) = true) (h : (loopHead c p cs n).Models s)
    (hr : Run cs s t) : (loopHead c p cs n).Models t := by
  have hbody : ∀ (k : Nat) {q : Pentagon}, q.WellFormed → (q.runAll cs).WellFormed := fun _ _ hq => hq.runAll cs
  have hn : (loopHead c p cs n).WellFormed := hp.heads hbody n
  have hsucc : (loopHead c p cs (n + 1)).WellFormed := hp.heads hbody (n + 1)
  have hrun : (loopHead c p cs (n + 1)).Models t :=
    models_heads_succ hp hbody (.inr (Models.runAll hn h hr))
  exact hrun.of_leq hsucc hstop

theorem loopHead_sound (c : Config) (hp : p.WellFormed) (cs : List Command) {n : Nat}
    (hstop : (loopHead c p cs (n + 1)).leq (loopHead c p cs n) = true) (h : p.Models s)
    (hr : Relation.ReflTransGen (Run cs) s t) : (loopHead c p cs n).Models t := by
  induction hr with
  | refl => exact models_heads hp (fun _ _ hq => hq.runAll cs) h n
  | tail _ hround ih => exact models_of_stable hp hstop ih hround

theorem loopHead_sound_counting :
    let c : Config := ⟨"pentagons", 1, "WARNING"⟩
    let p : Pentagon := ⟨.top, ⟨.ofList [("i", .singleton 0)], false⟩⟩
    let i : Identifier := ⟨"i", ∅, .null⟩
    let body : List Command :=
      [.assume (.binary .lt (.identifier i) (.identifier ⟨"n", ∅, .null⟩) .null),
        .assign i (.binary .add (.identifier i) (.constant (.int 1) .null) .null)]
    let s : Store := fun x => if x = "n" then 2 else 0
    let t : Store := (s.set "i" 1).set "i" 2
    p.WellFormed ∧ p.Models s ∧ Relation.ReflTransGen (Run body) s t ∧
      (loopHead c p body 3).leq (loopHead c p body 2) = true ∧
      (loopHead c p body 2).intervals.get "i" = .atLeast (.fin 0) ∧ (loopHead c p body 2).Models t := by
  intro c p i body s t
  have hp : p.WellFormed := by decide
  have hs : p.Models s := hp.models_iff.mpr ⟨by decide, by decide⟩
  have hround (u : Store) (hu : u "i" < u "n") : Run body u (u.set "i" (u "i" + 1)) := by
    have htrue : BinaryOp.holds .lt (u "i") (u "n") = true := decide_eq_true hu
    have hguard : Truth true u (.binary .lt (.identifier i) (.identifier ⟨"n", ∅, .null⟩) .null) true :=
      htrue ▸ .comparison .null rfl (.identifier i) (.identifier _)
    exact .cons (.assume hguard) (.cons (.assign i (.add .null (.identifier i) (.literal 1 .null))) (.nil _))
  have hr : Relation.ReflTransGen (Run body) s t :=
    .tail (.tail .refl (hround s (by decide))) (hround (s.set "i" 1) (by decide))
  have hstop : (loopHead c p body 3).leq (loopHead c p body 2) = true := by decide +kernel
  exact ⟨hp, hs, hr, hstop, by decide +kernel, loopHead_sound c hp body hstop hs hr⟩

end ValueAnalysis.Pentagon
