import ValueAnalysis.Config
import ValueAnalysis.Semantics.Meaning

namespace ValueAnalysis

variable {α : Type} [AbstractDomain α]

/-- The states of a loop head, round by round: what the body makes of the head is joined to it and handed to
the operator of the round. -/
def Config.heads (c : Config) (body : Nat → α → α) (start : α) : Nat → α
  | 0 => start
  | n + 1 =>
    c.extrapolate (c.heads body start n)
      (AbstractDomain.join (c.heads body start n) (body n (c.heads body start n))) n

def narrowings (start : α) (later : Nat → α) : Nat → α
  | 0 => start
  | n + 1 => AbstractDomain.narrow (narrowings start later n) (later n)

def Pentagon.loopHead (c : Config) (p : Pentagon) (body : List Command) : Nat → Pentagon :=
  c.heads (fun _ q => q.runAll body) p

def Pentagon.fedHead (c : Config) (p : Pentagon) (b : Nat → Pentagon) : Nat → Pentagon :=
  c.heads (fun n _ => b n) p

end ValueAnalysis
