import ValueAnalysis.Pentagon.Transfer
import ValueAnalysis.Taint.Basic

namespace ValueAnalysis

class AbstractState (S : Type) extends AbstractDomain S where
  assign : S → Identifier → Expr → S
  assignReport : S → Value → Identifier → Expr → Report
  smallStep : S → S
  assume : S → Expr → S
  assumeReport : S → Value → Value → Expr → Report
  satisfies : S → Expr → Satisfiability
  satisfiesReport : S → Value → Expr → Report
  forget : S → String → S
  forgetIf : S → (String → Bool) → S
  knows : S → String → Bool
  same : S → S → Bool

instance {L : Type} [ValueDomain L] [DecidableEq L] : AbstractState (Env L) where
  assign := Env.assign
  assignReport env point _ e := env.assignReport point e
  smallStep := id
  assume := Env.assume
  assumeReport := Env.assumeReport
  satisfies := Env.satisfies
  satisfiesReport := Env.satisfiesReport
  forget := Env.forget
  forgetIf := Env.forgetIf
  knows := Env.knows
  same := Env.same

instance : AbstractState Bounds where
  assign := Bounds.assign
  assignReport _ _ _ _ := .silent
  smallStep := id
  assume := Bounds.assume
  assumeReport s _ _ e := Bounds.assumeReport s e
  satisfies := Bounds.satisfies
  satisfiesReport _ _ _ := .silent
  forget := Bounds.forget
  forgetIf := Bounds.forgetIf
  knows := Env.knows
  same := Env.same

instance : AbstractState Pentagon where
  assign := Pentagon.assign
  assignReport := Pentagon.assignReport
  smallStep := Pentagon.smallStep
  assume := Pentagon.assume
  assumeReport := Pentagon.assumeReport
  satisfies := Pentagon.satisfies
  satisfiesReport p := p.intervals.satisfiesReport
  forget := Pentagon.forget
  forgetIf := Pentagon.forgetIf
  knows := Pentagon.knows
  same := Pentagon.same

end ValueAnalysis
