import ValueAnalysis.Failure

namespace ValueAnalysis

inductive Level where
  | debug
  | info
  | warning
  | error
  | critical
  deriving DecidableEq

namespace Level

def all : List Level := [debug, info, warning, error, critical]

def name : Level → String
  | debug => "DEBUG"
  | info => "INFO"
  | warning => "WARNING"
  | error => "ERROR"
  | critical => "CRITICAL"

def severity : Level → Int
  | debug => 10
  | info => 20
  | warning => 30
  | error => 40
  | critical => 50

end Level

inductive Source where
  | config
  | environment
  | interval
  | upperBounds
  | pentagons
  | taint
  deriving DecidableEq

def Source.name : Source → String
  | .config => "pentagon_domains.config"
  | .environment => "pentagon_domains.environment"
  | .interval => "pentagon_domains.interval"
  | .upperBounds => "pentagon_domains.upper_bounds"
  | .pentagons => "pentagon_domains.pentagons"
  | .taint => "pentagon_domains.taint"

structure Record where
  level : Level
  source : Source
  message : String
  deriving DecidableEq

namespace Record

def debug (source : Source) (message : String) : Record := ⟨.debug, source, message⟩

def text (r : Record) : String := r.level.name ++ " " ++ r.source.name ++ ": " ++ r.message

end Record

structure Report where
  records : List Record := []
  failure : Option Failure := none

namespace Report

def silent : Report := {}

def of (records : List Record) : Report := { records }

def note (source : Source) (message : String) : Report := of [.debug source message]

def fail (f : Failure) : Report := { failure := some f }

def andThen (a b : Report) : Report :=
  match a.failure with
  | some _ => a
  | none => ⟨a.records ++ b.records, b.failure⟩

instance : Append Report := ⟨andThen⟩

def guard (r : Report) {α : Type} (a : α) : Except Failure α :=
  match r.failure with
  | some f => .error f
  | none => .ok a

end Report

end ValueAnalysis
