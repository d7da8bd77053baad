import ValueAnalysis.Report
import ValueAnalysis.Snapshot.Basic

namespace ValueAnalysis

/-- An abstract domain: a lattice with widening and narrowing whose elements can be shown. The operations
that write to the log say what they write. -/
class AbstractDomain (α : Type) where
  top : α
  bottom : α
  isTop : α → Bool
  isBottom : α → Bool
  leq : α → α → Bool
  join : α → α → α
  meet : α → α → α
  widen : α → α → α
  narrow : α → α → α
  snapshot : α → Snapshot
  text : α → String := fun a => (snapshot a).render
  meetRecords : α → α → List Record := fun _ _ => []
  widenRecords : α → α → List Record := fun _ _ => []
  narrowRecords : α → α → List Record := fun _ _ => []

end ValueAnalysis
