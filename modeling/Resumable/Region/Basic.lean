import Resumable.Lowering.Body
import Resumable.Region.VarSet

/-! Resume regions: the parts of a graph that run from one resume to the next suspension. -/

namespace Resumable

/-- Where a machine continues after a suspension, or after a region ran to its end. -/
inductive Target where
  | region (id : RegionId)
  | complete
  deriving DecidableEq

namespace Target

def text : Target → String
  | region id => regionText id
  | complete => "complete"

def region? : Target → Option RegionId
  | region id => some id
  | complete => none

end Target

/-- Members stand in discovery order, and so do the suspensions among them and the regions that
these continue in. -/
structure Region where
  id : RegionId
  start : NodeId
  nodes : List NodeId
  referenced : VarSet
  declared : VarSet
  exits : List (NodeId × Target)
  continuations : List RegionId
  liveIn : VarSet := .empty
  liveOut : VarSet := .empty

/-- `numbers` has the number of the region that starts at a node. `entryStores` are the parameters
that some later region reads; `rounds` counts the steps the liveness took. -/
structure Analysis where
  regions : List Region
  numbers : List (NodeId × RegionId)
  entryStores : List VarId
  persistImmutable : Bool
  rounds : Nat

namespace Analysis

def region? (analysis : Analysis) (id : RegionId) : Option Region := analysis.regions[id]?

def starts (analysis : Analysis) : List NodeId := analysis.numbers.map Prod.fst

def entry? (analysis : Analysis) : Option Region := analysis.regions.head?

def nodesVisited (analysis : Analysis) : Nat := (analysis.regions.flatMap Region.nodes).length

/-- Tails that several regions share belong to each of them. -/
def regionsContaining (analysis : Analysis) (node : NodeId) : List RegionId :=
  (analysis.regions.filter (·.nodes.contains node)).map Region.id

end Analysis
end Resumable
