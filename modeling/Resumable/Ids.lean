/-! Numbers that name the parts of one body, and the way each is written. -/

namespace Resumable

abbrev NodeId := Nat

abbrev VarId := Nat

abbrev ScopeId := Nat

/-- Regions are numbered in discovery order; region 0 is entered first. -/
abbrev RegionId := Nat

def nodeText (node : NodeId) : String := "#" ++ toString node

def varText (var : VarId) : String := "v" ++ toString var

def scopeText (scope : ScopeId) : String := "s" ++ toString scope

def regionText (region : RegionId) : String := "state " ++ toString region

end Resumable
