import Multidigraph.Handle

namespace Multidigraph

inductive Refusal where
  | sourceAbsent (h : NodeHandle)
  | destinationAbsent (h : NodeHandle)
  | relationClash (edgeId held requested : String)
  | other (message : String)
  deriving DecidableEq

namespace Refusal

def message : Refusal → String
  | sourceAbsent h => "Source node " ++ h.text ++ " is not a node of this graph"
  | destinationAbsent h => "Destination node " ++ h.text ++ " is not a node of this graph"
  | relationClash edgeId held requested =>
    "Edge " ++ edgeId ++ " exists with relation type " ++ held ++ ", requested " ++ requested
  | other message => message

end Refusal

inductive GraphError where
  | invalidArgument (refusal : Refusal)
  | nodeNotFound (name : String)
  | edgeNotFound (name : String)
  /-- A text could not be produced; `source` tells what failed below. -/
  | serialization (detail : String) (source : Option String)
  deriving DecidableEq

namespace GraphError

def message : GraphError → String
  | invalidArgument refusal => "Invalid argument: " ++ refusal.message
  | nodeNotFound name => "Node not found: " ++ name
  | edgeNotFound name => "Edge not found: " ++ name
  | serialization detail _ => "Serialization error: " ++ detail

def source? : GraphError → Option String
  | serialization _ source => source
  | _ => none

end GraphError

end Multidigraph
