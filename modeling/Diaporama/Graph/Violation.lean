import Diaporama.Text.Quoted

/-!
# What a filter graph refuses

Every violation names the node it was found in, or, for a finished graph, what is left open.
-/

namespace Diaporama

inductive Violation where
  | repeatedLabel (node : String)
  | noFilters (node : String)
  | inputCount (node : String) (given expected : Nat)
  | noOutputs (node : String)
  | noSuchInput (node : String) (input declared : Nat)
  | unknownLink (node : String) (link : String)
  | consumedLink (node : String) (link : String)
  | repeatedInput (node : String) (link : String)
  | repeatedOutput (node : String) (link : String)
  | nothingOpen
  | openLinks (sink : String) (found : List String)
  deriving DecidableEq, Repr

def Violation.message : Violation → String
  | repeatedLabel node => "duplicate node label '" ++ node ++ "'"
  | noFilters node => "node '" ++ node ++ "' has no filters"
  | inputCount node given expected =>
    "node '" ++ node ++ "' has " ++ toString given ++ " inputs, filter expects " ++
      toString expected
  | noOutputs node => "node '" ++ node ++ "' has no outputs"
  | noSuchInput node input declared =>
    "node '" ++ node ++ "' references input " ++ toString input ++ ", only " ++
      toString declared ++ " declared"
  | unknownLink node link => "node '" ++ node ++ "' references undefined link '" ++ link ++ "'"
  | consumedLink node link =>
    "node '" ++ node ++ "' consumes link '" ++ link ++ "' which is already consumed"
  | repeatedInput node link => "node '" ++ node ++ "' consumes link '" ++ link ++ "' twice"
  | repeatedOutput node link => "node '" ++ node ++ "' redefines link '" ++ link ++ "'"
  | nothingOpen => "graph has no unconsumed output"
  | openLinks sink found =>
    "graph must end in exactly one output '" ++ sink ++ "', found " ++ Text.quotedList found

end Diaporama
