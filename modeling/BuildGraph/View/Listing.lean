import BuildGraph.Project

/-! The records of the verdict listing: one per target and one per project. -/

set_option autoImplicit false

namespace BuildGraph

namespace Listing

inductive Record where
  | target (id : TargetId) (name : String) (usage : Usage) (verdict : Verdict)
  | validProject
  | invalidProject (id : TargetId) (name : String) (verdict : Verdict)
  deriving DecidableEq, Repr

def Record.text : Record → String
  | target id name usage verdict =>
    TargetId.text id ++ " " ++ name ++ " (" ++ usage.text ++ "): " ++ verdict.text ++ "\n"
  | validProject => "project: valid\n"
  | invalidProject id name verdict =>
    "project: invalid (" ++ TargetId.text id ++ " " ++ name ++ ": " ++ verdict.text ++ ")\n"

/-- Why a listing fails. The last two need a report that is not the store's own. -/
inductive Failure where
  | invalid (name : String) (verdict : Verdict)
  | noVerdict
  | noTarget
  deriving DecidableEq, Repr

def Failure.text : Failure → String
  | invalid name verdict => "target '" ++ name ++ "' is " ++ verdict.text
  | noVerdict => "verdict missing for target"
  | noTarget => "failing target missing from store"

end Listing

end BuildGraph
