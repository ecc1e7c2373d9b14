import BuildGraph.Engine
import BuildGraph.Verdict

/-! Validated graphs, and the compilation of a whole event stream into them. -/

set_option autoImplicit false

namespace BuildGraph

/-- A finished document: its targets and the report on them. -/
structure Project where
  targets : Store
  report : Report
  deriving DecidableEq, Repr

namespace Project

def ofStore (targets : Store) : Project := ⟨targets, targets.report⟩

def isValid (project : Project) : Bool := project.report.project.isValid

end Project

namespace Engine

/-- Run the rest of a stream. Every completed document gives a project, and the
stream must not end inside one. -/
def compileFrom (engine : Engine) : List Event → Except EngineError (List Project)
  | [] =>
    if engine.state = .idle then .ok [] else .error (.outOfOrder .streamEnd .neverClosed)
  | event :: rest =>
    match engine.feed event with
    | (_, .error cause) => .error cause
    | (next, .ok .more) => next.compileFrom rest
    | (next, .ok .documentDone) =>
      let (store, next) := next.release
      (next.compileFrom rest).map (Project.ofStore store :: ·)

end Engine

/-- One project per document, or the first error. -/
def compile (events : List Event) : Except EngineError (List Project) :=
  Engine.initial.compileFrom events

end BuildGraph
