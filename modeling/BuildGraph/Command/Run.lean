import BuildGraph.Command.Invocation
import BuildGraph.Command.Views
import BuildGraph.Manifest
import BuildGraph.View.Json
import BuildGraph.View.Listing

/-! Carrying out a command: read the target file, compile it and write what is asked for. -/

set_option autoImplicit false

namespace BuildGraph

/-- Why a command fails. All but the last three leave the output empty. -/
inductive RunFailure where
  | badPath (shown : String)
  | read (path : String) (fault : ReadFault)
  | manifest (path : String) (error : ManifestError)
  | compile (path : String) (error : EngineError)
  | write (part : OutputPart)
  | tooWide
  | listing (failure : Listing.Failure)
  deriving DecidableEq, Repr

namespace RunFailure

/-- The messages from what was being done to the innermost cause. -/
def messages : RunFailure → List String
  | badPath shown => ["path " ++ shown ++ " is not valid UTF-8"]
  | read path fault => ["loading targets at " ++ path, "failed to read " ++ path, fault.text]
  | manifest path error => ("loading targets at " ++ path) :: error.messages
  | compile path error => ["compiling targets from " ++ path, error.message]
  | write part => [part.text, Sink.fullText]
  | tooWide => [PrintFault.tooWideText]
  | listing failure => [failure.text]

def text (failure : RunFailure) : String := ": ".intercalate failure.messages

/-- The failure ends the program where it happens, and is not handed on. -/
def isPanic : RunFailure → Bool
  | tooWide => true
  | _ => false

/-- The long form, for faults in the text of the file. -/
def rendered? : RunFailure → Option String
  | manifest _ error => some error.rendered
  | _ => none

end RunFailure

/-- Work that writes to a sink and fails with a message. -/
abbrev Output := EStateM RunFailure Sink

/-- What a fault in printing makes of the command. Only a full sink names the part. -/
def PrintFault.failure (part : OutputPart) : PrintFault → RunFailure
  | full => .write part
  | tooWide => .tooWide

def printPart {α : Type} (part : OutputPart) (printing : Printing α) : Output α :=
  printing.adaptExcept (PrintFault.failure part)

namespace Listing

def printRecord (record : Record) : Output Unit := printPart .verdict (print record.text)

/-- Print the record of a target, which the report must have a verdict on. -/
def printTarget (report : Report) (target : Target) : Output Unit :=
  match report.verdict? target.id with
  | none => throw (.listing .noVerdict)
  | some verdict => printRecord (.target target.id target.name target.usage verdict)

/-- Print the records of a project. The slot holds the first failure of all projects so far. -/
def printProject (slot : Option (String × Verdict)) (project : Project) :
    Output (Option (String × Verdict)) := do
  project.targets.targets.forM (printTarget project.report)
  match project.report.project with
  | .valid =>
    printRecord .validProject
    return slot
  | .invalid id verdict =>
    match project.targets.get? id with
    | none => throw (.listing .noTarget)
    | some target =>
      printRecord (.invalidProject id target.name verdict)
      return slot.or (some (target.name, verdict))

/-- Print the records of all projects. The listing goes on after an invalid project, and fails
in the end. -/
def printProjects (projects : List Project) : Output Unit := do
  match ← projects.foldlM printProject none with
  | none => return
  | some (name, verdict) => throw (.listing (.invalid name verdict))

end Listing

namespace Command

/-- Print the output of a command, part by part. -/
def printOutput (projects : List Project) : Command → Output Unit
  | check => Listing.printProjects projects
  | tree => projects.forM fun project => printPart .tree project.targets.printTree
  | dot => projects.forM fun project => printPart .dot project.targets.printDot
  | json => do
    printPart .jsonValue (print (Json.array (projects.map Project.json)).text)
    printPart .jsonEnd (print "\n")

/-- Write the output of a command, as far as the sink has room. -/
def write (command : Command) (projects : List Project) (sink : Sink) :
    Sink × Option RunFailure :=
  match command.printOutput projects sink with
  | .ok _ sink => (sink, none)
  | .error failure sink => (sink, some failure)

end Command

namespace Invocation

/-- The projects of the target file, which `read` reads. -/
def load (read : Bytes → Except ReadFault Bytes) (invocation : Invocation) :
    Except RunFailure (List Project) := do
  let bytes := invocation.path
  match Utf8.strict? bytes with
  | none => .error (.badPath (Utf8.lossy bytes))
  | some path =>
    let content ← (read bytes).mapError (.read path)
    match Utf8.strict? content with
    | none => .error (.read path .notText)
    | some text =>
      let events ← (Manifest.events path text).mapError (.manifest path)
      (compile events).mapError (.compile path)

/-- Carry out a command on a fresh sink. -/
def run (read : Bytes → Except ReadFault Bytes) (room : Option Nat) (invocation : Invocation) :
    Sink × Option RunFailure :=
  match invocation.load read with
  | .error failure => (.ofRoom room, some failure)
  | .ok projects => invocation.command.write projects (.ofRoom room)

end Invocation

end BuildGraph
