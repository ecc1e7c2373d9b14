import BuildGraph.Command.Arguments
import BuildGraph.Command.Run

/-! The command line program: it reads one file and writes one answer. -/

set_option autoImplicit false

open BuildGraph

namespace BuildGraph

/-- What a fault in the arguments is told as. -/
def Arguments.Refusal.text : Arguments.Refusal → String
  | help text => text
  | version text => text
  | unknownArgument => "error: unexpected argument\n"
  | unknownCommand => "error: unrecognized subcommand\n"
  | badValue => "error: a value is required for an option\n"
  | unwantedValue => "error: unexpected value for an option\n"
  | repeated => "error: an option cannot be used multiple times\n"

/-- Help and version are answers; all else is a fault. -/
def Arguments.Refusal.isAnswer : Arguments.Refusal → Bool
  | help _ => true
  | version _ => true
  | _ => false

/-- The fault behind an error of the system. -/
def ReadFault.ofError : IO.Error → ReadFault
  | .noFileOrDirectory _ _ _ => .notFound
  | .permissionDenied _ _ _ => .denied
  | .inappropriateType _ code _ => if code = 21 then .isDirectory else .notDirectory
  | error => .other (toString error)

/-- Read a file whose path is text. -/
def readFile (path : Bytes) : BaseIO (Except ReadFault Bytes) := do
  match Utf8.strict? path with
  | none => return .error .notFound
  | some name =>
    match ← (IO.FS.readBinFile name).toBaseIO with
    | .ok content => return .ok content.toList
    | .error error => return .error (.ofError error)

end BuildGraph

def main (args : List String) : IO UInt32 := do
  match Arguments.read (args.map Utf8.encode) with
  | .error refusal =>
    if refusal.isAnswer then
      IO.print refusal.text
      return 0
    IO.eprint refusal.text
    return 2
  | .ok invocation =>
    let content ← readFile invocation.path
    let (sink, failure) := invocation.run (fun _ => content) none
    (← IO.getStdout).write (ByteArray.mk sink.written.toArray)
    match failure with
    | none => return 0
    | some failure =>
      IO.eprintln (failure.rendered?.getD failure.text)
      return if failure.isPanic then 101 else 1
