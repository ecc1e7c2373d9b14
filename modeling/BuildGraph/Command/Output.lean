import BuildGraph.Text.Utf8

/-! Printing to a sink that may fill up.

A sink takes bytes in order until its room is used up, also in the middle of a text, and
then refuses all that follows. Printing stops at the first refusal, and where a text cannot be laid
out.
-/

set_option autoImplicit false

namespace BuildGraph

/-- What was written, and how much more can be; a sink without a number never fills up. -/
structure Sink where
  written : Bytes
  room : Option Nat
  deriving DecidableEq, Repr

namespace Sink

def ofRoom (room : Option Nat) : Sink := ⟨[], room⟩

/-- The error of a full sink. -/
def fullText : String := "output limit reached"

/-- Write as many bytes as there is room for, and say whether these were all. -/
def write (sink : Sink) (bytes : Bytes) : Sink × Bool :=
  match sink.room with
  | none => (⟨sink.written ++ bytes, none⟩, true)
  | some room =>
    (⟨sink.written ++ bytes.take room, some (room - bytes.length)⟩, bytes.length ≤ room)

end Sink

/-- Why printing stops early: there is no room left, or a width is asked for that is too great. The
second one is no error that a caller can handle. It ends the program. -/
inductive PrintFault where
  | full
  | tooWide
  deriving DecidableEq, Repr

namespace PrintFault

/-- What the program says when it ends so. -/
def tooWideText : String := "Formatting argument out of range"

end PrintFault

/-- Work that writes to a sink. -/
abbrev Printing := EStateM PrintFault Sink

def print (text : String) : Printing Unit := fun sink =>
  match sink.write (Utf8.encode text) with
  | (sink, true) => .ok () sink
  | (sink, false) => .error .full sink

/-- What is being written. -/
inductive OutputPart where
  | verdict
  | tree
  | dot
  | jsonValue
  | jsonEnd
  deriving DecidableEq, Repr

def OutputPart.text : OutputPart → String
  | verdict => "write verdict"
  | tree => "write tree"
  | dot => "write DOT graph"
  | jsonValue => "serialising graph"
  | jsonEnd => "write JSON"

end BuildGraph
