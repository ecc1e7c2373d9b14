import BuildGraph.Diagnostic.Snippet
import BuildGraph.Text.Wrap

/-! The long form of a message: code, text, causes, excerpt and advice, in lines that are
filled up to a width.
-/

set_option autoImplicit false

namespace BuildGraph

structure Diagnostic where
  code : String
  message : String
  help : Option String
  snippet : Option Snippet
  deriving DecidableEq, Repr

/-- What led to a message. -/
inductive Cause where
  | diagnostic (cause : Diagnostic)
  | text (message : String)
  deriving DecidableEq, Repr

namespace Diagnostic

/-- The width of a line in the outermost message. -/
def lineWidth : Nat := 200

/-- Fill with two columns left free. -/
def fillLine (width : Nat) (first other text : String) : String :=
  Text.fill (width - 2) first other text ++ "\n"

/-- A message whose causes are given as finished text. -/
def textAround (width : Nat) (causes : String) (diagnostic : Diagnostic) : String :=
  diagnostic.code ++ "\n\n"
    ++ fillLine width "  x " "  | " diagnostic.message
    ++ causes
    ++ (diagnostic.snippet.map Snippet.text).getD ""
    ++ (diagnostic.help.map (fillLine width "  help: " "        ")).getD ""

/-- A cause hangs from the line at the left; the last one ends that line. -/
def causeText (width : Nat) (isLast : Bool) (cause : Cause) : String :=
  let first := if isLast then "  \x60-> " else "  |-> "
  let other := if isLast then "      " else "  |   "
  fillLine width first other
    (match cause with
    | .diagnostic cause => textAround (width - other.length) "" cause
    | .text message => message)

def causesText (width : Nat) : List Cause → String
  | [] => ""
  | cause :: rest => causeText width rest.isEmpty cause ++ causesText width rest

/-- The long form of a message with its causes, the nearest first. -/
def text (diagnostic : Diagnostic) (causes : List Cause) : String :=
  diagnostic.textAround lineWidth (causesText lineWidth causes)

end Diagnostic

end BuildGraph
