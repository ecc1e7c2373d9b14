import BuildGraph.FileTree

/-! What the command line asks for. -/

set_option autoImplicit false

namespace BuildGraph

/-- What to write about a target file. -/
inductive Command where
  | check
  | tree
  | dot
  | json
  deriving DecidableEq, Repr

namespace Command

def all : List Command := [check, tree, dot, json]

def name : Command → String
  | check => "check"
  | tree => "tree"
  | dot => "dot"
  | json => "json"

def about : Command → String
  | check => "Validate the graph and print one verdict per target (default)"
  | tree => "Print the dependency graph as an indented tree"
  | dot => "Print the dependency graph in DOT format for visualization"
  | json => "Print targets and verdicts as JSON"

/-- The command with this name, letter for letter. -/
def ofBytes? (word : Bytes) : Option Command :=
  all.find? fun command => Utf8.encode command.name = word

end Command

/-- A command and its options. -/
structure Invocation where
  file : Bytes
  directory : Option Bytes
  verbose : Bool
  command : Command
  deriving DecidableEq, Repr

namespace Invocation

def defaultFile : Bytes := Utf8.encode "targets.yml"

/-- The path of the target file, from the directory that the options name. -/
def path (invocation : Invocation) : Bytes :=
  match invocation.directory with
  | none => invocation.file
  | some directory => Path.join directory invocation.file

end Invocation

end BuildGraph
