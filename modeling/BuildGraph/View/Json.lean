import BuildGraph.Project

/-! The JSON view: projects as data, and the pretty text of such data.

Two blanks per level, one item a line, and empty lists closed on the spot.
-/

set_option autoImplicit false

namespace BuildGraph

inductive Json where
  | null
  | bool (value : Bool)
  | number (value : Nat)
  | string (text : String)
  | array (items : List Json)
  | object (fields : List (String × Json))

namespace Json

def hexDigit (n : Nat) : Char := (Nat.toDigits 16 (n % 16)).headD '0'

/-- Quotes, backslashes and control characters are escaped, all else stands as it is. -/
def escapeChar (c : Char) : List Char :=
  if c = '"' then ['\\', '"']
  else if c = '\\' then ['\\', '\\']
  else if c = '\n' then ['\\', 'n']
  else if c = '\r' then ['\\', 'r']
  else if c = '\t' then ['\\', 't']
  else if c.toNat = 8 then ['\\', 'b']
  else if c.toNat = 12 then ['\\', 'f']
  else if c.toNat < 32 then
    ['\\', 'u', '0', '0', hexDigit (c.toNat / 16), hexDigit c.toNat]
  else [c]

def quote (text : String) : String :=
  "\"" ++ String.ofList (text.toList.flatMap escapeChar) ++ "\""

def newline (level : Nat) : String :=
  "\n" ++ String.ofList (List.replicate (2 * level) ' ')

mutual

/-- The text of a value whose first line already stands at `level`. -/
def pretty (level : Nat) : Json → String
  | null => "null"
  | bool value => if value then "true" else "false"
  | number value => toString value
  | string text => quote text
  | array [] => "[]"
  | array (item :: rest) =>
    "[" ++ newline (level + 1) ++ pretty (level + 1) item ++ prettyItems (level + 1) rest
      ++ newline level ++ "]"
  | object [] => "\x7b\x7d"
  | object ((key, value) :: rest) =>
    "\x7b" ++ newline (level + 1) ++ quote key ++ ": " ++ pretty (level + 1) value
      ++ prettyFields (level + 1) rest ++ newline level ++ "\x7d"

def prettyItems (level : Nat) : List Json → String
  | [] => ""
  | item :: rest => "," ++ newline level ++ pretty level item ++ prettyItems level rest

def prettyFields (level : Nat) : List (String × Json) → String
  | [] => ""
  | (key, value) :: rest =>
    "," ++ newline level ++ quote key ++ ": " ++ pretty level value ++ prettyFields level rest

end

def text (value : Json) : String := value.pretty 0

end Json

/-- Verdicts are spelled as single words in data. -/
def Verdict.json : Verdict → Json
  | valid => .string "valid"
  | ambiguous => .string "ambiguous"
  | missingExecutable => .string "missing_executable"

def Usage.json (usage : Usage) : Json := .string usage.text

def TargetId.json (id : TargetId) : Json := .number id

def Target.json (target : Target) : Json :=
  .object [
    ("id", TargetId.json target.id),
    ("name", .string target.name),
    ("usage", target.usage.json),
    ("hint", (target.hint.map Usage.json).getD .null),
    ("dependencies", .array (target.dependencies.map TargetId.json)),
    ("declared", .bool target.declared)]

def ProjectVerdict.json : ProjectVerdict → Json
  | valid => .object [("status", .string "valid")]
  | invalid target verdict =>
    .object [("status", .string "invalid"), ("target", TargetId.json target),
      ("verdict", verdict.json)]

def Report.json (report : Report) : Json :=
  .object [
    ("verdicts", .array (report.verdicts.map Verdict.json)),
    ("project", report.project.json),
    ("cycle", (report.cycle.map fun cycle => .array (cycle.map TargetId.json)).getD .null)]

def Store.json (store : Store) : Json := .array (store.targets.map Target.json)

def Project.json (project : Project) : Json :=
  .object [("targets", project.targets.json), ("report", project.report.json)]

end BuildGraph
