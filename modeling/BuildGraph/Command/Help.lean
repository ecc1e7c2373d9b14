import BuildGraph.Command.Invocation

/-! The texts that help and version requests show. -/

set_option autoImplicit false

namespace BuildGraph.Help

def programName : String := "targetgraph"

def version : String := programName ++ " 0.1.0\n"

def helpAbout : String := "Print this message or the help of the given subcommand(s)"

/-- A text that is followed by two blanks more than the longest text of its column. -/
def cell (width : Nat) (text : String) : String :=
  "  " ++ text ++ String.ofList (List.replicate (width + 2 - text.length) ' ')

def table (rows : List (String × String)) : String :=
  let width := ((rows.map (·.1.length)).max?).getD 0
  String.join (rows.map fun (left, right) => cell width left ++ right ++ "\n")

def program : String :=
  "Compiles YAML target declarations into a validated executable/library dependency graph."
    ++ "\n\nUsage: " ++ programName ++ " [OPTIONS] [COMMAND]\n\nCommands:\n"
    ++ table (Command.all.map (fun command => (command.name, command.about))
      ++ [("help", helpAbout)])
    ++ "\nOptions:\n"
    ++ table [
      ("-f, --file <FILE>", "Path to the target file to use [default: targets.yml]"),
      ("-C, --directory <DIR>", "Change to this directory before doing anything"),
      ("-v, --verbose", "Enable verbose logging output"),
      ("-h, --help", "Print help"),
      ("-V, --version", "Print version")]

def command (command : Command) : String :=
  command.about ++ "\n\nUsage: " ++ programName ++ " " ++ command.name
    ++ "\n\nOptions:\n" ++ table [("-h, --help", "Print help")]

/-- The help of the help command. -/
def help : String :=
  helpAbout ++ "\n\nUsage: " ++ programName ++ " help [COMMAND]...\n\nArguments:\n"
    ++ table [("[COMMAND]...", "Print help for the subcommand(s)")]

end BuildGraph.Help
