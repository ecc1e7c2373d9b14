import BuildGraph.Command.Help

/-! Reading the command line.

Options come first, then a command, which takes no arguments of its own. The value of an
option is joined to it or the next argument. An option is settled when the next one comes or
the line ends, so that a fault in a later argument can win over one in its value.
-/

set_option autoImplicit false

namespace BuildGraph

namespace Arguments

/-- Why arguments do not lead to an invocation. The first two are answers, not faults. -/
inductive Refusal where
  | help (text : String)
  | version (text : String)
  | unknownArgument
  | unknownCommand
  | badValue
  | unwantedValue
  | repeated
  deriving DecidableEq, Repr

/-! ## Words -/

/-- The forms of an argument. A lone dash is plain. -/
inductive Word where
  | dashes
  | long (name : Bytes) (value : Option Bytes)
  | short (letters : Bytes)
  | plain (text : Bytes)
  deriving DecidableEq, Repr

def dash : UInt8 := 45

def equals : UInt8 := 61

/-- Cut a text at its first equals sign. -/
def cutAtEquals (text : Bytes) : Bytes × Option Bytes :=
  match text.dropWhile (· ≠ equals) with
  | [] => (text, none)
  | _ :: value => (text.takeWhile (· ≠ equals), some value)

def Word.ofBytes (text : Bytes) : Word :=
  match text with
  | a :: b :: rest =>
    if a ≠ dash then .plain text
    else if b ≠ dash then .short (b :: rest)
    else if rest = [] then .dashes
    else .long (cutAtEquals rest).1 (cutAtEquals rest).2
  | _ => .plain text

/-! ## Options -/

/-- The options that take a value. -/
inductive Setting where
  | file
  | directory
  deriving DecidableEq, Repr

inductive Switch where
  | setting (setting : Setting)
  | verbose
  | help
  | version
  deriving DecidableEq, Repr

namespace Switch

def all : List Switch := [setting .file, setting .directory, verbose, help, version]

def name : Switch → String
  | setting .file => "file"
  | setting .directory => "directory"
  | verbose => "verbose"
  | help => "help"
  | version => "version"

def letter : Switch → Char
  | setting .file => 'f'
  | setting .directory => 'C'
  | verbose => 'v'
  | help => 'h'
  | version => 'V'

def ofName? (name : Bytes) : Option Switch :=
  all.find? fun switch => Utf8.encode switch.name = name

def ofLetter? (b : UInt8) : Option Switch :=
  all.find? fun switch => switch.letter.toNat = b.toNat

end Switch

/-! ## Settling -/

/-- The options so far. The pending setting was the last option; its value may be missing. -/
structure Options where
  file : Option Bytes
  directory : Option Bytes
  verbose : Bool
  pending : Option (Setting × Option Bytes)
  deriving DecidableEq, Repr

namespace Options

def empty : Options := ⟨none, none, false, none⟩

/-- Whether the next argument is a value, unless it looks like an option. -/
def isWaiting (options : Options) : Bool :=
  match options.pending with
  | some (_, none) => true
  | _ => false

def value? (options : Options) : Setting → Option Bytes
  | .file => options.file
  | .directory => options.directory

/-- Give a setting its value, once and not an empty one. -/
def set (options : Options) (setting : Setting) (value : Bytes) : Except Refusal Options :=
  if (options.value? setting).isSome then .error .repeated
  else if value = [] then .error .badValue
  else
    match setting with
    | .file => .ok { options with file := some value }
    | .directory => .ok { options with directory := some value }

/-- Settle the pending setting. -/
def settle (options : Options) : Except Refusal Options :=
  match options.pending with
  | none => .ok options
  | some (_, none) => .error .badValue
  | some (setting, some value) => { options with pending := none }.set setting value

/-- Take a setting with the value that is joined to it, or wait for the value. -/
def take (options : Options) (setting : Setting) (value : Option Bytes) :
    Except Refusal Options := do
  let settled ← options.settle
  match value with
  | none => .ok { settled with pending := some (setting, none) }
  | some value => settled.set setting value

/-- Take a switch without a value. -/
def raise (options : Options) (switch : Switch) : Except Refusal Options := do
  match switch with
  | .setting setting => options.take setting none
  | .verbose =>
    let settled ← options.settle
    if settled.verbose then .error .repeated else .ok { settled with verbose := true }
  | .help =>
    let _ ← options.settle
    .error (.help Help.program)
  | .version =>
    let _ ← options.settle
    .error (.version Help.version)

def takeLong (options : Options) (name : Bytes) (value : Option Bytes) :
    Except Refusal Options :=
  match Switch.ofName? name, value with
  | none, _ => .error .unknownArgument
  | some (.setting setting), value => options.take setting value
  | some _, some _ => .error .unwantedValue
  | some switch, none => options.raise switch

/-- Take a cluster of letters. The rest after a setting is its value, with or without an
equals sign. -/
def takeShort (options : Options) : Bytes → Except Refusal Options
  | [] => .ok options
  | b :: rest =>
    match Switch.ofLetter? b with
    | none => .error .unknownArgument
    | some (.setting setting) =>
      options.take setting
        (match rest with
        | [] => none
        | c :: value => some (if c = equals then value else rest))
    | some switch => do
      let next ← options.raise switch
      next.takeShort rest

/-- The invocation that the options make with a command. -/
def finish (options : Options) (command : Command) : Except Refusal Invocation := do
  let settled ← options.settle
  .ok ⟨settled.file.getD Invocation.defaultFile, settled.directory, settled.verbose, command⟩

end Options

/-! ## Lines -/

def isHelpWord (word : Bytes) : Bool := word = Utf8.encode "help"

/-- What the help command shows for the words after it. -/
def helpFor : List Bytes → Refusal
  | [] => .help Help.program
  | [word] =>
    match Command.ofBytes? word with
    | some command => .help (Help.command command)
    | none => if isHelpWord word then .help Help.help else .unknownCommand
  | _ => .unknownCommand

/-- A command takes nothing but a request for its help. -/
def checkRest (command : Command) : List Bytes → Except Refusal Unit
  | [] => .ok ()
  | arg :: rest =>
    match Word.ofBytes arg with
    | .dashes => if rest = [] then .ok () else .error .unknownArgument
    | .long name value =>
      if Switch.ofName? name = some .help then
        .error (if value.isNone then .help (Help.command command) else .unwantedValue)
      else .error .unknownArgument
    | .short letters =>
      .error (if letters.head?.bind Switch.ofLetter? = some .help then
        .help (Help.command command) else .unknownArgument)
    | .plain _ => .error .unknownArgument

/-- What is wrong with an argument after two dashes. -/
def afterDashes (arg : Bytes) : Refusal :=
  if (Command.ofBytes? arg).isSome || isHelpWord arg then .unknownArgument else .unknownCommand

/-- Read the rest of a line. -/
def readFrom (options : Options) : List Bytes → Except Refusal Invocation
  | [] => options.finish .check
  | arg :: rest =>
    if options.isWaiting || (!isHelpWord arg && (Command.ofBytes? arg).isNone) then
      match Word.ofBytes arg with
      | .dashes =>
        match rest with
        | [] => options.finish .check
        | next :: _ => .error (afterDashes next)
      | .long name value => do
        let next ← options.takeLong name value
        readFrom next rest
      | .short letters => do
        let next ← options.takeShort letters
        readFrom next rest
      | .plain text =>
        match options.pending with
        | some (setting, none) =>
          readFrom { options with pending := some (setting, some text) } rest
        | _ => .error .unknownCommand
    else
      match Command.ofBytes? arg with
      | none => .error (helpFor rest)
      | some command => do
        checkRest command rest
        options.finish command

/-- The invocation for the arguments after the program's name. -/
def read (args : List Bytes) : Except Refusal Invocation := readFrom .empty args

end Arguments

end BuildGraph
