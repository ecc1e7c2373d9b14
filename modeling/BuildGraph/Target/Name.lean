/-! Raw target names and the usage hint they carry.

A trailing star marks an executable and a leading `lib` a library. The star is
looked at first, and a mark that would leave nothing is no mark, except that a
lone star is refused. `spell` puts a mark back.
-/

set_option autoImplicit false

namespace BuildGraph

/-- The role of a build target. -/
inductive Usage where
  | executable
  | library
  deriving DecidableEq, Repr

namespace Usage

def text : Usage → String
  | executable => "executable"
  | library => "library"

end Usage

/-- Why a raw name identifies no target. -/
inductive NameError where
  | empty
  | onlyMark (name : String)
  deriving DecidableEq, Repr

namespace NameError

def message : NameError → String
  | empty => "target name must not be empty"
  | onlyMark name =>
    "target name '" ++ name ++ "' has no characters besides the executable marker"

/-- The diagnostic code. -/
def code : NameError → String
  | empty => "targetgraph::name::empty"
  | onlyMark _ => "targetgraph::name::marker_only"

def help : NameError → Option String
  | empty => none
  | onlyMark _ => some "put the target name before the trailing '*'"

end NameError

/-- A raw name split into its hint and what remains without the mark. -/
structure TargetName where
  hint : Option Usage
  cleaned : String
  deriving DecidableEq, Repr

namespace TargetName

/-- Split the characters of a name; the star wins over the leading `lib`. -/
def ofChars (name : List Char) : Except NameError TargetName :=
  if name = [] then .error .empty
  else if name.getLast? = some '*' then
    if name.dropLast = [] then .error (.onlyMark (String.ofList name))
    else .ok ⟨some .executable, String.ofList name.dropLast⟩
  else match name with
    | 'l' :: 'i' :: 'b' :: c :: stem => .ok ⟨some .library, String.ofList (c :: stem)⟩
    | _ => .ok ⟨none, String.ofList name⟩

def ofString (name : String) : Except NameError TargetName :=
  ofChars name.toList

/-- Write the mark for `hint` onto a cleaned name. -/
def spell (cleaned : String) : Option Usage → String
  | some .executable => cleaned ++ "*"
  | some .library => "lib" ++ cleaned
  | none => cleaned

/-- The raw spelling of a split name. -/
def raw (name : TargetName) : String :=
  spell name.cleaned name.hint

end TargetName

end BuildGraph
