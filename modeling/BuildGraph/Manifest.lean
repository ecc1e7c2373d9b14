import BuildGraph.Manifest.Events
import BuildGraph.Manifest.ParseError
import BuildGraph.Yaml.Document

/-! Target files: the events of a text, or why it has none. -/

set_option autoImplicit false

namespace BuildGraph

/-- Why a file that is shown as `name` has no events. -/
inductive ManifestError where
  | parse (name : String) (error : Manifest.ParseError)
  | shape (name : String) (error : Manifest.ShapeError)
  deriving DecidableEq, Repr

namespace ManifestError

def code : ManifestError → String
  | parse _ _ => "targetgraph::manifest::parse"
  | shape _ _ => Manifest.ShapeError.code

def message : ManifestError → String
  | parse name _ => "failed to parse " ++ name
  | shape name error => error.message name

def help : ManifestError → Option String
  | parse _ _ => none
  | shape _ _ => some Manifest.ShapeError.help

def causes : ManifestError → List Cause
  | parse name error => [.diagnostic (error.diagnostic name), .text error.cause.text]
  | shape _ _ => []

/-- The messages from the outermost to the innermost. -/
def messages : ManifestError → List String
  | parse name error => [message (parse name error), error.message, error.cause.text]
  | shape name error => [message (shape name error)]

/-- The long form. -/
def rendered (error : ManifestError) : String :=
  Diagnostic.text ⟨error.code, error.message, error.help, none⟩ error.causes

end ManifestError

namespace Manifest

/-- The name under which a text without a file is shown. -/
def defaultName : String := "targets.yml"

/-- The events of a text. A blank text is an empty document. -/
def events (name text : String) : Except ManifestError (List Event) :=
  if Text.isBlank text.toList then .ok [.documentStart, .documentEnd]
  else
    match Yaml.read text.toList with
    | .error error => .error (.parse name ⟨text, error⟩)
    | .ok root => (rootEvents root).mapError (.shape name)

end Manifest

end BuildGraph
