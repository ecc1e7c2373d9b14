/-! What can be wrong with a YAML text, and where. -/

set_option autoImplicit false

namespace BuildGraph.Yaml

/-- A place in a text: `index` characters before it, `line` from one, `column` from zero. -/
structure Mark where
  index : Nat
  line : Nat
  column : Nat
  deriving DecidableEq, Repr

def Mark.start : Mark := ⟨0, 1, 0⟩

/-- A place as it is shown: both numbers from one. -/
structure Location where
  line : Nat
  column : Nat
  deriving DecidableEq, Repr

def Mark.location (mark : Mark) : Location := ⟨mark.line, mark.column + 1⟩

/-- The causes, in the order of the stages that find them: characters, tokens, grammar,
content. `message`, `unexpectedEnd` and `unexpected` also come from other readers. -/
inductive Problem where
  -- characters and tokens
  | tabIndentation
  | tabInPlainScalar
  | tabInQuotedScalar
  | tabAfterKeyIndicator
  | commentWithoutBlank
  | unexpectedCharacter (c : Char)
  | invalidIndentation
  | anchorIndentation
  | flowIndentation
  | quotedIndentation
  | contentAfterDocumentEnd
  | keyWithoutColon
  | keyRequired
  | nestingTooDeep
  | entryInFlow
  | entryNotAllowed
  | keyNotAllowed
  | valueNotAllowed
  | valueOnLaterLine
  | noBlankAfterEntry
  | noBlankAfterKey
  | noBlankAfterValue
  | valueBeforeFlow
  | emptyAnchor
  | unendedTag
  | emptyPlainScalar
  | dashBeforeFlow
  | blockIndicatorZero
  | blockHeader
  | blockStartsWithTab
  | blockIndentation
  | quotedDocumentIndicator
  | quotedEnd
  | quotedTrailing
  | unknownEscape
  | escapeDigits
  | escapeCode
  -- grammar
  | expectedDocumentStart
  | directiveWithoutDocumentEnd
  | expectedKey
  | expectedEntry
  | expectedSequenceEnd
  | expectedMappingEnd
  | expectedNode
  | unknownAnchorName
  | undeclaredTagHandle
  -- content
  | unknownAnchor (id : Nat)
  | foldedIndentation
  | closingDelimiter
  | inlineCommentBeforeScalar
  | manyDocuments
  | duplicateKey (key : String)
  | mergeValue
  | taggedScalar
  | binaryBase64
  | binaryText
  | unexpected (wanted : String)
  | unexpectedEnd
  | message (text : String)
  deriving DecidableEq, Repr

def Problem.text : Problem → String
  | tabIndentation => "tabs disallowed within this context (block indentation)"
  | tabInPlainScalar => "while scanning a plain scalar, found a tab"
  | tabInQuotedScalar => "tab cannot be used as indentation"
  | tabAfterKeyIndicator => "tabs disallowed in this context"
  | commentWithoutBlank => "comments must be separated from other tokens by whitespace"
  | unexpectedCharacter c => "unexpected character: `" ++ String.singleton c ++ "'"
  | invalidIndentation => "invalid indentation"
  | anchorIndentation => "invalid indentation for anchor"
  | flowIndentation => "invalid indentation in flow construct"
  | quotedIndentation => "invalid indentation in quoted scalar"
  | contentAfterDocumentEnd => "invalid content after document end marker"
  | keyWithoutColon => "simple key expect ':'"
  | keyRequired => "simple key expected"
  | nestingTooDeep => "recursion limit exceeded"
  | entryInFlow => "\"-\" is only valid inside a block"
  | entryNotAllowed => "block sequence entries are not allowed in this context"
  | keyNotAllowed => "mapping keys are not allowed in this context"
  | valueNotAllowed => "mapping values are not allowed in this context"
  | valueOnLaterLine => "illegal placement of ':' indicator"
  | noBlankAfterEntry => "'-' must be followed by a valid YAML whitespace"
  | noBlankAfterKey => "expected whitespace"
  | noBlankAfterValue => "':' must be followed by a valid YAML whitespace"
  | valueBeforeFlow => "':' may not precede any of `[\x7b` in flow mapping"
  | emptyAnchor =>
    "while scanning an anchor or alias, did not find expected alphabetic or numeric character"
  | unendedTag => "while scanning a tag, did not find expected whitespace or line break"
  | emptyPlainScalar => "unexpected end of plain scalar"
  | dashBeforeFlow => "plain scalar cannot start with '-' followed by ,[]\x7b\x7d"
  | blockIndicatorZero =>
    "while scanning a block scalar, found an indentation indicator equal to 0"
  | blockHeader =>
    "while scanning a block scalar, did not find expected comment or line break"
  | blockStartsWithTab => "a block scalar content cannot start with a tab"
  | blockIndentation => "wrongly indented line in block scalar"
  | quotedDocumentIndicator =>
    "while scanning a quoted scalar, found unexpected document indicator"
  | quotedEnd => "while scanning a quoted scalar, found unexpected end of stream"
  | quotedTrailing => "invalid trailing content after double-quoted scalar"
  | unknownEscape => "while parsing a quoted scalar, found unknown escape character"
  | escapeDigits =>
    "while parsing a quoted scalar, did not find expected hexadecimal number"
  | escapeCode =>
    "while parsing a quoted scalar, found invalid Unicode character escape code"
  | expectedDocumentStart => "did not find expected <document start>"
  | directiveWithoutDocumentEnd => "missing explicit document end marker before directive"
  | expectedKey => "while parsing a block mapping, did not find expected key"
  | expectedEntry =>
    "while parsing a block collection, did not find expected '-' indicator"
  | expectedSequenceEnd => "while parsing a flow sequence, expected ',' or ']'"
  | expectedMappingEnd =>
    "while parsing a flow mapping, did not find expected ',' or '\x7d'"
  | expectedNode => "while parsing a node, did not find expected node content"
  | unknownAnchorName => "while parsing node, found unknown anchor"
  | undeclaredTagHandle => "the handle wasn't declared"
  | unknownAnchor id => "alias references unknown anchor id " ++ toString id
  | foldedIndentation => "folded block scalars must indent their content"
  | closingDelimiter => "unexpected trailing closing delimiter"
  | inlineCommentBeforeScalar =>
    "invalid plain scalar: inline comment cannot be followed by a new top-level scalar line "
      ++ "without a document marker"
  | manyDocuments =>
    "multiple YAML documents detected; use from_multiple or from_multiple_with_options"
  | duplicateKey key => "duplicate mapping key: " ++ key
  | mergeValue => "YAML merge value must be mapping or sequence of mappings"
  | taggedScalar => "cannot deserialize scalar tagged into string"
  | binaryBase64 => "invalid !!binary base64"
  | binaryText => "!!binary scalar is not valid UTF-8"
  | unexpected wanted => "unexpected event: expected " ++ wanted
  | unexpectedEnd => "unexpected end of input"
  | message text => text

structure Error where
  problem : Problem
  location : Option Location
  deriving DecidableEq, Repr

namespace Error

/-- The problem, with its place when one is known. -/
def text (error : Error) : String :=
  match error.location with
  | none => error.problem.text
  | some place =>
    error.problem.text ++ " at line " ++ toString place.line ++ ", column "
      ++ toString place.column

end Error

def Problem.atMark (problem : Problem) (mark : Mark) : Error :=
  ⟨problem, some mark.location⟩

end BuildGraph.Yaml
