/-
Why a text is no history document, and how that is said. A fault of the markup names the byte at
which reading stopped; the others speak of an attribute, a record or the shape of the whole.
-/
import RecentLaunches.Launch
import RecentLaunches.Markup.Attribute
import RecentLaunches.Markup.Entity
import RecentLaunches.Markup.Scan
import RecentLaunches.Refusal

namespace RecentLaunches

/-! ## Wording of the markup -/

namespace Markup

/-- What is said about a piece of markup. -/
def TokenFault.message : TokenFault → String
  | unknown => "syntax error: unknown or missed symbol in markup"
  | openVerbatim => "syntax error: CDATA not closed: `]]>` not found before end of input"
  | openComment => "syntax error: comment not closed: `-->` not found before end of input"
  | openDoctype => "syntax error: DOCTYPE not closed: `>` not found before end of input"
  | namelessDoctype =>
    "ill-formed document: `<!DOCTYPE>` declaration does not contain a name of a document type"
  | openInstruction =>
    "syntax error: processing instruction or xml declaration not closed: `?>` not found before end of input"
  | openTag => "syntax error: tag not closed: `>` not found before end of input"

/-- What is said about a document that is not well formed. -/
def ScanFault.message : ScanFault → String
  | token fault => fault.message
  | unopened name =>
    "ill-formed document: close tag `</" ++ String.ofList name ++ ">` does not match any open tag"
  | crossed opened closed =>
    "ill-formed document: expected `</" ++ String.ofList opened ++ ">`, but `</" ++
      String.ofList closed ++ ">` was found"

/-- What is said about the attributes of a tag. -/
def AttributeFault.message : AttributeFault → String
  | missingEquals p => place p ++ "attribute key must be directly followed by `=` or space"
  | missingValue p => place p ++ "`=` must be followed by an attribute value"
  | unquoted p => place p ++ "attribute value must be enclosed in `\"` or `'`"
  | repeated p previous =>
    place p ++ "duplicated attribute, previous declaration at position " ++ toString previous
  | openQuote p quote =>
    place p ++ "missing closing quote `" ++ String.singleton quote ++ "` in attribute value"
where
  place (p : Nat) : String := "position " ++ toString p ++ ": "

/-- What is said about a reference to a code point. -/
def ReferenceFault.message (f : ReferenceFault) : String :=
  "invalid character reference: " ++
    match f with
    | sign => "unexpected number sign"
    | noDigits => "cannot parse integer from empty string"
    | badDigit => "invalid digit found in string"
    | tooLarge => "number too large to fit in target type"
    | zero => "0x0 character is not permitted in XML"
    | notScalar code => "`" ++ toString code ++ "` is not a valid codepoint"

/-- What is said about a value. -/
def EntityFault.message : EntityFault → String
  | unterminated start stop =>
    "Error while escaping character at range " ++ toString start ++ ".." ++ toString stop ++
      ": Cannot find ';' after '&'"
  | unknown start stop name =>
    "at " ++ toString start ++ ".." ++ toString stop ++ ": unrecognized entity `" ++
      String.ofList name ++ "`"
  | reference fault => fault.message

end Markup

/-! ## Faults of a document -/

/-- Why a text is no history document. -/
inductive DocumentFault
  | markup (cause : Markup.ScanFault) (position : Nat)
  | attributes (cause : Markup.AttributeFault)
  | value (cause : Markup.EntityFault)
  | noMemento
  | noMode (memento : Memento)
  | badMode (cause : Refusal)
  | textOutside
  | secondRoot
  | wrongRoot (name : List Char)
  | noRoot
  | unfinished
  deriving DecidableEq, Repr

/-- What is said about a text that is no history document. -/
def DocumentFault.message (f : DocumentFault) : String :=
  "Malformed history document: " ++
    match f with
    | markup cause position => cause.message ++ " (at byte " ++ toString position ++ ")"
    | attributes cause => cause.message
    | value cause => cause.message
    | noMemento => "launch record without a memento"
    | noMode memento => "launch record " ++ memento ++ " without a mode"
    | badMode cause => cause.message
    | textOutside => "text outside the root element"
    | secondRoot => "more than one root element"
    | wrongRoot name => "unexpected root element <" ++ String.ofList name ++ ">"
    | noRoot => "document has no root element"
    | unfinished => "document ends inside an element"

end RecentLaunches
