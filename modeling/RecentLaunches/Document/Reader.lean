/-
Reading a history back. The text is first split into events; then the events are given their
meaning: launches directly under the root element fill the lists, everything deeper and every other
element is passed over. What is met first decides, a fault of the meaning or one of the markup.
-/
import RecentLaunches.Document.Printer

namespace RecentLaunches

namespace Document

open Markup

/-! ## Records -/

/-- Some attribute values as far as they matter for a launch. -/
structure Fields where
  memento : Option String := none
  mode : Option String := none
  label : Option String := none
  deriving DecidableEq, Repr

/-- The fields with one more attribute. An attribute with another key changes nothing. -/
def Fields.set (f : Fields) (key : List Char) (value : String) : Fields :=
  if key = mementoKey then { f with memento := some value }
  else if key = modeKey then { f with mode := some value }
  else if key = labelKey then { f with label := some value }
  else f

/-- The fields of a tag. Every value is read, whether its key matters or not. -/
def fieldsOf (content : List Char) : Except DocumentFault Fields := do
  let attributes := Attributes.ofTag content
  let fields ← attributes.list.foldlM (fun (f : Fields) a => do
    let value ← (unescape a.value).mapError .value
    return f.set a.key (String.ofList value)) {}
  match attributes.fault with
  | some fault => .error (.attributes fault)
  | none => .ok fields

/-- The launch that some fields describe. A label may be missing, a memento may not be empty. -/
def launchOf (f : Fields) : Except DocumentFault Launch :=
  match f.memento with
  | none => .error .noMemento
  | some memento =>
    if memento.isEmpty then .error .noMemento
    else
      match f.mode with
      | none => .error (.noMode memento)
      | some word =>
        match Mode.read word with
        | .error text => .error (.badMode (.unknownMode text))
        | .ok mode => .ok ⟨memento, mode, f.label.getD ""⟩

/-- The launch that a tag describes. -/
def launchOfTag (content : List Char) : Except DocumentFault Launch := do
  launchOf (← fieldsOf content)

/-! ## Meaning of events -/

/-- Whether a tag has a name. Case does not matter for ASCII letters. -/
def isNamed (name content : List Char) : Bool :=
  Text.sameIgnoringCase (nameOf content) name

/-- What has been read so far: how many elements are open, whether the root was met, and the history
up to here. -/
structure Progress where
  depth : Nat := 0
  rooted : Bool := false
  history : History := {}
  deriving DecidableEq, Repr

/-- Puts a list entry of a document at the end of the list of its mode. -/
def addLaunch (h : History) (e : Launch) : History :=
  h.withList e.mode (Recent.append (h.list e.mode) e)

/-- An element directly under the root. -/
def child (h : History) (content : List Char) : Except DocumentFault History := do
  if isNamed launchName content then return addLaunch h (← launchOfTag content)
  else if isNamed latestName content then return { h with latest := some (← launchOfTag content) }
  else return h

/-- An element by its tag, before it is known whether it holds others. -/
def element (p : Progress) (content : List Char) : Except DocumentFault Progress :=
  match p.depth with
  | 0 =>
    if p.rooted then .error .secondRoot
    else if isNamed rootName content then .ok { p with rooted := true }
    else .error (.wrongRoot (nameOf content))
  | 1 => do return { p with history := ← child p.history content }
  | _ => .ok p

/-- What an event adds. -/
def step (p : Progress) : Event → Except DocumentFault Progress
  | .enter content => do
    let q ← element p content
    return { q with depth := q.depth + 1 }
  | .leaf content => element p content
  | .leave => .ok { p with depth := p.depth - 1 }
  | .text => if p.depth = 0 then .error .textOutside else .ok p
  | .aside => .ok p

/-- The history at the end of a document. -/
def finish (p : Progress) : Except DocumentFault History :=
  if !p.rooted then .error .noRoot
  else if p.depth ≠ 0 then .error .unfinished
  else .ok p.history

/-- The history that a scanned document of some size stands for. -/
def meaning (size : Nat) (scan : Scan) : Except DocumentFault History := do
  let p ← scan.events.foldlM step {}
  match scan.fault with
  | some (fault, left) => .error (.markup fault (size - Text.size left))
  | none => finish p

/-- Reads the document of a history. Positions do not count a byte order mark. -/
def read (text : String) : Except DocumentFault History :=
  meaning (Text.size (Scan.body text.toList)) (Scan.ofDocument text.toList)

/-! ## Restoring -/

/-- What becomes of a text that is to replace the history. -/
inductive Restoration
  | restored (history : History)
  | malformed (fault : DocumentFault)
  | broken (violation : Violation)
  deriving DecidableEq, Repr

/-- Reads a document and looks at the rules of the lists. -/
def restore (text : String) : Restoration :=
  match read text with
  | .error fault => .malformed fault
  | .ok h =>
    match h.violation? with
    | some v => .broken v
    | none => .restored h

end Document

end RecentLaunches
