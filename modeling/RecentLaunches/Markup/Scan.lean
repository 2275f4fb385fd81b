/-
A document as the events it consists of. Scanning splits the text into pieces, drops blank text,
and checks that closing tags match the open elements. The events before a fault come first, then
the fault: a reader of the events decides what it meets earlier.
-/
import RecentLaunches.Markup.Token

namespace RecentLaunches.Markup

/-- What happens in a document, in order. Elements keep the text of their tag. -/
inductive Event
  | enter (content : List Char)
  | leaf (content : List Char)
  | leave
  | text
  | aside
  deriving DecidableEq, Repr

/-- Why a document is not well formed. -/
inductive ScanFault
  | token (fault : TokenFault)
  | unopened (name : List Char)
  | crossed (opened closed : List Char)
  deriving DecidableEq, Repr

/-- The events of a document up to its end or its first fault. A fault comes with the text left at
its place. -/
structure Scan where
  events : List Event
  fault : Option (ScanFault × List Char)
  deriving DecidableEq, Repr

namespace Scan

/-- A document whose first event is known. -/
def cons (e : Event) (s : Scan) : Scan :=
  { s with events := e :: s.events }

/-- A document that breaks off at a fault. -/
def stop (fault : ScanFault) (left : List Char) : Scan :=
  ⟨[], some (fault, left)⟩

/-- The text before the next markup counts unless it is blank. -/
def leading (s : List Char) (rest : Scan) : Scan :=
  if (s.takeWhile (· != '<')).all isBlank then rest else rest.cons .text

/-- The events of a text inside the given open elements, the innermost first. -/
def scanFrom (opened : List (List Char)) (s : List Char) : Scan :=
  leading s <|
    match hs : s.dropWhile (· != '<') with
    | [] => ⟨[], none⟩
    | _ :: r =>
      match hr : Token.read r with
      | .error (fault, left) => stop (.token fault) left
      | .ok (token, rest) =>
        have : rest.length < s.length := by
          have h1 := Token.length_of_read hr
          have h2 := (List.dropWhile_sublist (· != '<') (l := s)).length_le
          rw [hs] at h2
          simp at h2
          omega
        match token with
        | .opening content => cons (.enter content) (scanFrom (nameOf content :: opened) rest)
        | .empty content => cons (.leaf content) (scanFrom opened rest)
        | .verbatim => cons .text (scanFrom opened rest)
        | .comment | .doctype | .instruction => cons .aside (scanFrom opened rest)
        | .closing name =>
          match opened with
          | [] => stop (.unopened name) rest
          | top :: outer =>
            if top = name then cons .leave (scanFrom outer rest) else stop (.crossed top name) rest
termination_by s.length

/-- The text of a document without the byte order mark that may stand before it. -/
def body (s : List Char) : List Char :=
  match s with
  | '\uFEFF' :: r => r
  | _ => s

/-- The events of a whole document. -/
def ofDocument (s : List Char) : Scan :=
  scanFrom [] (body s)

end Scan

end RecentLaunches.Markup
