/-
Paths: names between slashes. A path that starts with a slash leads from the root, any other from
the directory one is in. Paths are joined and cut as text; nothing here asks the disk.
-/
import RecentLaunches.Text.Cut

namespace RecentLaunches.Path

/-! ## Parts of a path -/

/-- The parts of a path between its slashes, one more than it has slashes. -/
def pieces (p : String) : List (List Char) :=
  Text.pieces '/' p.toList

/-- The text with given parts between its slashes. -/
def ofPieces (ps : List (List Char)) : String :=
  String.ofList (List.intercalate ['/'] ps)

/-- The names that a path leads through, from the first to the last. -/
def steps (p : String) : List String :=
  ((pieces p).filter (!·.isEmpty)).map String.ofList

/-- Whether a path leads from the root. -/
def isAbsolute (p : String) : Bool :=
  p.toList.head? == some '/'

/-- Whether a path ends in a slash, so that it can only be that of a directory. -/
def isClosed (p : String) : Bool :=
  p.toList.getLast? == some '/'

/-! ## Joining -/

/-- The path that leads along a second path from where the first one leads. One slash stands between
them; a second path from the root is the whole answer. -/
def join (base p : String) : String :=
  if isAbsolute p then p
  else if base.isEmpty || isClosed base then base ++ p
  else base ++ "/" ++ p

/-! ## The directory above -/

/-- Whether a part leads nowhere: it is empty or a dot. -/
def isIdle (piece : List Char) : Bool :=
  piece.isEmpty || piece == ['.']

/-- Parts without the idle ones at the end. -/
def dropIdle (ps : List (List Char)) : List (List Char) :=
  (ps.reverse.dropWhile isIdle).reverse

/-- The path without its last name. The root and the empty path have none above them; a dot counts
as a name where a path starts with it. -/
def parent? (p : String) : Option String :=
  match pieces p with
  | [] => none
  | first :: rest =>
    let rest := dropIdle rest
    if rest.isEmpty then
      if first.isEmpty then none else some ""
    else
      let above := dropIdle rest.dropLast
      if first.isEmpty then some ("/" ++ ofPieces above) else some (ofPieces (first :: above))

/-- A path and the paths above it, as far as a bound allows. -/
def climb : Nat → String → List String
  | 0, _ => []
  | bound + 1, p =>
    match parent? p with
    | none => []
    | some above => p :: climb bound above

/-- A path and the paths above it from the longest to the shortest, up to but without the root or
the empty path. Each has a part less than the one before it. -/
def lineage (p : String) : List String :=
  climb (pieces p).length p

end RecentLaunches.Path
