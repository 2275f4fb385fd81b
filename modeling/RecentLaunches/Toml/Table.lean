/-
Tables of a settings file. A table is made by a header, on the way of a header to a table below it,
or by a dotted key, and which of these decides what may still be added to it: a header makes a table
once, and a dotted key adds only to what dotted keys made.
-/
namespace RecentLaunches.Toml

/-- What made a table. -/
inductive Origin
  | header
  | passage
  | dottedKey
  deriving DecidableEq, Repr

/-- What stands under a name: text, another value, a table, or a list of tables of which the last
can still grow. -/
inductive Entry
  | text (s : String)
  | other
  | table (origin : Origin) (members : List (String × Entry))
  | elements (last : List (String × Entry))

/-- The names of a table with what stands under them. -/
abbrev Members := List (String × Entry)

namespace Members

/-- Puts an entry under a name, in the place of the one that is there. -/
def set (ms : Members) (name : String) (e : Entry) : Members :=
  (name, e) :: ms.filter (·.1 != name)

/-- Changes the table that a path of names leads to. Missing tables on the way are made; the way
leads through the last element of a list of tables and never through a value. A dotted key does not
lead through a table that has a header of its own. -/
def within (dotted : Bool) (change : Origin → Members → Option Members) :
    List String → Origin → Members → Option Members
  | [], origin, ms => change origin ms
  | name :: path, _, ms =>
    match ms.lookup name with
    | none =>
      -- the table is not there yet and begins empty
      let origin : Origin := if dotted then .dottedKey else .passage
      (within dotted change path origin []).map fun sub => ms.set name (.table origin sub)
    | some (.table origin sub) =>
      if dotted && origin = .header then none
      else (within dotted change path origin sub).map fun sub => ms.set name (.table origin sub)
    | some (.elements last) =>
      (within dotted change path .header last).map fun last => ms.set name (.elements last)
    | some _ => none

/-- Gives a new name in a table a value. The table of a dotted key has to be one that dotted keys
made. -/
def assign (dotted : Bool) (name : String) (e : Entry) (origin : Origin) (ms : Members) :
    Option Members :=
  if dotted != (origin == .dottedKey) then none
  else if (ms.lookup name).isSome then none
  else some (ms.set name e)

/-- Gives the name at the end of a dotted key a value. -/
def assignAt (key : List String) (e : Entry) (origin : Origin) (ms : Members) : Option Members :=
  match key.getLast? with
  | none => none
  | some name =>
    let path := key.dropLast
    within true (assign (!path.isEmpty) name e) path origin ms

/-- Makes a table by its header. A table that was only passed on the way to another becomes one with
a header. -/
def openTable (name : String) (_ : Origin) (ms : Members) : Option Members :=
  match ms.lookup name with
  | none => some (ms.set name (.table .header []))
  | some (.table .passage sub) => some (ms.set name (.table .header sub))
  | some _ => none

/-- Adds a table to a list of tables. -/
def openElement (name : String) (_ : Origin) (ms : Members) : Option Members :=
  match ms.lookup name with
  | none => some (ms.set name (.elements []))
  | some (.elements _) => some (ms.set name (.elements []))
  | some _ => none

/-- Makes the table at the end of a path. -/
def openAt (openOne : String → Origin → Members → Option Members) (path : List String) (ms : Members) :
    Option Members :=
  match path.getLast? with
  | none => none
  | some name => within false (openOne name) path.dropLast .header ms

end Members

end RecentLaunches.Toml
