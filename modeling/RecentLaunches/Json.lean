/-
Exchanged values: the trees of JSON. An object keeps its members in order; a number is only known
to be one, as no value here is a number.
-/
namespace RecentLaunches

/-- A JSON value. -/
inductive Json
  | null
  | bool (value : Bool)
  | number
  | string (value : String)
  | array (items : List Json)
  | object (members : List (String × Json))
  deriving Repr, Inhabited

namespace Json

/-- The value as text. -/
def asString? : Json → Option String
  | string s => some s
  | _ => none

/-- The value as a truth value. -/
def asBool? : Json → Option Bool
  | bool b => some b
  | _ => none

/-- The value as text that may be absent: outer none for a value of another kind. -/
def asText? : Json → Option (Option String)
  | null => some none
  | string s => some (some s)
  | _ => none

/-- The member of a key. The last one counts. -/
def member? (key : String) (members : List (String × Json)) : Option Json :=
  (members.reverse.find? (·.1 == key)).map (·.2)

/-- The values of a record with the given keys, in order: the members of an object, or the items of
an array that has exactly one for each key. -/
def record? (keys : List String) : Json → Option (List Json)
  | object members => keys.mapM fun k => member? k members
  | array items => if items.length = keys.length then some items else none
  | _ => none

end Json

end RecentLaunches
