/-
Names of files that are URIs: `file:`, a host between two slashes and the next one, a path, and after
a question mark options that are divided by ampersands. Nothing counts from a number sign on.
-/
import RecentLaunches.Text.Cut
import RecentLaunches.Text.Octets

namespace RecentLaunches

/-- What the name of a file says as a URI. -/
structure Uri where
  host : String
  path : String
  options : List (String × String)
  deriving DecidableEq, Repr

namespace Uri

/-! ## Percent signs -/

/-- The value of a hexadecimal digit. -/
def hexDigit? (c : UInt8) : Option UInt8 :=
  if 48 ≤ c ∧ c ≤ 57 then some (c - 48)
  else if 97 ≤ c ∧ c ≤ 102 then some (c - 87)
  else if 65 ≤ c ∧ c ≤ 70 then some (c - 55)
  else none

/-- The byte that two hexadecimal digits at the start of some bytes write. -/
def octet? (bytes : List UInt8) : Option UInt8 :=
  match bytes with
  | a :: b :: _ => do return (← hexDigit? a) * 16 + (← hexDigit? b)
  | _ => none

/-- The bytes that are meant: every percent sign with two hexadecimal digits after it is the byte
that these write. A zero byte ends the part that it stands in. -/
def octets : List UInt8 → List UInt8
  | [] => []
  | c :: rest =>
    if c = 37 then
      match octet? rest with
      | some x => if x = 0 then [] else x :: octets (rest.drop 2)
      | none => c :: octets rest
    else c :: octets rest
termination_by bytes => bytes.length
decreasing_by
  · simp only [List.length_drop, List.length_cons]
    omega
  · simp
  · simp

/-- The text that is meant by a part of a URI. -/
def meant (part : List Char) : String :=
  String.ofList (Text.ofOctets (octets (String.ofList part).toUTF8.toList))

/-! ## Parts -/

/-- The host and what follows it. -/
def cutHost (s : List Char) : List Char × List Char :=
  match Text.after ['/', '/'] s with
  | some s => (s.takeWhile (· ≠ '/'), s.dropWhile (· ≠ '/'))
  | none => ([], s)

/-- The name and the value of an option. One without a name does not count, and one without a value
has the empty one. -/
def option? (s : List Char) : Option (String × String) :=
  let (name, value) := (Text.cut ['='] s).getD (s, [])
  let name := meant name
  if name.isEmpty then none else some (name, meant value)

/-- What a name says, if it is a URI. -/
def read? (name : String) : Option Uri := do
  let (host, s) := cutHost (← Text.after ['f', 'i', 'l', 'e', ':'] name.toList)
  let (path, query) := (Text.cut ['?'] (s.takeWhile (· ≠ '#'))).getD (s.takeWhile (· ≠ '#'), [])
  return ⟨String.ofList host, meant path, (Text.pieces '&' query).filterMap option?⟩

/-! ## Options -/

/-- The number that a text begins with. -/
def number (s : String) : Nat :=
  (s.toList.takeWhile Char.isDigit).foldl (fun n c => n * 10 + (c.toNat - '0'.toNat)) 0

/-- Whether the value of an option says yes: by a word in either case, or by a number whose last eight
bits are not all zero. A number of more than 31 bits says no. -/
def saysYes (s : String) : Bool :=
  if (s.toList.head?.map Char.isDigit).getD false then
    number s < 0x80000000 && number s % 256 != 0
  else ["on", "yes", "true"].contains (String.ofList (s.toList.map Char.toLower))

/-- Whether an option is on. The first option of a name counts. -/
def isOn (u : Uri) (name : String) : Bool :=
  ((u.options.lookup name).map saysYes).getD false

end Uri

end RecentLaunches
