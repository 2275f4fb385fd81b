/-
Text as it is shown inside a message: between double quotes, with the quote, the backslash and
every character that would not be seen by itself written as an escape.
-/
import RecentLaunches.Text.Unprintable
import RecentLaunches.Text.Combining

namespace RecentLaunches.Text

/-- A number in base sixteen, lowercase, without leading zeros. -/
def hex (n : Nat) : List Char :=
  Nat.toDigits 16 n

/-- A character as it is shown between double quotes. -/
def quoteChar (c : Char) : List Char :=
  if c = '\x00' then ['\\', '0']
  else if c = '\t' then ['\\', 't']
  else if c = '\r' then ['\\', 'r']
  else if c = '\n' then ['\\', 'n']
  else if c = '"' then ['\\', '"']
  else if c = '\\' then ['\\', '\\']
  else if isCombining c || isUnprintable c then ['\\', 'u', '\x7b'] ++ hex c.toNat ++ ['\x7d']
  else [c]

/-- A text as it is shown in a message. -/
def quoted (s : String) : String :=
  String.ofList ('"' :: s.toList.flatMap quoteChar ++ ['"'])

end RecentLaunches.Text
