/-
Quoted text in a settings file: between double quotes with escapes or between apostrophes as it
stands, on one line or, between three quotes of a kind, over several. Lines end in a line feed here.
-/
namespace RecentLaunches.Toml

/-! ## Characters -/

/-- Whether a character is a blank inside a line. -/
def isSpace (c : Char) : Bool :=
  c = ' ' || c = '\t'

/-- Whether a character may stand in text or in a comment as it is: no control character but the
tabulator. -/
def isPlain (c : Char) : Bool :=
  c = '\t' || (32 ≤ c.toNat && c.toNat ≠ 127)

/-- The value of a hexadecimal digit of either case. -/
def hexDigit? (c : Char) : Option Nat :=
  let n := c.toNat
  if 48 ≤ n ∧ n ≤ 57 then some (n - 48)
  else if 97 ≤ n ∧ n ≤ 102 then some (n - 87)
  else if 65 ≤ n ∧ n ≤ 70 then some (n - 55)
  else none

/-- The character whose code some hexadecimal digits write. -/
def coded? (digits : List Char) : Option Char := do
  let n ← digits.foldlM (fun n c => (hexDigit? c).map (n * 16 + ·)) 0
  if n.isValidChar then return Char.ofNat n else none

/-- The character of an escape of one letter. -/
def lettered? (c : Char) : Option Char :=
  if c = '"' ∨ c = '\\' then some c
  else if c = 'b' then some '\x08'
  else if c = 't' then some '\t'
  else if c = 'n' then some '\n'
  else if c = 'f' then some '\x0c'
  else if c = 'r' then some '\r'
  else none

/-! ## Escapes -/

/-- Where one is in an escaped line end: outside, before it or after it. -/
inductive Gap
  | outside
  | before
  | after
  deriving DecidableEq, Repr

/-- Text with its escapes resolved. A backslash at the end of a line takes the line end with it, and
all white space up to the next character. -/
def unescape : Gap → List Char → Option (List Char)
  | .before, [] => none
  | _, [] => some []
  | gap, c :: r =>
    if gap ≠ .outside && isSpace c then unescape gap r
    else if gap ≠ .outside && c = '\n' then unescape .after r
    else if gap = .before then none
    else if c ≠ '\\' then (unescape .outside r).map (c :: ·)
    else
      match r with
      | 'u' :: a :: b :: c :: d :: r => do
        return (← coded? [a, b, c, d]) :: (← unescape .outside r)
      | 'U' :: a :: b :: c :: d :: e :: f :: g :: h :: r => do
        return (← coded? [a, b, c, d, e, f, g, h]) :: (← unescape .outside r)
      | e :: r =>
        if isSpace e then unescape .before r
        else if e = '\n' then unescape .after r
        else do return (← lettered? e) :: (← unescape .outside r)
      | [] => none

/-! ## Between quotes -/

/-- What stands before the closing quote, and what follows it. A character after a backslash does
not close the text where escapes are known. -/
def upTo (quote : Char) (escapes : Bool) : List Char → Option (List Char × List Char)
  | [] => none
  | c :: r =>
    if c = quote then some ([], r)
    else if escapes && c = '\\' then
      match r with
      | d :: r => if isPlain d then (upTo quote escapes r).map fun p => (c :: d :: p.1, p.2) else none
      | [] => none
    else if isPlain c then (upTo quote escapes r).map fun p => (c :: p.1, p.2)
    else none

/-- What stands before three closing quotes, and what follows them. Up to two more quotes right
before the closing ones belong to the text. -/
def upToThree (quote : Char) (escapes : Bool) : List Char → Option (List Char × List Char)
  | [] => none
  | c :: r =>
    if c = quote then
      if [quote, quote, quote, quote].isPrefixOf r then some ([quote, quote], r.drop 4)
      else if [quote, quote, quote].isPrefixOf r then some ([quote], r.drop 3)
      else if [quote, quote].isPrefixOf r then some ([], r.drop 2)
      else (upToThree quote escapes r).map fun p => (c :: p.1, p.2)
    else if escapes && c = '\\' then
      match r with
      | d :: r =>
        if isPlain d || d = '\n' then (upToThree quote escapes r).map fun p => (c :: d :: p.1, p.2)
        else none
      | [] => none
    else if isPlain c || c = '\n' then (upToThree quote escapes r).map fun p => (c :: p.1, p.2)
    else none

/-- Text on one line. -/
def line (s : List Char) : Option (List Char × List Char) :=
  match s with
  | '"' :: r => do
    let (t, r) ← upTo '"' true r
    return (← unescape .outside t, r)
  | '\'' :: r => upTo '\'' false r
  | _ => none

/-- The text without a line end at its start. -/
def dropLineEnd (s : List Char) : List Char :=
  match s with
  | '\n' :: r => r
  | _ => s

/-- Text on one line or over several. -/
def quoted (s : List Char) : Option (List Char × List Char) :=
  match s with
  | '"' :: '"' :: '"' :: r => do
    let (t, r) ← upToThree '"' true (dropLineEnd r)
    return (← unescape .outside t, r)
  | '\'' :: '\'' :: '\'' :: r => upToThree '\'' false (dropLineEnd r)
  | _ => line s

end RecentLaunches.Toml
