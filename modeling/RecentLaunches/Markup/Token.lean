/-
The pieces of markup: one token is read from the text after a `<`. What a token is depends on the
characters after the `<` alone; a piece that is not closed, or that starts like one kind and is
none, is a fault. A fault carries the text that is left at the place it is reported for, so that
the place can be counted in bytes of the document.
-/
import RecentLaunches.Text.Blank
import RecentLaunches.Text.Cut

namespace RecentLaunches.Markup

/-- The blanks of markup. -/
def isBlank (c : Char) : Bool :=
  c == ' ' || c == '\t' || c == '\n' || c == '\r'

/-- One piece of markup. Tags keep their text between the angle brackets. -/
inductive Token
  | opening (content : List Char)
  | empty (content : List Char)
  | closing (name : List Char)
  | verbatim
  | comment
  | doctype
  | instruction
  deriving DecidableEq, Repr

/-- Why a piece of markup cannot be read. -/
inductive TokenFault
  | unknown
  | openVerbatim
  | openComment
  | openDoctype
  | namelessDoctype
  | openInstruction
  | openTag
  deriving DecidableEq, Repr

/-- The outcome of reading one piece: the piece and the text after it, or a fault and the text left
at its place. -/
abbrev Reading := Except (TokenFault × List Char) (Token × List Char)

/-- The name of an element: its tag up to the first blank. -/
def nameOf (content : List Char) : List Char :=
  content.takeWhile (!isBlank ·)

/-! ## Where a piece ends -/

/-- The text before and after the first `>` that stands outside quotes. -/
def cutTag (quote : Option Char) : List Char → Option (List Char × List Char)
  | [] => none
  | c :: cs =>
    match quote with
    | some q => (cutTag (if c = q then none else some q) cs).map fun p => (c :: p.1, p.2)
    | none =>
      if c = '>' then some ([], cs)
      else (cutTag (if c = '"' ∨ c = '\'' then some c else none) cs).map fun p => (c :: p.1, p.2)

/-- The text before and after the `>` that closes as many `<` as were opened. -/
def cutBalanced (depth : Nat) : List Char → Option (List Char × List Char)
  | [] => none
  | c :: cs =>
    if c = '<' then (cutBalanced (depth + 1) cs).map fun p => (c :: p.1, p.2)
    else if c = '>' then
      match depth with
      | 0 => some ([], cs)
      | d + 1 => (cutBalanced d cs).map fun p => (c :: p.1, p.2)
    else (cutBalanced depth cs).map fun p => (c :: p.1, p.2)

/-! ## One reader per kind of piece -/

/-- Character data after `<![`, closed by the first `]]>`. -/
def readVerbatim (s : List Char) : Reading :=
  match Text.cut [']', ']', '>'] s with
  | none => .error (.openVerbatim, [])
  | some (inner, rest) =>
    if (Text.after "CDATA[".toList inner).isSome then .ok (.verbatim, rest)
    else .error (.openVerbatim, rest)

/-- A comment after `<!-`. Its first `-` is not part of its end. -/
def readComment : List Char → Reading
  | [] => .error (.openComment, [])
  | c :: s =>
    match Text.cut ['-', '-', '>'] s with
    | none => .error (.openComment, [])
    | some (_, rest) => if c = '-' then .ok (.comment, rest) else .error (.openComment, rest)

/-- A document type after `<!`; the word is read in any case and a name has to follow. -/
def readDoctype (s : List Char) : Reading :=
  match cutBalanced 0 s with
  | none => .error (.openDoctype, [])
  | some (inner, rest) =>
    if !Text.sameIgnoringCase (inner.take 7) "doctype".toList then .error (.openDoctype, rest)
    else if (inner.drop 7).all isBlank then .error (.namelessDoctype, rest)
    else .ok (.doctype, rest)

/-- A processing instruction or declaration after `<`; its first `?` may be that of its end, but a
single `?` is no instruction. -/
def readInstruction (s : List Char) : Reading :=
  match Text.cut ['?', '>'] s with
  | none => .error (.openInstruction, [])
  | some (inner, rest) => if inner.isEmpty then .error (.openInstruction, rest) else .ok (.instruction, rest)

/-- The name in a closing tag. Blanks at its end do not belong to it, unless there is nothing
else. -/
def closingName (content : List Char) : List Char :=
  if content.all isBlank then content else Text.trimEndBy isBlank content

/-- A closing tag after `</`. -/
def readClosing (s : List Char) : Reading :=
  match cutTag none s with
  | none => .error (.openTag, [])
  | some (content, rest) => .ok (.closing (closingName content), rest)

/-- An opening tag after `<`; one that ends in `/` is the whole element. -/
def readOpening (s : List Char) : Reading :=
  match cutTag none s with
  | none => .error (.openTag, [])
  | some (content, rest) =>
    if content.getLast? = some '/' then .ok (.empty content.dropLast, rest)
    else .ok (.opening content, rest)

/-- Reads the piece of markup after a `<`. -/
def Token.read (s : List Char) : Reading :=
  match s with
  | '!' :: r =>
    match r with
    | '[' :: t => readVerbatim t
    | '-' :: t => readComment t
    | 'D' :: _ | 'd' :: _ => readDoctype r
    | _ => .error (.unknown, s)
  | '?' :: _ => readInstruction s
  | '/' :: t => readClosing t
  | _ => readOpening s

/-! ## Every piece takes some text -/

theorem length_of_cutTag {q : Option Char} {s a b : List Char} (h : cutTag q s = some (a, b)) :
    b.length < s.length := by
  induction s generalizing q a with
  | nil => cases h
  | cons c cs ih =>
    unfold cutTag at h
    split at h
    · rcases hc : cutTag (if c = _ then none else some _) cs with _ | ⟨a', b'⟩ <;> rw [hc] at h
      · cases h
      · cases h
        exact Nat.lt_succ_of_lt (ih hc)
    · split at h
      · cases h; simp
      · rcases hc : cutTag (if c = '"' ∨ c = '\'' then some c else none) cs with _ | ⟨a', b'⟩ <;>
          rw [hc] at h
        · cases h
        · cases h
          exact Nat.lt_succ_of_lt (ih hc)

theorem length_of_cutBalanced {d : Nat} {s a b : List Char} (h : cutBalanced d s = some (a, b)) :
    b.length < s.length := by
  induction s generalizing d a with
  | nil => cases h
  | cons c cs ih =>
    have step : ∀ e, (cutBalanced e cs).map (fun p => (c :: p.1, p.2)) = some (a, b) →
        b.length < (c :: cs).length := by
      intro e he
      rcases hc : cutBalanced e cs with _ | ⟨a', b'⟩ <;> rw [hc] at he
      · cases he
      · cases he
        exact Nat.lt_succ_of_lt (ih hc)
    unfold cutBalanced at h
    split at h
    · exact step _ h
    · split at h
      · split at h
        · cases h; simp
        · exact step _ h
      · exact step _ h

/-- What is left after a piece is no longer than what it was read from. -/
theorem Token.length_of_read {s r : List Char} {t : Token} (h : Token.read s = .ok (t, r)) :
    r.length ≤ s.length := by
  -- one statement for each kind of piece, about the text after the characters that tell it
  have verb : ∀ u, readVerbatim u = .ok (t, r) → r.length ≤ u.length := by
    intro u hu
    unfold readVerbatim at hu
    split at hu
    · cases hu
    · rename_i hc
      split at hu <;> cases hu
      exact Text.length_of_cut hc
  have comm : ∀ u, readComment u = .ok (t, r) → r.length ≤ u.length := by
    intro u hu
    unfold readComment at hu
    split at hu
    · cases hu
    · split at hu
      · cases hu
      · rename_i hc
        split at hu <;> cases hu
        have := Text.length_of_cut hc
        simp; omega
  have doct : ∀ u, readDoctype u = .ok (t, r) → r.length ≤ u.length := by
    intro u hu
    unfold readDoctype at hu
    split at hu
    · cases hu
    · rename_i hc
      split at hu
      · cases hu
      · split at hu <;> cases hu
        exact Nat.le_of_lt (length_of_cutBalanced hc)
  have inst : ∀ u, readInstruction u = .ok (t, r) → r.length ≤ u.length := by
    intro u hu
    unfold readInstruction at hu
    split at hu
    · cases hu
    · rename_i hc
      split at hu <;> cases hu
      exact Text.length_of_cut hc
  have clos : ∀ u, readClosing u = .ok (t, r) → r.length ≤ u.length := by
    intro u hu
    unfold readClosing at hu
    split at hu
    · cases hu
    · rename_i hc
      cases hu
      exact Nat.le_of_lt (length_of_cutTag hc)
  have opn : ∀ u, readOpening u = .ok (t, r) → r.length ≤ u.length := by
    intro u hu
    unfold readOpening at hu
    split at hu
    · cases hu
    · rename_i hc
      split at hu <;> cases hu <;> exact Nat.le_of_lt (length_of_cutTag hc)
  -- these characters are the head of `s`
  unfold Token.read at h
  split at h
  · split at h
    · have := verb _ h; simp; omega
    · have := comm _ h; simp; omega
    · have := doct _ h; simp at this ⊢; omega
    · have := doct _ h; simp at this ⊢; omega
    · cases h
  · exact inst _ h
  · have := clos _ h; simp; omega
  · exact opn _ h

end RecentLaunches.Markup
