/-
Measuring text in bytes and cutting it at marks. Texts are lists of characters; positions are
counted in bytes of UTF-8, as the difference of two sizes.
-/
namespace RecentLaunches.Text

/-- The bytes a text takes in UTF-8. -/
def size : List Char → Nat
  | [] => 0
  | c :: cs => c.utf8Size + size cs

/-- What follows a given start, for a text that has this start. -/
def after : List Char → List Char → Option (List Char)
  | [], s => some s
  | _ :: _, [] => none
  | a :: start, c :: cs => if a = c then after start cs else none

theorem eq_of_after {start s r : List Char} (h : after start s = some r) : s = start ++ r := by
  induction start generalizing s with
  | nil => cases h; rfl
  | cons a start ih =>
    cases s with
    | nil => cases h
    | cons c cs =>
      unfold after at h
      split at h
      · rename_i hac
        rw [hac, ih h]; rfl
      · cases h

theorem after_append (start r : List Char) : after start (start ++ r) = some r := by
  induction start with
  | nil => rfl
  | cons a start ih => simp [after, ih]

/-- The text before and after the first occurrence of a mark. -/
def cut (mark : List Char) : List Char → Option (List Char × List Char)
  | [] => none
  | c :: cs =>
    match after mark (c :: cs) with
    | some rest => some ([], rest)
    | none => (cut mark cs).map fun p => (c :: p.1, p.2)

/-- A cut loses nothing: the pieces and the mark make up the text. -/
theorem eq_of_cut {mark s a b : List Char} (h : cut mark s = some (a, b)) : s = a ++ mark ++ b := by
  induction s generalizing a with
  | nil => simp [cut] at h
  | cons c cs ih =>
    unfold cut at h
    split at h
    · rename_i rest hp
      cases h
      simp [eq_of_after hp]
    · rcases hc : cut mark cs with _ | ⟨a', b'⟩ <;> rw [hc] at h
      · cases h
      · cases h
        simp [ih hc]

/-- What follows the mark is no longer than the text. -/
theorem length_of_cut {mark s a b : List Char} (h : cut mark s = some (a, b)) :
    b.length ≤ s.length := by
  rw [eq_of_cut h]; simp; omega

/-- The parts of a text between the occurrences of a mark, one more than there are of it. -/
def pieces (mark : Char) : List Char → List (List Char)
  | [] => [[]]
  | c :: cs =>
    if c = mark then [] :: pieces mark cs
    else
      match pieces mark cs with
      | [] => [[c]]
      | piece :: rest => (c :: piece) :: rest

theorem pieces_ne_nil (mark : Char) (cs : List Char) : pieces mark cs ≠ [] := by
  cases cs with
  | nil => simp [pieces]
  | cons c cs =>
    by_cases h : c = mark
    · simp [pieces, h]
    · cases hp : pieces mark cs <;> simp [pieces, h, hp]

/-- ASCII letters of either case are the same letter. -/
def sameIgnoringCase (a b : List Char) : Bool :=
  a.map Char.toLower == b.map Char.toLower

end RecentLaunches.Text
