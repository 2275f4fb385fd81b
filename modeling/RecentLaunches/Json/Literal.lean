/-
String literals of JSON, read after their opening quote.
-/
namespace RecentLaunches.Json

/-- The value of four hexadecimal digits of either case. -/
def hex4? (a b c d : Char) : Option Nat :=
  [a, b, c, d].foldlM (fun n x => (digit? x).map (n * 16 + ·)) 0
where
  digit? (c : Char) : Option Nat :=
    let n := c.toNat
    if 48 ≤ n ∧ n ≤ 57 then some (n - 48)
    else if 97 ≤ n ∧ n ≤ 102 then some (n - 87)
    else if 65 ≤ n ∧ n ≤ 70 then some (n - 55)
    else none

/-- The character of an escape of one letter. -/
def escaped? (c : Char) : Option Char :=
  if c = '"' ∨ c = '\\' ∨ c = '/' then some c
  else if c = 'b' then some '\x08'
  else if c = 'f' then some '\x0c'
  else if c = 'n' then some '\n'
  else if c = 'r' then some '\r'
  else if c = 't' then some '\t'
  else none

/-- The number of a `\u` escape after its letter. -/
def readUnit : List Char → Option (Nat × List Char)
  | a :: b :: c :: d :: r => (hex4? a b c d).map fun n => (n, r)
  | _ => none

/-- The character of the second half of a surrogate pair, given the first. -/
def readSecondHalf (first : Nat) (s : List Char) : Option (Char × List Char) :=
  match s with
  | '\\' :: 'u' :: r =>
    match readUnit r with
    | some (n, t) =>
      if 0xdc00 ≤ n ∧ n < 0xe000 then
        some (Char.ofNat (0x10000 + (first - 0xd800) * 0x400 + (n - 0xdc00)), t)
      else none
    | none => none
  | _ => none

/-- The character of an escape after its backslash. The two halves of a surrogate pair have to
follow each other. -/
def readEscape (s : List Char) : Option (Char × List Char) :=
  match s with
  | 'u' :: r =>
    match readUnit r with
    | some (n, t) =>
      if 0xd800 ≤ n ∧ n < 0xdc00 then readSecondHalf n t
      else if 0xdc00 ≤ n ∧ n < 0xe000 then none
      else some (Char.ofNat n, t)
    | none => none
  | c :: r => (escaped? c).map fun d => (d, r)
  | [] => none

theorem length_of_readUnit {s r : List Char} {n : Nat} (h : readUnit s = some (n, r)) :
    r.length < s.length := by
  unfold readUnit at h
  split at h
  · rename_i a b c d r'
    generalize hex4? a b c d = x at h
    cases x with
    | none => cases h
    | some m => cases h; simp only [List.length_cons]; omega
  · cases h

theorem length_of_readSecondHalf {n : Nat} {s r : List Char} {c : Char}
    (h : readSecondHalf n s = some (c, r)) : r.length < s.length := by
  unfold readSecondHalf at h
  split at h
  · split at h
    · rename_i hu
      have := length_of_readUnit hu
      split at h
      · simp only [Option.some.injEq, Prod.mk.injEq] at h
        obtain ⟨-, rfl⟩ := h
        simp only [List.length_cons]; omega
      · cases h
    · cases h
  · cases h

theorem length_of_readEscape {s r : List Char} {c : Char} (h : readEscape s = some (c, r)) :
    r.length < s.length := by
  unfold readEscape at h
  split at h
  · split at h
    · rename_i hu
      have h1 := length_of_readUnit hu
      split at h
      · have h2 := length_of_readSecondHalf h
        simp; omega
      · split at h <;> cases h
        simp; omega
    · cases h
  · rename_i d r' _
    rcases he : escaped? d with _ | e <;> rw [he] at h
    · cases h
    · cases h; simp
  · cases h

/-- The text of a literal and what follows its closing quote. Control characters have to be
escaped. -/
def readLiteral (s : List Char) : Option (List Char × List Char) :=
  match s with
  | [] => none
  | c :: r =>
    if c = '"' then some ([], r)
    else if c = '\\' then
      match he : readEscape r with
      | some (d, t) =>
        have := length_of_readEscape he
        (readLiteral t).map fun p => (d :: p.1, p.2)
      | none => none
    else if c.toNat < 32 then none
    else (readLiteral r).map fun p => (c :: p.1, p.2)
termination_by s.length

/-- A literal takes at least its closing quote. -/
theorem length_of_readLiteral {s t r : List Char} (h : readLiteral s = some (t, r)) :
    r.length < s.length := by
  fun_induction readLiteral s generalizing t with
  | case1 => cases h
  | case2 => cases h; simp
  | case3 r' d t' he hlt _ ih =>
    rcases hl : readLiteral t' with _ | ⟨u, v⟩ <;> rw [hl] at h
    · cases h
    · cases h
      have : v.length < t'.length := ih hl
      simp only [List.length_cons]; omega
  | case4 => cases h
  | case5 => cases h
  | case6 c r' _ _ _ ih =>
    rcases hl : readLiteral r' with _ | ⟨u, v⟩ <;> rw [hl] at h
    · cases h
    · cases h
      have : v.length < r'.length := ih hl
      simp only [List.length_cons]; omega

end RecentLaunches.Json
