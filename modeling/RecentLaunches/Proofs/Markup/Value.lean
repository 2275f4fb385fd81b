/-
Attribute values are read back as they were written: a written value holds none of the characters
that end a value or a tag, and taking its references apart gives the text it was written for, whatever
the text is (quotes, angle brackets, text that looks like a reference, the character NUL).
-/
import RecentLaunches.Markup.Entity
import Mathlib.Tactic

namespace RecentLaunches.Markup

/-! ## What a written value is free of -/

/-- A character is written without markup: none of its characters ends a value or a tag. -/
theorem not_mem_escapeChar {d : Char} (hd : d = '<' ∨ d = '>' ∨ d = '"' ∨ d = '\'') (c : Char) :
    d ∉ escapeChar c := by
  intro h
  unfold escapeChar at h
  split_ifs at h with h1 h2 h3 h4 h5
  -- the five references are fixed texts; any other character stands for itself
  any_goals
    revert h
    rcases hd with rfl | rfl | rfl | rfl <;> decide
  rcases List.mem_singleton.1 h with rfl
  rcases hd with rfl | rfl | rfl | rfl <;> contradiction

theorem not_mem_escape {d : Char} (hd : d = '<' ∨ d = '>' ∨ d = '"' ∨ d = '\'') (cs : List Char) :
    d ∉ escape cs := by
  intro h
  obtain ⟨c, -, hc⟩ := List.mem_flatMap.1 h
  exact not_mem_escapeChar hd c hc

/-! ## Reading it back -/

theorem unescapeFrom_cons (total : Nat) {c : Char} (hc : c ≠ '&') (r : List Char) :
    unescapeFrom total (c :: r) = (unescapeFrom total r).map (c :: ·) := by
  rw [unescapeFrom, if_neg hc]
  cases unescapeFrom total r <;> rfl

/-- A reference is read as the character that its name resolves to. -/
theorem unescapeFrom_reference (total : Nat) {name : List Char} {d : Char}
    (hn : ∀ c ∈ name, inName c = true) (hd : ∀ start, resolve start name = .ok d) (r : List Char) :
    unescapeFrom total ('&' :: (name ++ ';' :: r)) = (unescapeFrom total r).map (d :: ·) := by
  have hdrop : (name ++ ';' :: r).dropWhile inName = ';' :: r := by
    rw [List.dropWhile_append_of_pos hn]; rfl
  have htake : (name ++ ';' :: r).takeWhile inName = name := by
    rw [List.takeWhile_append_of_pos hn]
    simp [inName]
  rw [unescapeFrom, if_pos rfl]
  split
  · rename_i rest hr
    rw [hdrop] at hr
    cases hr
    rw [htake, hd]
    cases unescapeFrom total r <;> rfl
  · rename_i h
    exact absurd hdrop (h r)

theorem unescapeFrom_escapeChar (total : Nat) (c : Char) (r : List Char) :
    unescapeFrom total (escapeChar c ++ r) = (unescapeFrom total r).map (c :: ·) := by
  have known : ∀ name d, (∀ x ∈ name, inName x = true) → (∀ start, resolve start name = .ok d) →
      unescapeFrom total (('&' :: name ++ [';']) ++ r) = (unescapeFrom total r).map (d :: ·) := by
    intro name d hn hd
    rw [← unescapeFrom_reference total hn hd r]
    simp
  unfold escapeChar
  split_ifs with h1 h2 h3 h4 h5
  · rw [h1]; exact known ['l', 't'] '<' (List.all_eq_true.1 rfl) fun _ => rfl
  · rw [h2]; exact known ['g', 't'] '>' (List.all_eq_true.1 rfl) fun _ => rfl
  · rw [h3]; exact known ['a', 'm', 'p'] '&' (List.all_eq_true.1 rfl) fun _ => rfl
  · rw [h4]; exact known ['a', 'p', 'o', 's'] '\'' (List.all_eq_true.1 rfl) fun _ => rfl
  · rw [h5]; exact known ['q', 'u', 'o', 't'] '"' (List.all_eq_true.1 rfl) fun _ => rfl
  · exact unescapeFrom_cons total h3 r

theorem unescapeFrom_escape (total : Nat) (cs : List Char) :
    unescapeFrom total (escape cs) = .ok cs := by
  induction cs with
  | nil => rw [escape, List.flatMap_nil, unescapeFrom]
  | cons c cs ih =>
    have h : escape (c :: cs) = escapeChar c ++ escape cs := List.flatMap_cons
    rw [h, unescapeFrom_escapeChar, ih]
    rfl

/-- A written value stands for the text it was written for. -/
theorem unescape_escape (cs : List Char) : unescape (escape cs) = .ok cs :=
  unescapeFrom_escape _ cs

end RecentLaunches.Markup
