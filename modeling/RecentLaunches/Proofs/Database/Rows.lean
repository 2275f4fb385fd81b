/-
Rows that come back. What is stored of a configuration is read as that configuration: its modes, its flags,
and the canonical form of its time as long as the year is one of four digits.
-/
import RecentLaunches.Proofs.Database.Lookup
import RecentLaunches.Proofs.Timestamp.Stored

namespace RecentLaunches

/-! ## Modes -/

namespace StoredModes

theorem readLiteral_name (m : Mode) (r : List Char) :
    Json.readLiteral (m.name.toList ++ '"' :: r) = some (m.name.toList, r) := by
  cases m <;> simp [Mode.name, Json.readLiteral]

theorem readWord_word (m : Mode) (r : List Char) : readWord (word m ++ r) = some (m, skip r) := by
  have hafter : Text.after ['"'] (word m ++ r) = some (m.name.toList ++ '"' :: r) := by
    have htext : word m ++ r = ['"'] ++ (m.name.toList ++ '"' :: r) := by
      simp [word]
    rw [htext, Text.after_append]
  unfold readWord
  rw [hafter]
  simp only [Option.bind_eq_bind, Option.bind_some, readLiteral_name, String.ofList_toList, Mode.ofName?_name]
  rfl

theorem readMode_word (m : Mode) (r : List Char) : readMode (word m ++ r) = some (m, skip r) := by
  have hno : expect ['\x7b'] (word m ++ r) = none := rfl
  unfold readMode
  rw [hno]
  exact readWord_word m r

theorem readItems_of_readMode {s r : List Char} {m : Mode} (h : readMode s = some (m, r)) :
    readItems s =
      match expect [','] r with
      | some t => (readItems t).map fun p => (m :: p.1, p.2)
      | none => (expect [']'] r).map fun t => ([m], t) := by
  rw [readItems]
  split
  · rename_i hn
    rw [h] at hn
    cases hn
  · rename_i m' r' hm
    rw [h] at hm
    cases hm
    split <;> rename_i hc <;> simp only [hc]

/-- What is stored of some modes behind the opening bracket. -/
def items (ms : List Mode) : List Char :=
  [','].intercalate (ms.map word) ++ [']']

theorem items_singleton (m : Mode) : items [m] = word m ++ [']'] := by
  simp [items, List.intercalate]

theorem items_cons (m n : Mode) (ms : List Mode) :
    items (m :: n :: ms) = word m ++ ',' :: items (n :: ms) := by
  simp [items, List.intercalate]

/-- Modes begin with a quote, which is no blank. -/
theorem exists_items (m : Mode) (ms : List Mode) : ∃ r, items (m :: ms) = '"' :: r := by
  cases ms with
  | nil => exact ⟨_, items_singleton m⟩
  | cons n ms => exact ⟨_, items_cons m n ms⟩

/-- The words of an array are read to its end. -/
theorem readItems_items (m : Mode) (ms : List Mode) : readItems (items (m :: ms)) = some (m :: ms, []) := by
  induction ms generalizing m with
  | nil =>
    rw [items_singleton, readItems_of_readMode (readMode_word m _)]
    rfl
  | cons n ms ih =>
    have hcomma : expect [','] (skip (',' :: items (n :: ms))) = some (items (n :: ms)) := by
      obtain ⟨r, hr⟩ := exists_items n ms
      rw [hr]
      rfl
    rw [items_cons, readItems_of_readMode (readMode_word m _), hcomma]
    simp only [ih]
    rfl

/-- Modes are read as they were stored. -/
theorem decode_encode (ms : List Mode) : decode (encode ms) = some ms := by
  unfold decode encode
  rw [String.toList_ofList]
  show (expect ['['] ('[' :: items ms)).bind _ = some ms
  cases ms with
  | nil => rfl
  | cons m ms =>
    obtain ⟨r, hr⟩ := exists_items m ms
    have hstart : expect ['['] ('[' :: items (m :: ms)) = some (items (m :: ms)) := by
      rw [hr]
      rfl
    have hno : expect [']'] (items (m :: ms)) = none := by
      rw [hr]
      rfl
    rw [hstart, Option.bind_some]
    simp only [hno, readItems_items]
    rfl

end StoredModes

/-! ## Configurations -/

namespace Configuration

variable {c : Configuration}

/-- The configuration that is stored like a configuration and that is read. -/
def canonical (c : Configuration) : Configuration :=
  { c with createdAt := c.createdAt.canonical }

theorem canonical_eq_self_iff : c.canonical = c ↔ c.createdAt.IsCanonical := by
  rw [← Timestamp.canonical_eq_self_iff]
  exact ⟨fun h => congrArg createdAt h, fun h => congrArg (fun t => { c with createdAt := t }) h⟩

end Configuration

/-! ## Rows -/

namespace Row

variable {c : Configuration}

theorem ofConfiguration_canonical (c : Configuration) : ofConfiguration c.canonical = ofConfiguration c := by
  unfold ofConfiguration Configuration.canonical
  simp only [Timestamp.stored_canonical]

/-- What is stored of a configuration that was made in a year of four digits is read as its canonical form. -/
theorem decode_ofConfiguration (hy : 0 ≤ c.createdAt.date.year) (hy' : c.createdAt.date.year ≤ 9999) :
    (ofConfiguration c).decode = .ok c.canonical :=
  decode_eq_ok_iff.2 ⟨c.modes, c.isPrivate, c.isTransient, c.createdAt.canonical, StoredModes.decode_encode c.modes,
    Cell.flag_ofBool _, Cell.flag_ofBool _, Timestamp.readStored_stored hy hy', rfl⟩

/-- Nothing but the time keeps a saved configuration from being read. -/
theorem decode_ofConfiguration_of_not (h : ¬ c.createdAt.HasFourDigitYear) :
    (ofConfiguration c).decode = .error (.conversion 0 .text (.time c.createdAt.stored)) := by
  unfold decode ofConfiguration converted flagged
  simp only [StoredModes.decode_encode, Cell.flag_ofBool, Timestamp.readStored_stored_of_not h]
  rfl

end Row

end RecentLaunches
