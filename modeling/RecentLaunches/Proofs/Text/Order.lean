/-
The order of texts and of their bytes. Beginnings of one length compare before what follows them. The bytes of a
character begin those of no other one and grow with its code point, so that the bytes of two texts compare as the
texts do, character by character.
-/
import Mathlib.Tactic

namespace RecentLaunches.Text

/-- The bytes of a text in UTF-8. -/
def octets (s : String) : List UInt8 :=
  s.toUTF8.data.toList

theorem octets_eq (s : String) : octets s = s.toList.flatMap String.utf8EncodeChar := by
  unfold octets
  rw [String.toUTF8_eq_toByteArray, ← String.utf8Encode_toList]
  exact List.toList_data_toByteArray ..

theorem append_lt_append_iff {α : Type} [LT α] {a b r s : List α} (h : a.length = b.length) :
    a ++ r < b ++ s ↔ a < b ∨ (a = b ∧ r < s) := by
  induction a generalizing b with
  | nil =>
    rw [List.eq_nil_of_length_eq_zero h.symm]
    simp
  | cons x a ih =>
    obtain ⟨y, b, rfl⟩ := List.exists_cons_of_length_pos (h ▸ Nat.succ_pos _ : 0 < b.length)
    rw [List.cons_append, List.cons_append, List.cons_lt_cons_iff, List.cons_lt_cons_iff,
      ih (Nat.succ.inj h), List.cons.injEq]
    tauto

/-! ## Bytes of characters -/

theorem utf8EncodeChar_ne_nil (c : Char) : String.utf8EncodeChar c ≠ [] := by
  unfold String.utf8EncodeChar
  simp only
  split_ifs <;> simp

/-- The bytes of a smaller character are less, whatever follows. -/
theorem utf8EncodeChar_append_lt {c d : Char} (h : c < d) (r s : List UInt8) :
    String.utf8EncodeChar c ++ r < String.utf8EncodeChar d ++ s := by
  have hlt : c.val.toNat < d.val.toNat := UInt32.lt_iff_toNat_lt.1 (Char.lt_def.1 h)
  have hbound : d.val.toNat < 0x110000 := by
    have hvalid : d.val.toNat.isValidChar := d.valid
    unfold Nat.isValidChar at hvalid
    omega
  unfold String.utf8EncodeChar
  simp only
  generalize c.val.toNat = v at hlt
  generalize d.val.toNat = w at hlt hbound
  split_ifs <;>
    simp (disch := omega) only [List.cons_append, List.nil_append, List.cons_lt_cons_iff, UInt8.lt_iff_toNat_lt,
      ← UInt8.toNat_inj, UInt8.toNat_ofNat', Nat.mod_eq_of_lt] <;>
    omega

/-! ## Bytes of texts -/

theorem flatMap_utf8EncodeChar_lt_iff {a b : List Char} :
    a.flatMap String.utf8EncodeChar < b.flatMap String.utf8EncodeChar ↔ a < b := by
  have hempty : ∀ (c : Char) (l : List Char), [] < (c :: l).flatMap String.utf8EncodeChar := by
    intro c l
    obtain ⟨x, xs, hx⟩ := List.exists_cons_of_ne_nil (utf8EncodeChar_ne_nil c)
    rw [List.flatMap_cons, hx]
    exact List.nil_lt_cons ..
  induction a generalizing b with
  | nil =>
    cases b with
    | nil => exact iff_of_false (List.lt_irrefl _) (List.lt_irrefl _)
    | cons d b => exact iff_of_true (hempty d b) (List.nil_lt_cons ..)
  | cons c a ih =>
    cases b with
    | nil => exact iff_of_false (List.not_lt_nil _) (List.not_lt_nil _)
    | cons d b =>
      rw [List.flatMap_cons, List.flatMap_cons, List.cons_lt_cons_iff]
      rcases Std.lt_trichotomy c d with h | rfl | h
      · exact iff_of_true (utf8EncodeChar_append_lt h _ _) (.inl h)
      · simp [append_lt_append_iff, ih]
      · refine iff_of_false (List.lt_asymm (utf8EncodeChar_append_lt h _ _)) ?_
        rintro (h' | ⟨rfl, -⟩)
        · exact Char.lt_irrefl c (Char.lt_trans h' h)
        · exact Char.lt_irrefl c h

/-- Texts are in the order of their bytes. -/
theorem octets_lt_octets_iff {s t : String} : octets s < octets t ↔ s < t := by
  rw [octets_eq, octets_eq, flatMap_utf8EncodeChar_lt_iff, String.lt_iff]

end RecentLaunches.Text
