/-
Written elements and how they are read: a tag with attributes in double quotes is one piece of markup,
and its attributes are found again with their keys, in their order. Everything is said of any list of
attributes, so that it holds of the elements of a history with the keys that they happen to have.
-/
import RecentLaunches.Document.Printer
import RecentLaunches.Markup.Scan
import RecentLaunches.Proofs.Markup.Value

namespace RecentLaunches.Document

open Markup

/-! ## Names and keys -/

/-- Whether a character may stand in the name of an element or an attribute that is written: it ends
neither a name nor a tag and opens no value. -/
def isPlain (c : Char) : Bool :=
  !isBlank c && c != '=' && c != '"' && c != '\'' && c != '<' && c != '>' && c != '/' && c != '!' && c != '?'

/-- A name that can be written. -/
structure IsName (name : List Char) : Prop where
  ne_nil : name ≠ []
  plain : ∀ c ∈ name, isPlain c = true

/-- Some attributes that can be written: each has a key of its own. -/
structure AreAttributes (as : List (List Char × String)) : Prop where
  keys : ∀ a ∈ as, IsName a.1
  nodup : (as.map (·.1)).Nodup

/-- Attributes as they are written. -/
def attributesText (as : List (List Char × String)) : List Char :=
  as.flatMap fun a => attributeText a.1 a.2

theorem attributesText_cons (a : List Char × String) (as : List (List Char × String)) :
    attributesText (a :: as) = attributeText a.1 a.2 ++ attributesText as :=
  List.flatMap_cons

/-- An attribute from its space to its closing quote. -/
theorem attributeText_append (key : List Char) (value : String) (s : List Char) :
    attributeText key value ++ s = ' ' :: (key ++ '=' :: '"' :: (escape value.toList ++ '"' :: s)) := by
  simp [attributeText]

theorem ne_of_isPlain {c : Char} (h : isPlain c = true) :
    isBlank c = false ∧ c ≠ '=' ∧ c ≠ '"' ∧ c ≠ '\'' ∧ c ≠ '<' ∧ c ≠ '>' ∧ c ≠ '/' ∧ c ≠ '!' ∧ c ≠ '?' := by
  simpa [isPlain, and_assoc] using h

/-! ## Where a written tag ends -/

/-- A text that stands in a tag as a whole: reading the tag from before it goes on behind it. -/
def IsWhole (a : List Char) : Prop :=
  ∀ s, cutTag none (a ++ s) = (cutTag none s).map fun p => (a ++ p.1, p.2)

theorem IsWhole.nil : IsWhole [] := by
  intro s
  rw [List.nil_append]
  cases cutTag none s <;> rfl

theorem IsWhole.append {a b : List Char} (ha : IsWhole a) (hb : IsWhole b) : IsWhole (a ++ b) := by
  intro s
  rw [List.append_assoc, ha, hb]
  cases cutTag none s
  · rfl
  · simp

theorem IsWhole.cons {c : Char} {a : List Char} (hc : c ≠ '>' ∧ c ≠ '"' ∧ c ≠ '\'') (ha : IsWhole a) :
    IsWhole (c :: a) := by
  intro s
  rw [List.cons_append, cutTag]
  simp only [hc.1, hc.2.1, hc.2.2, or_self, if_false]
  rw [ha]
  cases cutTag none s <;> rfl

theorem IsWhole.of_plain {a : List Char} (h : ∀ c ∈ a, isPlain c = true) : IsWhole a := by
  induction a with
  | nil => exact .nil
  | cons c a ih =>
    obtain ⟨-, -, h1, h2, -, h3, -⟩ := ne_of_isPlain (h c (List.mem_cons_self ..))
    exact .cons ⟨h3, h1, h2⟩ (ih fun x hx => h x (List.mem_cons_of_mem _ hx))

/-- Inside a value everything up to the closing quote is passed over. -/
theorem cutTag_value {v : List Char} (hv : '"' ∉ v) (s : List Char) :
    cutTag (some '"') (v ++ '"' :: s) = (cutTag none s).map fun p => (v ++ '"' :: p.1, p.2) := by
  induction v with
  | nil =>
    rw [List.nil_append, cutTag, if_pos rfl]
    rfl
  | cons c v ih =>
    rw [List.mem_cons, not_or] at hv
    rw [List.cons_append, cutTag, if_neg (Ne.symm hv.1), ih hv.2]
    cases cutTag none s <;> rfl

theorem IsWhole.quoted {v : List Char} (hv : '"' ∉ v) : IsWhole ('"' :: (v ++ ['"'])) := by
  intro s
  have h : '"' :: (v ++ ['"']) ++ s = '"' :: (v ++ '"' :: s) := by simp
  rw [h, cutTag, if_neg (by decide), if_pos (.inl rfl), cutTag_value hv]
  cases cutTag none s
  · rfl
  · simp

theorem isWhole_attributesText {as : List (List Char × String)} (h : AreAttributes as) :
    IsWhole (attributesText as) := by
  have one : ∀ a ∈ as, IsWhole (attributeText a.1 a.2) := by
    intro a ha
    have hq := not_mem_escape (.inr (.inr (.inl rfl))) a.2.toList
    have he : attributeText a.1 a.2 = ' ' :: (a.1 ++ '=' :: '"' :: (escape a.2.toList ++ ['"'])) := by
      simpa using attributeText_append a.1 a.2 []
    rw [he]
    exact .cons (by decide) (.append (.of_plain (h.keys a ha).plain) (.cons (by decide) (.quoted hq)))
  clear h
  induction as with
  | nil => exact .nil
  | cons a as ih =>
    rw [attributesText_cons]
    exact .append (one a (List.mem_cons_self ..)) (ih fun x hx => one x (List.mem_cons_of_mem _ hx))

/-- The text of a written tag. -/
def tagText (name : List Char) (as : List (List Char × String)) : List Char :=
  name ++ attributesText as

theorem isWhole_tagText {name : List Char} {as : List (List Char × String)} (hn : IsName name)
    (ha : AreAttributes as) : IsWhole (tagText name as) :=
  .append (.of_plain hn.plain) (isWhole_attributesText ha)

/-- A name tells an opening tag from every other kind of markup. -/
theorem read_eq_readOpening {name : List Char} (hn : IsName name) (s : List Char) :
    Token.read (name ++ s) = readOpening (name ++ s) := by
  obtain ⟨c, n, rfl⟩ := List.exists_cons_of_ne_nil hn.ne_nil
  obtain ⟨-, -, -, -, -, -, hslash, hbang, hask⟩ := ne_of_isPlain (hn.plain c (List.mem_cons_self ..))
  rw [List.cons_append]
  unfold Token.read
  split
  · rename_i h; cases h; exact absurd rfl hbang
  · rename_i h; cases h; exact absurd rfl hask
  · rename_i h; cases h; exact absurd rfl hslash
  · rfl

/-- A whole text behind a name and before a `>` is the rest of the tag. -/
theorem cutTag_of_isWhole {a : List Char} (ha : IsWhole a) (rest : List Char) :
    cutTag none (a ++ '>' :: rest) = some (a, rest) := by
  rw [ha, cutTag, if_pos rfl]
  simp

/-- An element without inner text is read as such. -/
theorem read_leaf {name : List Char} {as : List (List Char × String)} (hn : IsName name)
    (ha : AreAttributes as) (rest : List Char) :
    Token.read (tagText name as ++ '/' :: '>' :: rest) = .ok (.empty (tagText name as), rest) := by
  have hw : IsWhole (tagText name as ++ ['/']) :=
    .append (isWhole_tagText hn ha) (.cons (by decide) .nil)
  have hcut := cutTag_of_isWhole hw rest
  rw [List.append_assoc, List.singleton_append] at hcut
  rw [tagText, List.append_assoc, read_eq_readOpening hn, ← List.append_assoc, ← tagText, readOpening, hcut]
  simp

/-- The tag before the inner text of an element. -/
theorem read_enter {name : List Char} (hn : IsName name) (rest : List Char) :
    Token.read (name ++ '>' :: rest) = .ok (.opening name, rest) := by
  rw [read_eq_readOpening hn, readOpening, cutTag_of_isWhole (.of_plain hn.plain)]
  simp only
  rw [if_neg]
  intro h
  have := ne_of_isPlain (hn.plain '/' (List.mem_of_getLast? h))
  simp at this

/-- The tag behind the inner text of an element. -/
theorem read_leave {name : List Char} (hn : IsName name) (rest : List Char) :
    Token.read ('/' :: (name ++ '>' :: rest)) = .ok (.closing name, rest) := by
  have hblank : ∀ c ∈ name, isBlank c = false := fun c hc => (ne_of_isPlain (hn.plain c hc)).1
  have hname : closingName name = name := by
    unfold closingName Text.trimEndBy
    split
    · rfl
    · obtain ⟨front, last, rfl⟩ := (List.eq_nil_or_concat name).resolve_left hn.ne_nil
      rw [List.concat_eq_append, List.reverse_append]
      simp [hblank last (by simp)]
  show readClosing (name ++ '>' :: rest) = _
  rw [readClosing, cutTag_of_isWhole (.of_plain hn.plain)]
  simp only [hname]

/-! ## The attributes of a written tag -/

/-- One attribute in double quotes is read: a key that was not met before, its `=` and its value. -/
theorem scanFrom_of_attribute {total : Nat} {seen : List (List Char × Nat)} {s r afterKey t text rest : List Char}
    {c : Char} (hs : s.dropWhile isBlank = c :: r)
    (he : Attributes.afterEquals (r.dropWhile (!Attributes.endsKey ·)) = .ok afterKey)
    (hnew : seen.find? (·.1 == c :: r.takeWhile (!Attributes.endsKey ·)) = none)
    (hv : afterKey.dropWhile isBlank = '"' :: t) (hq : Attributes.value '"' t = some (text, rest)) :
    Attributes.scanFrom total seen s =
      let key := c :: r.takeWhile (!Attributes.endsKey ·)
      let others := Attributes.scanFrom total ((key, total - Text.size (c :: r)) :: seen) rest
      { others with list := ⟨key, text⟩ :: others.list } := by
  rw [Attributes.scanFrom]
  split
  · rename_i h; rw [hs] at h; cases h
  rename_i h
  rw [hs] at h
  cases h
  simp only
  split
  · rename_i h; rw [he] at h; cases h
  rename_i h
  rw [he] at h
  cases h
  rw [hnew]
  simp only
  split
  · rename_i h; rw [hv] at h; cases h
  rename_i h
  rw [hv] at h
  cases h
  rw [if_pos (.inl rfl)]
  split
  · rename_i h; rw [hq] at h; cases h
  rename_i h
  rw [hq] at h
  cases h
  rfl

/-- A written attribute comes first among the attributes read, if its key was not met before. -/
theorem scanFrom_attributeText (total : Nat) (seen : List (List Char × Nat)) {key : List Char}
    (hk : IsName key) (hseen : ∀ p ∈ seen, p.1 ≠ key) (value : String) (s : List Char) :
    ∃ position, Attributes.scanFrom total seen (attributeText key value ++ s) =
      let others := Attributes.scanFrom total ((key, position) :: seen) s
      { others with list := ⟨key, escape value.toList⟩ :: others.list } := by
  obtain ⟨c, k, rfl⟩ := List.exists_cons_of_ne_nil hk.ne_nil
  have hplain : ∀ x ∈ c :: k, isBlank x = false ∧ x ≠ '=' := fun x hx =>
    ⟨(ne_of_isPlain (hk.plain x hx)).1, (ne_of_isPlain (hk.plain x hx)).2.1⟩
  have hends : ∀ x ∈ k, (!Attributes.endsKey x) = true := by
    intro x hx
    have := hplain x (List.mem_cons_of_mem _ hx)
    simp [Attributes.endsKey, this.1, this.2]
  have hstart : (attributeText (c :: k) value ++ s).dropWhile isBlank =
      c :: (k ++ '=' :: '"' :: (escape value.toList ++ '"' :: s)) := by
    rw [attributeText_append, List.dropWhile_cons_of_pos (by decide), List.cons_append,
      List.dropWhile_cons_of_neg (by simp [(hplain c (List.mem_cons_self ..)).1])]
  have htake : (k ++ '=' :: '"' :: (escape value.toList ++ '"' :: s)).takeWhile (!Attributes.endsKey ·) = k := by
    rw [List.takeWhile_append_of_pos hends]
    simp [Attributes.endsKey]
  have hdrop : Attributes.afterEquals
      ((k ++ '=' :: '"' :: (escape value.toList ++ '"' :: s)).dropWhile (!Attributes.endsKey ·)) =
      .ok ('"' :: (escape value.toList ++ '"' :: s)) := by
    rw [List.dropWhile_append_of_pos hends]
    rfl
  have hvalue : Attributes.value '"' (escape value.toList ++ '"' :: s) = some (escape value.toList, s) := by
    have hq : ∀ x ∈ escape value.toList, (x != '"') = true := by
      intro x hx
      rw [bne_iff_ne]
      rintro rfl
      exact not_mem_escape (.inr (.inr (.inl rfl))) _ hx
    unfold Attributes.value
    rw [List.dropWhile_append_of_pos hq, List.takeWhile_append_of_pos hq]
    simp
  have hnew : seen.find? (·.1 == c :: k) = none := by
    rw [List.find?_eq_none]
    intro p hp
    simpa using hseen p hp
  have hread : Attributes.scanFrom total seen (attributeText (c :: k) value ++ s) = _ :=
    scanFrom_of_attribute hstart hdrop (by rw [htake]; exact hnew) rfl hvalue
  rw [htake] at hread
  exact ⟨_, hread⟩

/-- The attributes of a written text are read in their order, each with its key and its written value. -/
theorem scanFrom_attributesText (total : Nat) {as : List (List Char × String)} (ha : AreAttributes as) :
    ∀ seen : List (List Char × Nat), (∀ p ∈ seen, p.1 ∉ as.map (·.1)) →
      Attributes.scanFrom total seen (attributesText as) =
        ⟨as.map fun a => ⟨a.1, escape a.2.toList⟩, none⟩ := by
  induction as with
  | nil =>
    intro seen _
    rw [attributesText, List.flatMap_nil, Attributes.scanFrom]
    simp
  | cons a as ih =>
    intro seen hseen
    have hnodup : a.1 ∉ as.map (·.1) ∧ (as.map (·.1)).Nodup := by simpa using ha.nodup
    obtain ⟨position, h⟩ := scanFrom_attributeText total seen (ha.keys a (List.mem_cons_self ..))
      (fun p hp e => hseen p hp (by simp [e])) a.2 (attributesText as)
    rw [attributesText_cons, h,
      ih ⟨fun x hx => ha.keys x (List.mem_cons_of_mem _ hx), hnodup.2⟩ ((a.1, position) :: seen) ?_]
    · simp
    · intro p hp
      rcases List.mem_cons.1 hp with rfl | hp
      · exact hnodup.1
      · intro h
        exact hseen p hp (List.mem_cons_of_mem _ h)

/-- The name of a written tag is found again. -/
theorem dropWhile_tagText {name : List Char} (hn : IsName name) (as : List (List Char × String)) :
    (tagText name as).dropWhile (!isBlank ·) = attributesText as ∧ nameOf (tagText name as) = name := by
  have hplain : ∀ x ∈ name, (!isBlank x) = true := fun x hx => by
    simp [(ne_of_isPlain (hn.plain x hx)).1]
  unfold nameOf tagText
  rw [List.dropWhile_append_of_pos hplain, List.takeWhile_append_of_pos hplain]
  cases as with
  | nil => simp [attributesText]
  | cons a as => simp [attributesText_cons, attributeText, isBlank]

/-- The attributes of a written tag. -/
theorem ofTag_tagText {name : List Char} {as : List (List Char × String)} (hn : IsName name)
    (ha : AreAttributes as) :
    Attributes.ofTag (tagText name as) = ⟨as.map fun a => ⟨a.1, escape a.2.toList⟩, none⟩ := by
  unfold Attributes.ofTag
  rw [(dropWhile_tagText hn as).1]
  exact scanFrom_attributesText _ ha [] (by simp)

end RecentLaunches.Document
