/-
Which tags are records of a launch, said of their attributes. No two attributes of a tag have the same key, so that
its fields are the values of the attributes with their keys; and a tag stands for a launch exactly if its attributes
are well formed, every value of them can be read, the memento is not empty, and the mode is the word for one.
-/
import RecentLaunches.Proofs.Document.Meaning

namespace RecentLaunches

/-- A word stands for a mode if it is its name, white space around it and the case of letters aside. -/
theorem Mode.read_eq_ok_iff {word : String} {m : Mode} :
    Mode.read word = .ok m ↔ Text.sameIgnoringCase (Text.trim word.toList) m.name.toList = true := by
  have hlower : m.name.toList.map Char.toLower = m.name.toList := by
    cases m <;> decide
  have hread : Mode.read word = .ok m ↔ ofName? (normal word) = some m := by
    unfold Mode.read
    rcases ofName? (normal word) with _ | m' <;> simp
  rw [hread, ofName?_eq_some, Text.sameIgnoringCase, hlower, beq_iff_eq, normal, ← String.toList_inj,
    String.toList_ofList]

/-! ## Attributes -/

namespace Markup.Attributes

/-- The attributes that are found have keys that were not seen before, and different ones. -/
theorem keys_scanFrom (total : Nat) (seen : List (List Char × Nat)) (s : List Char) :
    (∀ a ∈ (scanFrom total seen s).list, ∀ k ∈ seen, k.1 ≠ a.key) ∧
      ((scanFrom total seen s).list.map (·.key)).Nodup := by
  fun_induction scanFrom total seen s
  case case6 seen _ _ _ _ position key _ _ hnew _ _ _ _ text rest _ _ others ih =>
    obtain ⟨hseen, hnodup⟩ := ih
    have hkey : ∀ k ∈ seen, k.1 ≠ key := by
      intro k hk
      simpa using List.find?_eq_none.1 hnew k hk
    refine ⟨fun a ha k hk => ?_, List.nodup_cons.2 ⟨fun hk => ?_, hnodup⟩⟩
    · rcases List.mem_cons.1 ha with rfl | ha
      · exact hkey k hk
      · exact hseen a ha k (List.mem_cons_of_mem _ hk)
    · obtain ⟨a, ha, hak⟩ := List.mem_map.1 hk
      exact hseen a ha (key, position) List.mem_cons_self hak.symm
  all_goals exact ⟨(fun _ ha => nomatch ha), List.nodup_nil⟩

theorem nodup_keys_ofTag (content : List Char) : ((ofTag content).list.map (·.key)).Nodup :=
  (keys_scanFrom ..).2

end Markup.Attributes

namespace Document

open Markup

variable {content key : List Char} {as : List Attribute} {f g : Fields} {v : String}

/-- The field of a key. -/
def Fields.get (f : Fields) (key : List Char) : Option String :=
  if key = mementoKey then f.memento
  else if key = modeKey then f.mode
  else if key = labelKey then f.label
  else none

/-- Whether a key is that of a field. -/
def IsField (key : List Char) : Prop :=
  key = mementoKey ∨ key = modeKey ∨ key = labelKey

theorem Fields.get_set (hkey : IsField key) (f : Fields) (k : List Char) (v : String) :
    (f.set k v).get key = if k = key then some v else f.get key := by
  have hne : mementoKey ≠ modeKey ∧ mementoKey ≠ labelKey ∧ modeKey ≠ labelKey := by decide
  obtain ⟨h1, h2, h3⟩ := hne
  unfold Fields.set
  rcases hkey with rfl | rfl | rfl <;> unfold Fields.get <;> split_ifs <;> simp_all

/-- The fields with one more attribute, if its value can be read. -/
def addAttribute (f : Fields) (a : Attribute) : Except DocumentFault Fields := do
  let value ← (unescape a.value).mapError .value
  return f.set a.key (String.ofList value)

theorem addAttribute_eq_ok_iff {a : Attribute} :
    addAttribute f a = .ok g ↔ ∃ value, unescape a.value = .ok value ∧ g = f.set a.key (String.ofList value) := by
  unfold addAttribute
  rcases unescape a.value with fault | value
  · exact iff_of_false (fun h => nomatch h) (fun ⟨_, h, _⟩ => nomatch h)
  · constructor
    · intro h
      cases h
      exact ⟨value, rfl, rfl⟩
    · rintro ⟨_, h, rfl⟩
      cases h
      rfl

/-- All attributes are taken in if all their values can be read. -/
theorem exists_foldlM_addAttribute_iff :
    (∃ g, as.foldlM addAttribute f = .ok g) ↔ ∀ a ∈ as, ∃ value, unescape a.value = .ok value := by
  induction as generalizing f with
  | nil => exact iff_of_true ⟨f, rfl⟩ (fun _ h => nomatch h)
  | cons a as ih =>
    rw [List.forall_mem_cons]
    constructor
    · rintro ⟨g, hg⟩
      rw [List.foldlM_cons] at hg
      obtain ⟨f', ha, hg⟩ := bind_eq_ok hg
      obtain ⟨value, hvalue, -⟩ := addAttribute_eq_ok_iff.1 ha
      exact ⟨⟨value, hvalue⟩, ih.1 ⟨g, hg⟩⟩
    · rintro ⟨⟨value, hvalue⟩, hrest⟩
      obtain ⟨g, hg⟩ := ih.2 hrest
      refine ⟨g, ?_⟩
      rw [List.foldlM_cons, addAttribute_eq_ok_iff.2 ⟨value, hvalue, rfl⟩]
      exact hg

/-- What a field holds after some attributes with different keys: the value of the attribute with its key, or what it
held before if there is none. -/
theorem get_foldlM_addAttribute (hkey : IsField key) (hnodup : (as.map (·.key)).Nodup)
    (hg : as.foldlM addAttribute f = .ok g) :
    g.get key = some v ↔ (∃ a ∈ as, a.key = key ∧ unescape a.value = .ok v.toList) ∨
      (key ∉ as.map (·.key) ∧ f.get key = some v) := by
  induction as generalizing f with
  | nil =>
    cases hg
    simp
  | cons a as ih =>
    rw [List.foldlM_cons] at hg
    obtain ⟨f', ha, hg⟩ := bind_eq_ok hg
    obtain ⟨value, hvalue, rfl⟩ := addAttribute_eq_ok_iff.1 ha
    rw [List.map_cons, List.nodup_cons] at hnodup
    rw [ih hnodup.2 hg, Fields.get_set hkey, List.exists_mem_cons_iff, List.map_cons, List.mem_cons, not_or]
    by_cases hak : a.key = key
    · -- no other attribute has the key
      subst hak
      have hnone : ¬∃ b ∈ as, b.key = a.key ∧ unescape b.value = .ok v.toList := by
        rintro ⟨b, hb, hbk, -⟩
        exact hnodup.1 (List.mem_map.2 ⟨b, hb, hbk⟩)
      have hv : String.ofList value = v ↔ value = v.toList := by
        rw [← String.toList_inj, String.toList_ofList]
      simp [hnone, hnodup.1, hvalue, hv]
    · simp [hak, Ne.symm hak]

theorem fieldsOf_eq_ok_iff :
    fieldsOf content = .ok f ↔
      (Attributes.ofTag content).list.foldlM addAttribute {} = .ok f ∧ (Attributes.ofTag content).fault = none := by
  show ((Attributes.ofTag content).list.foldlM addAttribute {} >>= _) = _ ↔ _
  rcases (Attributes.ofTag content).list.foldlM addAttribute {} with x | g <;>
    rcases (Attributes.ofTag content).fault with _ | fault <;> simp [bind, Except.bind]

/-- What the fields of a tag hold. -/
theorem get_fieldsOf (hkey : IsField key) (hf : fieldsOf content = .ok f) :
    f.get key = some v ↔
      ∃ a ∈ (Attributes.ofTag content).list, a.key = key ∧ unescape a.value = .ok v.toList := by
  have hnone : ({} : Fields).get key = none := by
    unfold Fields.get
    split_ifs <;> rfl
  rw [get_foldlM_addAttribute hkey (Attributes.nodup_keys_ofTag content) (fieldsOf_eq_ok_iff.1 hf).1, hnone]
  simp

/-! ## Records -/

/-- A tag that describes a launch. -/
structure IsRecord (content : List Char) : Prop where
  wellFormed : (Attributes.ofTag content).fault = none
  values : ∀ a ∈ (Attributes.ofTag content).list, ∃ value, unescape a.value = .ok value
  memento : ∃ a ∈ (Attributes.ofTag content).list, a.key = mementoKey ∧
    ∃ value, unescape a.value = .ok value ∧ value ≠ []
  mode : ∃ a ∈ (Attributes.ofTag content).list, a.key = modeKey ∧
    ∃ value, unescape a.value = .ok value ∧
      ∃ m : Mode, Text.sameIgnoringCase (Text.trim value) m.name.toList = true

theorem exists_launchOfTag_iff : (∃ e, launchOfTag content = .ok e) ↔ IsRecord content := by
  constructor
  · rintro ⟨e, he⟩
    obtain ⟨f, hf, hmemento, hne, ⟨word, hword, hmode⟩, -⟩ := launchOfTag_eq_ok_iff.1 he
    obtain ⟨hfold, hfault⟩ := fieldsOf_eq_ok_iff.1 hf
    obtain ⟨a, ha, hak, hav⟩ := (get_fieldsOf (.inl rfl) hf).1 hmemento
    obtain ⟨b, hb, hbk, hbv⟩ := (get_fieldsOf (.inr (.inl rfl)) hf).1 hword
    exact ⟨hfault, exists_foldlM_addAttribute_iff.1 ⟨f, hfold⟩,
      ⟨a, ha, hak, _, hav, fun hnil => hne (String.toList_eq_nil_iff.1 hnil)⟩,
      ⟨b, hb, hbk, _, hbv, e.mode, Mode.read_eq_ok_iff.1 hmode⟩⟩
  · rintro ⟨hfault, hvalues, ⟨a, ha, hak, memento, hav, hne⟩, ⟨b, hb, hbk, word, hbv, m, hm⟩⟩
    obtain ⟨f, hfold⟩ := (exists_foldlM_addAttribute_iff (f := {})).2 hvalues
    have hf := fieldsOf_eq_ok_iff.2 ⟨hfold, hfault⟩
    have hmemento : f.memento = some (String.ofList memento) :=
      (get_fieldsOf (.inl rfl) hf).2 ⟨a, ha, hak, by rw [hav, String.toList_ofList]⟩
    have hword : f.mode = some (String.ofList word) :=
      (get_fieldsOf (.inr (.inl rfl)) hf).2 ⟨b, hb, hbk, by rw [hbv, String.toList_ofList]⟩
    refine ⟨⟨String.ofList memento, m, f.label.getD ""⟩, launchOfTag_eq_ok_iff.2
      ⟨f, hf, hmemento, fun he => hne ?_, ⟨_, hword, Mode.read_eq_ok_iff.2 ?_⟩, rfl⟩⟩
    · rw [← String.toList_eq_nil_iff, String.toList_ofList] at he
      exact he
    · rw [String.toList_ofList]
      exact hm

end Document

end RecentLaunches
