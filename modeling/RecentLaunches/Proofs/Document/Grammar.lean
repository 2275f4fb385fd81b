/-
Which texts are restored. The conditions are those of a grammar, said of the events of a text by how many elements are
open at each of them: one element at the outermost level, with the right name and no text beside it, every element
closed in the end, and a record wherever an element directly under the root has the name of one. Reading fails as soon
as one of them cannot be met any more, so that a text which meets them all is restored and any other is malformed.
-/
import RecentLaunches.Proofs.Document.Records

namespace RecentLaunches.Document

open Markup

variable {p q : Progress} {e : Event} {es : List Event} {tag : List Char} {rooted : Bool} {n : Nat}

/-! ## Levels -/

/-- How many elements are open after an event. -/
def levelAfter (n : Nat) : Event → Nat
  | .enter _ => n + 1
  | .leave => n - 1
  | _ => n

/-- Events with the number of elements that are open before each of them. -/
def leveled (n : Nat) : List Event → List (Nat × Event)
  | [] => []
  | e :: es => (n, e) :: leveled (levelAfter n e) es

/-- The tag of an element that begins with an event. -/
def tag? : Event → Option (List Char)
  | .enter content => some content
  | .leaf content => some content
  | _ => none

/-- The tags of the elements at a level. -/
def tagsAt (level : Nat) (es : List (Nat × Event)) : List (List Char) :=
  es.filterMap fun (n, e) => if n = level then tag? e else none

/-- An element that may stand directly under the root: one with the name of a record has to be one. -/
def IsChild (tag : List Char) : Prop :=
  isNamed launchName tag = true ∨ isNamed latestName tag = true → IsRecord tag

/-- The texts that are restored. -/
structure IsGrammatical (document : String) : Prop where
  wellFormed : (Scan.ofDocument document.toList).fault = none
  root : ∃ root, tagsAt 0 (leveled 0 (Scan.ofDocument document.toList).events) = [root] ∧
    isNamed rootName root = true
  /-- Neither text that is not blank nor character data. -/
  noText : (0, .text) ∉ leveled 0 (Scan.ofDocument document.toList).events
  closed : (Scan.ofDocument document.toList).events.foldl levelAfter 0 = 0
  records : ∀ tag ∈ tagsAt 1 (leveled 0 (Scan.ofDocument document.toList).events), IsChild tag

/-! ## One event -/

/-- What an event must be like, by whether the root was met and how many elements are open. -/
def Admits (rooted : Bool) (n : Nat) (e : Event) : Prop :=
  match n with
  | 0 => e ≠ .text ∧ ∀ tag, tag? e = some tag → rooted = false ∧ isNamed rootName tag = true
  | 1 => ∀ tag, tag? e = some tag → IsChild tag
  | _ => True

/-- Whether the root was met after an event. -/
def rootedAfter (rooted : Bool) (n : Nat) (e : Event) : Bool :=
  rooted || (n == 0 && (tag? e).isSome)

theorem exists_child_iff (h : History) (tag : List Char) : (∃ h', child h tag = .ok h') ↔ IsChild tag := by
  have hrecord : (∃ r, recordOf tag = .ok r) ↔ IsChild tag := by
    unfold recordOf IsChild
    rw [← exists_launchOfTag_iff]
    rcases launchOfTag tag with x | e <;> split_ifs <;> simp_all [Except.map]
  rw [← hrecord, child_eq]
  rcases recordOf tag with x | r <;> simp [Except.map]

/-- An element is taken in where it may stand. Only the root changes what may follow. -/
theorem exists_element_iff {P : Bool → Nat → Prop} (ht : tag? e = some tag) :
    (∃ q, element p tag = .ok q ∧ P q.rooted q.depth) ↔
      Admits p.rooted p.depth e ∧ P (rootedAfter p.rooted p.depth e) p.depth := by
  have htext : e ≠ .text := by
    rintro rfl
    cases ht
  obtain ⟨depth, rooted, h⟩ := p
  rcases depth with _ | _ | depth
  · rcases rooted with _ | _
    · by_cases hroot : isNamed rootName tag = true <;> simp [element, Admits, rootedAfter, ht, htext, hroot]
    · simp [element, Admits, rootedAfter, ht]
  · have hchild := exists_child_iff h tag
    simp only [element, Admits, rootedAfter, ht]
    rcases hc : child h tag with x | h' <;> simp [hc, bind, Except.bind, pure, Except.pure] at hchild ⊢ <;>
      simp [hchild]
  · simp [element, Admits, rootedAfter]

theorem admits_of_tag?_eq_none (rooted : Bool) (n : Nat) (ht : tag? e = none) : Admits rooted n e ↔ (n = 0 → e ≠ .text) := by
  rcases n with _ | _ | n <;> simp [Admits, ht]

/-- The step lemma: an event is taken in exactly if it is admitted, and what may follow depends on the levels alone. -/
theorem exists_step_iff {P : Bool → Nat → Prop} :
    (∃ q, step p e = .ok q ∧ P q.rooted q.depth) ↔
      Admits p.rooted p.depth e ∧ P (rootedAfter p.rooted p.depth e) (levelAfter p.depth e) := by
  have hplain : tag? e = none → _ := admits_of_tag?_eq_none p.rooted p.depth
  cases e with
  | leaf tag => exact exists_element_iff rfl
  | enter tag =>
    refine Iff.trans ?_ (exists_element_iff (P := fun rooted n => P rooted (n + 1)) rfl)
    simp only [step]
    rcases element p tag with x | q <;> simp [bind, Except.bind, pure, Except.pure]
  | leave =>
    rw [hplain rfl]
    simp [step, rootedAfter, levelAfter, tag?]
  | text =>
    rw [hplain rfl]
    by_cases hd : p.depth = 0 <;> simp [step, hd, rootedAfter, levelAfter, tag?]
  | aside =>
    rw [hplain rfl]
    simp [step, rootedAfter, levelAfter, tag?]

/-! ## The events that are left -/

/-- What the rest of a document must be like, by whether the root was met and how many elements are open. -/
@[mk_iff] structure Completes (rooted : Bool) (n : Nat) (es : List Event) : Prop where
  root : if rooted then tagsAt 0 (leveled n es) = []
    else ∃ root, tagsAt 0 (leveled n es) = [root] ∧ isNamed rootName root = true
  noText : (0, .text) ∉ leveled n es
  closed : es.foldl levelAfter n = 0
  records : ∀ tag ∈ tagsAt 1 (leveled n es), IsChild tag

theorem completes_nil_iff : Completes rooted n [] ↔ rooted = true ∧ n = 0 := by
  constructor
  · rintro ⟨hroot, -, hclosed, -⟩
    refine ⟨?_, hclosed⟩
    by_contra hr
    rw [if_neg hr] at hroot
    obtain ⟨root, hroot, -⟩ := hroot
    cases hroot
  · rintro ⟨rfl, rfl⟩
    exact ⟨rfl, List.not_mem_nil, rfl, (fun _ h => nomatch h)⟩

theorem tagsAt_leveled_cons (level n : Nat) (e : Event) (es : List Event) :
    tagsAt level (leveled n (e :: es)) =
      (if n = level then tag? e else none).toList ++ tagsAt level (leveled (levelAfter n e) es) := by
  unfold tagsAt
  rw [leveled, List.filterMap_cons]
  simp only
  rcases (if n = level then tag? e else none) with _ | tag <;> rfl

theorem completes_cons_iff :
    Completes rooted n (e :: es) ↔
      Admits rooted n e ∧ Completes (rootedAfter rooted n e) (levelAfter n e) es := by
  have htext : (0, Event.text) ∉ leveled n (e :: es) ↔
      ¬(n = 0 ∧ e = .text) ∧ (0, Event.text) ∉ leveled (levelAfter n e) es := by
    rw [leveled, List.mem_cons, not_or, Prod.mk.injEq, eq_comm, @eq_comm _ Event.text]
  rw [completes_iff, completes_iff, htext, tagsAt_leveled_cons, tagsAt_leveled_cons, List.foldl_cons]
  -- a tag counts at the outermost level, where it uses up the root, and directly under the root
  rcases n with _ | _ | n
  · rcases ht : tag? e with _ | tag <;> cases rooted <;> simp [Admits, rootedAfter, ht] <;> tauto
  · rcases ht : tag? e with _ | tag
    · simp [Admits, rootedAfter, ht]
    · simp [Admits, rootedAfter, ht]
      tauto
  · simp [Admits, rootedAfter]

/-- The run lemma, by induction on the events: what is left is read to its end exactly if it completes a document. -/
theorem exists_foldlM_step_iff :
    (∃ q, es.foldlM step p = .ok q ∧ q.rooted = true ∧ q.depth = 0) ↔ Completes p.rooted p.depth es := by
  induction es generalizing p with
  | nil =>
    rw [completes_nil_iff]
    constructor
    · rintro ⟨q, hq, hend⟩
      cases hq
      exact hend
    · exact fun hend => ⟨p, rfl, hend⟩
  | cons e es ih =>
    rw [completes_cons_iff, ← exists_step_iff (P := fun rooted n => Completes rooted n es)]
    constructor
    · rintro ⟨q, hq, hend⟩
      obtain ⟨p', hp', hrest⟩ := foldlM_cons_ok hq
      exact ⟨p', hp', ih.1 ⟨q, hrest, hend⟩⟩
    · rintro ⟨p', hp', hrest⟩
      obtain ⟨q, hq, hend⟩ := ih.2 hrest
      refine ⟨q, ?_, hend⟩
      rw [List.foldlM_cons, hp']
      exact hq

/-! ## Whole texts -/

theorem exists_read_iff {document : String} : (∃ h, read document = .ok h) ↔ IsGrammatical document := by
  have hmeaning : (∃ h, read document = .ok h) ↔ (Scan.ofDocument document.toList).fault = none ∧
      ∃ q, (Scan.ofDocument document.toList).events.foldlM step {} = .ok q ∧ q.rooted = true ∧ q.depth = 0 := by
    unfold read meaning
    rcases (Scan.ofDocument document.toList).events.foldlM step {} with x | q
    · simp [bind, Except.bind]
    · rcases (Scan.ofDocument document.toList).fault with _ | fault
      · unfold finish
        by_cases hr : q.rooted = true <;> by_cases hd : q.depth = 0 <;> simp [bind, Except.bind, hr, hd]
      · simp [bind, Except.bind]
  rw [hmeaning, exists_foldlM_step_iff]
  constructor
  · rintro ⟨hfault, hroot, htext, hclosed, hrecords⟩
    exact ⟨hfault, hroot, htext, hclosed, hrecords⟩
  · rintro ⟨hfault, hroot, htext, hclosed, hrecords⟩
    exact ⟨hfault, hroot, htext, hclosed, hrecords⟩

/-- Restoring accepts exactly the texts of its grammar. A text is restored if and only if its markup has no fault, it
has exactly one element at the outermost level, with the name of the root, no text outside of it, every element is
closed in the end, and each element directly under the root that is named as a record is one: its attributes are well
formed, all their values can be read, the memento is not empty, and the mode is the word for one. Every other text
is malformed, and no text leads to a breach of the rules. -/
theorem restore_iff_isGrammatical (document : String) :
    ((∃ h, restore document = .restored h) ↔ IsGrammatical document) ∧
    ((∃ fault, restore document = .malformed fault) ↔ ¬IsGrammatical document) ∧
    ∀ v, restore document ≠ .broken v := by
  have hread : (∃ h, restore document = .restored h) ↔ IsGrammatical document := by
    rw [← exists_read_iff]
    exact exists_congr fun h => restore_eq_restored_iff
  refine ⟨hread, ?_, ?_⟩
  · rw [← hread]
    rcases hr : read document with fault | h
    · have hm : restore document = .malformed fault := by
        rw [restore, hr]
      simp [hm]
    · simp [restore_of_read hr]
  · intro v hv
    rcases hr : read document with fault | h
    · rw [restore, hr] at hv
      cases hv
    · rw [restore_of_read hr] at hv
      cases hv

end RecentLaunches.Document
