/-
What a document means. The events of a document that is accepted are those of one root element with asides
around it, and what stands in the root consists of complete pieces (`Pieces`), of which only the outermost
tags matter: those that are records fill the lists and name the latest launch. A list is made of the first
records of different mementos, as many as it can hold, and the last record of a latest launch counts.
-/
import RecentLaunches.Proofs.Document.RoundTrip

namespace RecentLaunches

/-! ## First entries -/

namespace Recent

/-- The first launch of each memento, in their order. -/
def firsts : List Launch → List Launch
  | [] => []
  | e :: l => e :: (firsts l).filter (·.memento ≠ e.memento)

/-- Launches that are added at the end one by one: what counts is the first launch of each memento that the
list does not have, as long as there is room. -/
theorem foldl_append (l : List Launch) {front : Recent} (hlen : front.length ≤ capacity) :
    l.foldl append front = (front ++ (firsts l).filter (·.memento ∉ mementos front)).take capacity := by
  induction l generalizing front with
  | nil => simp [firsts, List.take_of_length_le hlen]
  | cons e l ih =>
    rw [List.foldl_cons, firsts]
    by_cases hm : e.memento ∈ mementos front
    · -- the memento is there: neither this launch nor a later one of it is added
      have hskip : append front e = front := by
        unfold append
        rw [if_pos]
        simp [hm]
      have hrest : ((firsts l).filter (·.memento ≠ e.memento)).filter (·.memento ∉ mementos front) =
          (firsts l).filter (·.memento ∉ mementos front) := by
        rw [List.filter_filter]
        refine List.filter_congr fun x _ => ?_
        by_cases hx : x.memento = e.memento
        · simp [hx, hm]
        · simp [hx]
      rw [hskip, ih hlen, List.filter_cons_of_neg (by simpa using hm), hrest]
    · by_cases hfull : front.length = capacity
      · have hskip : append front e = front := by
          unfold append
          rw [if_pos]
          simp [hfull]
        rw [hskip, ih hlen, List.take_append_of_le_length hfull.ge, List.take_append_of_le_length hfull.ge]
      · have hroom : front.length < capacity := by omega
        have hadd : append front e = front ++ [e] := by
          unfold append
          rw [if_neg]
          simpa [hm] using hroom
        have hrest : ((firsts l).filter (·.memento ≠ e.memento)).filter (·.memento ∉ mementos front) =
            (firsts l).filter (·.memento ∉ mementos (front ++ [e])) := by
          rw [List.filter_filter]
          refine List.filter_congr fun x _ => ?_
          have hx : x.memento ∉ mementos (front ++ [e]) ↔ x.memento ∉ mementos front ∧ x.memento ≠ e.memento := by
            simp [mementos]
          simp [hx]
        rw [hadd, ih (by simpa using hroom), List.filter_cons_of_pos (by simpa using hm), hrest]
        simp

theorem foldl_append_nil (l : List Launch) : l.foldl append [] = (firsts l).take capacity := by
  rw [foldl_append l (Nat.zero_le _), List.nil_append, List.filter_eq_self.2]
  simp [mementos]

end Recent

namespace Document

open Markup

/-! ## Records -/

/-- A record of a document: an entry of a list, or the latest launch. -/
inductive Record
  | entry (launch : Launch)
  | latest (launch : Launch)
  deriving DecidableEq, Repr

/-- The record that a tag is, if it is one. -/
def recordOf (content : List Char) : Except DocumentFault (Option Record) :=
  if isNamed launchName content then (launchOfTag content).map (some ∘ .entry)
  else if isNamed latestName content then (launchOfTag content).map (some ∘ .latest)
  else .ok none

/-- The records among some tags. -/
def recordsOf : List (List Char) → Except DocumentFault (List Record)
  | [] => .ok []
  | content :: tags => do return (← recordOf content).toList ++ (← recordsOf tags)

/-- The launches of a mode among some records. -/
def entriesOf (m : Mode) (records : List Record) : List Launch :=
  records.filterMap fun
    | .entry e => if e.mode = m then some e else none
    | .latest _ => none

/-- The latest launches among some records. -/
def latestsOf (records : List Record) : List Launch :=
  records.filterMap fun
    | .entry _ => none
    | .latest e => some e

/-- The history with one more record. -/
def addRecord (h : History) : Record → History
  | .entry e => addLaunch h e
  | .latest e => { h with latest := some e }

theorem child_eq (h : History) (content : List Char) :
    child h content = (recordOf content).map fun r => r.toList.foldl addRecord h := by
  unfold child recordOf
  split
  · rcases launchOfTag content with x | e <;> rfl
  · split
    · rcases launchOfTag content with x | e <;> rfl
    · rfl

/-- The tags under the root add their records one after the other. -/
theorem foldlM_child (tags : List (List Char)) (h : History) :
    tags.foldlM child h = (recordsOf tags).map fun records => records.foldl addRecord h := by
  induction tags generalizing h with
  | nil => rfl
  | cons content tags ih =>
    rw [List.foldlM_cons, child_eq, recordsOf]
    rcases recordOf content with x | r
    · rfl
    · show tags.foldlM child _ = _
      rw [ih]
      rcases recordsOf tags with x | records
      · rfl
      · exact congrArg Except.ok List.foldl_append.symm

theorem list_addLaunch (h : History) (e : Launch) (m : Mode) :
    (addLaunch h e).list m = if e.mode = m then Recent.append (h.list m) e else h.list m := by
  unfold addLaunch
  rw [History.list_withList]
  split_ifs with h1 h2 h2
  · rw [h1]
  · exact absurd h1.symm h2
  · exact absurd h2.symm h1
  · rfl

theorem list_foldl_addRecord (records : List Record) (h : History) (m : Mode) :
    (records.foldl addRecord h).list m = (entriesOf m records).foldl Recent.append (h.list m) := by
  induction records generalizing h with
  | nil => rfl
  | cons r records ih =>
    rw [List.foldl_cons, ih]
    cases r with
    | latest e => cases m <;> rfl
    | entry e =>
      show List.foldl _ ((addLaunch h e).list m) _ = _
      rw [list_addLaunch]
      by_cases he : e.mode = m <;> simp [entriesOf, he]

theorem latest_foldl_addRecord (records : List Record) (h : History) :
    (records.foldl addRecord h).latest = (latestsOf records).getLast?.or h.latest := by
  induction records generalizing h with
  | nil => rfl
  | cons r records ih =>
    rw [List.foldl_cons, ih]
    cases r with
    | entry e =>
      show _ = (latestsOf records).getLast?.or h.latest
      rw [addRecord, addLaunch, History.latest_withList]
    | latest e =>
      show _ = (e :: latestsOf records).getLast?.or h.latest
      rw [List.getLast?_cons]
      rcases (latestsOf records).getLast? with _ | x <;> rfl

/-! ## Pieces -/

/-- Complete pieces, with the tags of the outermost elements among them. -/
inductive Pieces : List Event → List (List Char) → Prop
  | nil : Pieces [] []
  | element {content inner deeper rest tags} (hinner : Pieces inner deeper) (hrest : Pieces rest tags) :
    Pieces (.enter content :: (inner ++ .leave :: rest)) (content :: tags)
  | leaf {content rest tags} (hrest : Pieces rest tags) : Pieces (.leaf content :: rest) (content :: tags)
  | text {rest tags} (hrest : Pieces rest tags) : Pieces (.text :: rest) tags
  | aside {rest tags} (hrest : Pieces rest tags) : Pieces (.aside :: rest) tags

variable {es inner rest : List Event} {tags : List (List Char)} {p q : Progress}

/-- Pieces that are deeper in the document are passed over. -/
theorem foldlM_deep (hp : Pieces es tags) (d : Nat) (r : Bool) (h : History) :
    es.foldlM step ⟨d + 2, r, h⟩ = .ok ⟨d + 2, r, h⟩ := by
  induction hp generalizing d with
  | nil => rfl
  | element _ _ ihi ihr =>
    rw [List.foldlM_cons]
    show List.foldlM step ⟨d + 1 + 2, r, h⟩ _ = _
    rw [List.foldlM_append, ihi (d + 1)]
    exact ihr d
  | leaf _ ih => exact ih d
  | text _ ih => exact ih d
  | aside _ ih => exact ih d

/-- Pieces under the root: their outermost tags are taken in, one after the other. -/
theorem foldlM_pieces (hp : Pieces es tags) (r : Bool) (h : History) :
    es.foldlM step ⟨1, r, h⟩ = (tags.foldlM child h).map fun h' => ⟨1, r, h'⟩ := by
  induction hp generalizing h with
  | nil => rfl
  | @element content inner deeper rest tags hi _ _ ihr =>
    rw [List.foldlM_cons, List.foldlM_cons]
    show (do let q ← (do return { (⟨1, r, h⟩ : Progress) with history := ← child h content })
             pure { q with depth := q.depth + 1 }) >>= _ = _
    rcases child h content with x | h'
    · rfl
    · show List.foldlM step ⟨0 + 2, r, h'⟩ _ = _
      rw [List.foldlM_append, foldlM_deep hi 0]
      exact ihr h'
  | @leaf content rest tags _ ih =>
    rw [List.foldlM_cons, List.foldlM_cons]
    show (do return { (⟨1, r, h⟩ : Progress) with history := ← child h content }) >>= _ = _
    rcases child h content with x | h'
    · rfl
    · exact ih h'
  | text _ ih => exact ih h
  | aside _ ih => exact ih h

/-! ## Whole documents -/

/-- The events of a document: a root element with what stands in it, and asides around it. -/
inductive Whole (root : List Char) (tags : List (List Char)) : List Event → Prop
  | aside {rest : List Event} (hrest : Whole root tags rest) : Whole root tags (.aside :: rest)
  | element {inner after : List Event} (hinner : Pieces inner tags) (hafter : ∀ e ∈ after, e = .aside) :
    Whole root tags (.enter root :: (inner ++ .leave :: after))
  | leaf {after : List Event} (htags : tags = []) (hafter : ∀ e ∈ after, e = .aside) :
    Whole root tags (.leaf root :: after)

theorem foldlM_asides {after : List Event} (ha : ∀ e ∈ after, e = .aside) (p : Progress) :
    after.foldlM step p = .ok p := by
  induction after with
  | nil => rfl
  | cons e after ih =>
    rw [ha e (List.mem_cons_self ..)]
    exact ih fun x hx => ha x (List.mem_cons_of_mem _ hx)

/-- A whole document is read by the tags in its root. -/
theorem foldlM_whole {root : List Char} (hw : Whole root tags es) (hroot : isNamed rootName root = true) :
    es.foldlM step {} = (tags.foldlM child {}).map fun h => ⟨0, true, h⟩ := by
  have helement : element {} root = .ok ⟨0, true, {}⟩ := by
    simp only [element, hroot, Bool.false_eq_true, if_false, if_true]
  induction hw with
  | aside _ ih => exact ih
  | @element inner after hinner hafter =>
    rw [List.foldlM_cons]
    show ((do let q ← element {} root; pure { q with depth := q.depth + 1 }) >>= _) = _
    rw [helement]
    show List.foldlM step ⟨1, true, {}⟩ _ = _
    rw [List.foldlM_append, foldlM_pieces hinner]
    rcases tags.foldlM child {} with x | h
    · rfl
    · exact foldlM_asides hafter ⟨0, true, h⟩
  | leaf htags hafter =>
    rw [List.foldlM_cons, htags]
    show (element {} root >>= _) = _
    rw [helement]
    exact foldlM_asides hafter _

/-! ## Events that are nested -/

/-- Whether events never close more elements than are open, given how many are open before them. -/
def Nested : Nat → List Event → Prop
  | _, [] => True
  | n, .enter _ :: es => Nested (n + 1) es
  | 0, .leave :: _ => False
  | n + 1, .leave :: es => Nested n es
  | n, _ :: es => Nested n es

theorem Nested.leading {opened : Nat} {s : List Char} {scan : Scan} (h : Nested opened scan.events) :
    Nested opened (Scan.leading s scan).events := by
  unfold Scan.leading
  split_ifs
  · exact h
  · exact h

/-- The events of a text are nested. -/
theorem nested_scanFrom (opened : List (List Char)) (s : List Char) :
    Nested opened.length (Scan.scanFrom opened s).events := by
  fun_induction Scan.scanFrom opened s with
  | case1 opened s hopening hsame hclosing =>
    refine .leading ?_
    split
    · trivial
    rename_i head r hs
    split
    · trivial
    rename_i token rest hr
    cases token with
    | opening content => exact hopening _ _ hs _ _ hr content
    | empty content => exact hsame _ _ hs _ _ hr
    | verbatim => exact hsame _ _ hs _ _ hr
    | comment => exact hsame _ _ hs _ _ hr
    | doctype => exact hsame _ _ hs _ _ hr
    | instruction => exact hsame _ _ hs _ _ hr
    | closing name =>
      cases opened with
      | nil => trivial
      | cons top outer =>
        show Nested _ (if top = name then _ else _ : Scan).events
        split_ifs
        · exact hclosing _ _ hs _ _ hr outer
        · trivial

/-- What follows complete pieces is nested as what they are a part of. -/
theorem Nested.of_pieces {n : Nat} (hp : Pieces inner tags) (hn : Nested n (inner ++ rest)) : Nested n rest := by
  induction hp generalizing n rest with
  | nil => exact hn
  | element _ _ ihi ihr =>
    rw [List.cons_append, List.append_assoc] at hn
    exact ihr (ihi (n := n + 1) hn)
  | leaf _ ih => cases n <;> exact ih hn
  | text _ ih => cases n <;> exact ih hn
  | aside _ ih => cases n <;> exact ih hn

/-! ## Runs that succeed -/

theorem bind_eq_ok {ε α β : Type} {x : Except ε α} {f : α → Except ε β} {b : β} (h : x >>= f = .ok b) :
    ∃ a, x = .ok a ∧ f a = .ok b := by
  rcases x with e | a
  · cases h
  · exact ⟨a, rfl, h⟩

theorem foldlM_cons_ok {e : Event} (h : (e :: es).foldlM step p = .ok q) :
    ∃ p', step p e = .ok p' ∧ es.foldlM step p' = .ok q := by
  rw [List.foldlM_cons] at h
  exact bind_eq_ok h

theorem depth_element {content : List Char} (h : element p content = .ok q) : q.depth = p.depth := by
  unfold element at h
  split at h
  · split_ifs at h
    cases h
    rfl
  · obtain ⟨h', -, hq⟩ := bind_eq_ok h
    cases hq
    rfl
  · cases h
    rfl

theorem depth_enter {content : List Char} (h : step p (.enter content) = .ok q) : q.depth = p.depth + 1 := by
  obtain ⟨p', he, hq⟩ := bind_eq_ok h
  cases hq
  rw [depth_element he]

theorem depth_text (h : step p .text = .ok q) : q = p := by
  simp only [step] at h
  split_ifs at h
  cases h
  rfl

/-- Complete pieces close what they open. -/
theorem depth_pieces (hp : Pieces inner tags) (h : (inner ++ rest).foldlM step p = .ok q) :
    ∃ p', p'.depth = p.depth ∧ rest.foldlM step p' = .ok q := by
  induction hp generalizing p rest with
  | nil => exact ⟨p, rfl, h⟩
  | @element content inner deeper after tags _ _ ihi ihr =>
    rw [List.cons_append, List.append_assoc] at h
    obtain ⟨p₁, h₁, h⟩ := foldlM_cons_ok h
    obtain ⟨p₂, h₂, h⟩ := ihi h
    obtain ⟨p₃, h₃, h⟩ := foldlM_cons_ok h
    cases h₃
    obtain ⟨p₄, h₄, h⟩ := ihr h
    refine ⟨p₄, ?_, h⟩
    rw [h₄, h₂, depth_enter h₁]
    rfl
  | leaf _ ih =>
    obtain ⟨p₁, h₁, h⟩ := foldlM_cons_ok h
    obtain ⟨p₂, h₂, h⟩ := ih h
    exact ⟨p₂, h₂.trans (depth_element h₁), h⟩
  | text _ ih =>
    obtain ⟨p₁, h₁, h⟩ := foldlM_cons_ok h
    rw [depth_text h₁] at h
    exact ih h
  | aside _ ih => exact ih h

/-- Events that end less deep than they began have complete pieces up to where the element that was open
is closed. By induction on their number, as a piece is left out together with what it holds. -/
theorem exists_pieces (hr : es.foldlM step p = .ok q) (hlt : q.depth < p.depth) :
    ∃ inner tags rest, es = inner ++ .leave :: rest ∧ Pieces inner tags := by
  induction hn : es.length using Nat.strong_induction_on generalizing es p with
  | _ n ih =>
    subst hn
    cases es with
    | nil =>
      cases hr
      omega
    | cons e es =>
      obtain ⟨p₁, h₁, hrest⟩ := foldlM_cons_ok hr
      have hshort : es.length < (e :: es).length := Nat.lt_succ_self _
      cases e with
      | leave => exact ⟨[], [], es, rfl, .nil⟩
      | enter content =>
        have hdepth := depth_enter h₁
        obtain ⟨inner, deeper, after, rfl, hinner⟩ := ih _ hshort hrest (by omega) rfl
        obtain ⟨p₂, h₂, hleave⟩ := depth_pieces hinner hrest
        obtain ⟨p₃, h₃, hafter⟩ := foldlM_cons_ok hleave
        -- the element is closed, and the events behind it are fewer
        have hback : p₃.depth = p.depth := by
          cases h₃
          show p₂.depth - 1 = p.depth
          omega
        have hfewer : after.length < (Event.enter content :: (inner ++ .leave :: after)).length := by
          simp only [List.length_cons, List.length_append]
          omega
        obtain ⟨inner', tags, rest, rfl, hpieces⟩ := ih _ hfewer hafter (by omega) rfl
        exact ⟨.enter content :: (inner ++ .leave :: inner'), content :: tags, rest, by simp,
          .element hinner hpieces⟩
      | leaf content =>
        have hdepth : p₁.depth = p.depth := depth_element h₁
        obtain ⟨inner, tags, rest, rfl, hpieces⟩ := ih _ hshort hrest (by omega) rfl
        exact ⟨.leaf content :: inner, content :: tags, rest, rfl, .leaf hpieces⟩
      | text =>
        rw [depth_text h₁] at hrest
        obtain ⟨inner, tags, rest, rfl, hpieces⟩ := ih _ hshort hrest hlt rfl
        exact ⟨.text :: inner, tags, rest, rfl, .text hpieces⟩
      | aside =>
        cases h₁
        obtain ⟨inner, tags, rest, rfl, hpieces⟩ := ih _ hshort hrest hlt rfl
        exact ⟨.aside :: inner, tags, rest, rfl, .aside hpieces⟩

/-- After the root element there are only asides. -/
theorem asides_of_rooted {h : History} (hn : Nested 0 es) (hr : es.foldlM step ⟨0, true, h⟩ = .ok q) :
    ∀ e ∈ es, e = .aside := by
  induction es with
  | nil => exact fun _ he => nomatch he
  | cons e es ih =>
    cases e with
    | aside =>
      intro x hx
      rcases List.mem_cons.1 hx with rfl | hx
      · rfl
      · exact ih hn hr x hx
    | leave => exact hn.elim
    | _ => cases hr

/-- The events of a document that is accepted form a whole document. -/
theorem whole_of_foldlM (hn : Nested 0 es) (hr : es.foldlM step {} = .ok q) (hrooted : q.rooted = true)
    (hdepth : q.depth = 0) : ∃ root tags, isNamed rootName root = true ∧ Whole root tags es := by
  induction es with
  | nil =>
    cases hr
    cases hrooted
  | cons e es ih =>
    obtain ⟨p₁, h₁, hrest⟩ := foldlM_cons_ok hr
    cases e with
    | aside =>
      cases h₁
      obtain ⟨root, tags, hroot, hw⟩ := ih hn hrest
      exact ⟨root, tags, hroot, .aside hw⟩
    | leave => exact hn.elim
    | text => cases h₁
    | leaf content =>
      change (if isNamed rootName content = true then _ else _) = _ at h₁
      split_ifs at h₁ with hroot
      cases h₁
      exact ⟨content, [], hroot, .leaf rfl (asides_of_rooted hn hrest)⟩
    | enter content =>
      obtain ⟨p₂, h₂, hp₁⟩ := bind_eq_ok h₁
      change (if isNamed rootName content = true then _ else _) = _ at h₂
      split_ifs at h₂ with hroot
      cases h₂
      cases hp₁
      obtain ⟨inner, tags, after, rfl, hinner⟩ := exists_pieces hrest (by rw [hdepth]; exact Nat.zero_lt_one)
      rw [List.foldlM_append, foldlM_pieces hinner] at hrest
      obtain ⟨p₃, h₃, hrest⟩ := bind_eq_ok hrest
      have hafter : Nested 1 (.leave :: after) := .of_pieces hinner hn
      rcases hc : tags.foldlM child {} with x | h
      · rw [hc] at h₃
        cases h₃
      · rw [hc] at h₃
        cases h₃
        exact ⟨content, tags, hroot, .element hinner (asides_of_rooted hafter hrest)⟩

/-! ## The meaning -/

theorem read_eq_ok_iff {document : String} {h : History} :
    read document = .ok h ↔ (Scan.ofDocument document.toList).fault = none ∧
      ∃ root tags, isNamed rootName root = true ∧
        Whole root tags (Scan.ofDocument document.toList).events ∧ tags.foldlM child {} = .ok h := by
  have hn : Nested 0 (Scan.ofDocument document.toList).events := nested_scanFrom [] _
  unfold read meaning
  generalize Scan.ofDocument document.toList = scan at hn ⊢
  constructor
  · intro hr
    obtain ⟨p, hp, hr⟩ := bind_eq_ok hr
    rcases hf : scan.fault with _ | ⟨fault, left⟩ <;> rw [hf] at hr
    · change finish p = .ok h at hr
      unfold finish at hr
      split_ifs at hr with hrooted hdepth
      cases hr
      obtain ⟨root, tags, hroot, hw⟩ := whole_of_foldlM hn hp (by simpa using hrooted) (by simpa using hdepth)
      refine ⟨rfl, root, tags, hroot, hw, ?_⟩
      rw [foldlM_whole hw hroot] at hp
      rcases hc : tags.foldlM child {} with x | h'
      · rw [hc] at hp
        cases hp
      · rw [hc] at hp
        cases hp
        rfl
    · cases hr
  · rintro ⟨hf, root, tags, hroot, hw, ht⟩
    rw [foldlM_whole hw hroot, ht, hf]
    rfl

/-- What the fields of a tag must say for it to be a record of a launch. The label may be missing. -/
theorem launchOf_eq_ok_iff {f : Fields} {e : Launch} :
    launchOf f = .ok e ↔ f.memento = some e.memento ∧ e.memento ≠ "" ∧
      (∃ word, f.mode = some word ∧ Mode.read word = .ok e.mode) ∧ e.label = f.label.getD "" := by
  obtain ⟨memento, mode, label⟩ := f
  constructor
  · intro h
    unfold launchOf at h
    rcases memento with _ | memento
    · cases h
    rcases mode with _ | word
    · simp only at h
      split_ifs at h
    simp only at h
    split_ifs at h with hempty
    rw [String.isEmpty_iff] at hempty
    rcases hm : Mode.read word with x | mode <;> rw [hm] at h <;> cases h
    exact ⟨rfl, hempty, ⟨word, rfl, hm⟩, rfl⟩
  · rintro ⟨hm, hempty, ⟨word, hw, hmode⟩, hl⟩
    obtain ⟨m, k, l⟩ := e
    cases hm
    cases hw
    change l = label.getD "" at hl
    subst hl
    unfold launchOf
    simp only
    rw [if_neg (by simpa [String.isEmpty_iff] using hempty), hmode]

theorem launchOfTag_eq_ok_iff {content : List Char} {e : Launch} :
    launchOfTag content = .ok e ↔ ∃ f, fieldsOf content = .ok f ∧
      f.memento = some e.memento ∧ e.memento ≠ "" ∧
      (∃ word, f.mode = some word ∧ Mode.read word = .ok e.mode) ∧ e.label = f.label.getD "" := by
  unfold launchOfTag
  constructor
  · intro h
    obtain ⟨f, hf, h⟩ := bind_eq_ok h
    exact ⟨f, hf, launchOf_eq_ok_iff.1 h⟩
  · rintro ⟨f, hf, h⟩
    rw [hf]
    exact launchOf_eq_ok_iff.2 h

theorem eq_foldl_addRecord_iff {records : List Record} {h : History} :
    records.foldl addRecord {} = h ↔
      (∀ m, h.list m = (Recent.firsts (entriesOf m records)).take Recent.capacity) ∧
        h.latest = (latestsOf records).getLast? := by
  have hlist : ∀ m, (records.foldl addRecord {}).list m =
      (Recent.firsts (entriesOf m records)).take Recent.capacity := by
    intro m
    rw [list_foldl_addRecord, ← Recent.foldl_append_nil]
    cases m <;> rfl
  have hlatest : (records.foldl addRecord {}).latest = (latestsOf records).getLast? := by
    rw [latest_foldl_addRecord, Option.or_none]
  constructor
  · rintro rfl
    exact ⟨hlist, hlatest⟩
  · rintro ⟨hl, hlast⟩
    have hrun := (hlist .run).trans (hl .run).symm
    have hdebug := (hlist .debug).trans (hl .debug).symm
    have hlatest' := hlatest.trans hlast.symm
    generalize records.foldl addRecord {} = h' at hrun hdebug hlatest'
    obtain ⟨run, debug, latest⟩ := h
    obtain ⟨run', debug', latest'⟩ := h'
    cases hrun
    cases hdebug
    cases hlatest'
    rfl

/-- What a document means. A text is accepted exactly if it is a whole document, with a root element of the
right name, where every element directly under the root that is named as a record is one. What it is
restored as depends on the sequence of these records alone: the list of a mode has the first records of
that mode with different mementos, as many as it can hold, and the latest launch is what its last record
says. A record without a label has the empty one. The rules of the lists are never found broken. -/
theorem restore_eq_restored_iff_records (document : String) :
    (∀ h, restore document = .restored h ↔ (Scan.ofDocument document.toList).fault = none ∧
      ∃ root tags records, isNamed rootName root = true ∧
        Whole root tags (Scan.ofDocument document.toList).events ∧ recordsOf tags = .ok records ∧
        (∀ m, h.list m = (Recent.firsts (entriesOf m records)).take Recent.capacity) ∧
        h.latest = (latestsOf records).getLast?) ∧
    (∀ content e, launchOfTag content = .ok e ↔ ∃ f, fieldsOf content = .ok f ∧
      f.memento = some e.memento ∧ e.memento ≠ "" ∧
      (∃ word, f.mode = some word ∧ Mode.read word = .ok e.mode) ∧ e.label = f.label.getD "") ∧
    (∀ h, restore document = .restored h → h.WF) ∧ ∀ v, restore document ≠ .broken v := by
  refine ⟨fun h => ?_, fun content e => launchOfTag_eq_ok_iff, fun h hr => ?_, fun v hr => ?_⟩
  · rw [restore_eq_restored_iff, read_eq_ok_iff]
    refine and_congr_right fun _ => exists_congr fun root => exists_congr fun tags => ?_
    rw [foldlM_child]
    constructor
    · rintro ⟨hroot, hw, ht⟩
      rcases hrec : recordsOf tags with x | records <;> rw [hrec] at ht <;> cases ht
      exact ⟨records, hroot, hw, rfl, eq_foldl_addRecord_iff.1 rfl⟩
    · rintro ⟨records, hroot, hw, hrec, hl⟩
      rw [hrec]
      exact ⟨hroot, hw, congrArg Except.ok (eq_foldl_addRecord_iff.2 hl)⟩
  · exact (sound_of_read (restore_eq_restored_iff.1 hr)).wf
  · rcases hread : read document with x | h
    · rw [restore, hread] at hr
      cases hr
    · rw [restore_of_read hread] at hr
      cases hr

/-- A document with everything in it that is passed over: a record within another element and one within a
record, an element with another name, a comment, text, and a launch that comes again. -/
def crowded : String :=
  "<LaunchHistory><LAUNCH memento='a' mode='run'><launch/></LAUNCH>text<launch memento='b' mode='debug'/><!-- a -->" ++
    "<other><lastLaunch/></other><launch memento='a' mode='run' label='A'/><lastlaunch memento='b' mode='debug'/>" ++
    "<launch memento='c' mode='run' label='C'/><lastLaunch memento='c' mode='run' label='D'/></LaunchHistory>"

/-- It is restored by the records under its root, with the first label of each memento. -/
theorem restore_crowded :
    let h : History :=
      { run := [⟨"a", .run, ""⟩, ⟨"c", .run, "C"⟩], debug := [⟨"b", .debug, ""⟩],
        latest := some ⟨"c", .run, "D"⟩ }
    restore crowded = .restored h ∧ h.WF ∧
    ∃ records, (∀ m, h.list m = (Recent.firsts (entriesOf m records)).take Recent.capacity) ∧
      h.latest = (latestsOf records).getLast? := by
  intro h
  have hr : restore crowded = .restored h := by
    refine restore_of_read ?_
    unfold read crowded
    rw [String.toList_append, String.toList_append, String.toList_ofList, String.toList_ofList, String.toList_ofList]
    decide +kernel
  obtain ⟨hiff, -, hwf, -⟩ := restore_eq_restored_iff_records crowded
  obtain ⟨-, -, -, records, -, -, -, hlist, hlatest⟩ := (hiff h).1 hr
  exact ⟨hr, hwf h hr, records, hlist, hlatest⟩

end Document

end RecentLaunches
