/-
A history is read back as it was written. The text of a history consists of the events one expects
(`scan_text`), each record stands for its launch (`launchOfTag_tagOf`), and taking the records in
again fills the lists in their order: reading gives the history back if every launch has a memento, and
is refused for the first one that has none otherwise. What a document is read as keeps the rules, so
reading, writing and reading again changes nothing.
-/
import RecentLaunches.Document.Reader
import RecentLaunches.Proofs.Document.Element
import RecentLaunches.Proofs.History.Launches

namespace RecentLaunches.Document

open Markup

/-! ## Records -/

/-- The attributes of a launch as they are written. -/
def attributesOf (e : Launch) : List (List Char × String) :=
  [(mementoKey, e.memento), (modeKey, e.mode.name), (labelKey, e.label)]

/-- The tag of a launch. -/
def tagOf (name : List Char) (e : Launch) : List Char :=
  tagText name (attributesOf e)

theorem areAttributes_attributesOf (e : Launch) : AreAttributes (attributesOf e) := by
  have hm : IsName mementoKey := ⟨by decide, List.all_eq_true.1 rfl⟩
  have hd : IsName modeKey := ⟨by decide, List.all_eq_true.1 rfl⟩
  have hl : IsName labelKey := ⟨by decide, List.all_eq_true.1 rfl⟩
  refine ⟨fun a ha => ?_, ?_⟩
  · simp only [attributesOf, List.mem_cons, List.not_mem_nil, or_false] at ha
    rcases ha with rfl | rfl | rfl
    exacts [hm, hd, hl]
  · show [mementoKey, modeKey, labelKey].Nodup
    decide

theorem launchText_append (name : List Char) (e : Launch) (rest : List Char) :
    launchText name e ++ rest = '\n' :: ' ' :: ' ' :: '<' :: (tagOf name e ++ '/' :: '>' :: rest) := by
  simp [launchText, tagOf, tagText, attributesText, attributesOf]

/-- Each of the three keys sets its own field. -/
theorem set_keys (f : Fields) (value : String) :
    f.set mementoKey value = { f with memento := some value } ∧
      f.set modeKey value = { f with mode := some value } ∧
      f.set labelKey value = { f with label := some value } :=
  ⟨rfl, rfl, rfl⟩

/-- The fields of a written record. -/
theorem fieldsOf_tagOf {name : List Char} (hn : IsName name) (e : Launch) :
    fieldsOf (tagOf name e) = .ok ⟨some e.memento, some e.mode.name, some e.label⟩ := by
  unfold fieldsOf tagOf
  rw [ofTag_tagText hn (areAttributes_attributesOf e)]
  simp only [attributesOf, List.map_cons, List.map_nil, List.foldlM_cons, List.foldlM_nil, unescape_escape,
    Except.mapError, (set_keys _ _).1, (set_keys _ _).2.1, (set_keys _ _).2.2]
  simp only [bind, Except.bind, pure, Except.pure, String.ofList_toList]

theorem read_name (m : Mode) : Mode.read m.name = .ok m := by
  cases m <;> rfl

/-- A written record stands for its launch. One without a memento stands for none. -/
theorem launchOfTag_tagOf {name : List Char} (hn : IsName name) (e : Launch) :
    launchOfTag (tagOf name e) = if e.memento = "" then .error .noMemento else .ok e := by
  unfold launchOfTag
  rw [fieldsOf_tagOf hn]
  show launchOf ⟨some e.memento, some e.mode.name, some e.label⟩ = _
  unfold launchOf
  simp only [String.isEmpty_iff, read_name, Option.getD_some]

/-! ## Events -/

theorem isName_rootName : IsName rootName := ⟨by decide, List.all_eq_true.1 rfl⟩

theorem isName_launchName : IsName launchName := ⟨by decide, List.all_eq_true.1 rfl⟩

theorem isName_latestName : IsName latestName := ⟨by decide, List.all_eq_true.1 rfl⟩

/-- The events of the records of a history. -/
def recordEvents (h : History) : List Event :=
  (Mode.all.flatMap fun m => (h.list m).map fun e => .leaf (tagOf launchName e)) ++
    h.latest.toList.map fun e => .leaf (tagOf latestName e)

/-- The events of the document of a history. -/
def events (h : History) : List Event :=
  .aside :: .enter rootName :: recordEvents h ++ [.leave]

/-- The scan of a piece of markup and the text behind it. -/
def scanPiece (opened : List (List Char)) (rest : List Char) : Token → Scan
  | .opening content => .cons (.enter content) (Scan.scanFrom (nameOf content :: opened) rest)
  | .empty content => .cons (.leaf content) (Scan.scanFrom opened rest)
  | .verbatim => .cons .text (Scan.scanFrom opened rest)
  | .comment | .doctype | .instruction => .cons .aside (Scan.scanFrom opened rest)
  | .closing name =>
    match opened with
    | [] => .stop (.unopened name) rest
    | top :: outer =>
      if top = name then .cons .leave (Scan.scanFrom outer rest) else .stop (.crossed top name) rest

/-- Markup behind blanks is scanned as the piece it is read as. -/
theorem scanFrom_of_read (opened : List (List Char)) {blanks r rest : List Char} {token : Token}
    (hb : ∀ c ∈ blanks, isBlank c = true) (hr : Token.read r = .ok (token, rest)) :
    Scan.scanFrom opened (blanks ++ '<' :: r) = scanPiece opened rest token := by
  have hlt : ∀ c ∈ blanks, (c != '<') = true := by
    intro c hc
    rw [bne_iff_ne]
    rintro rfl
    cases hb _ hc
  have htake : (blanks ++ '<' :: r).takeWhile (· != '<') = blanks := by
    rw [List.takeWhile_append_of_pos hlt]
    simp
  have hdrop : (blanks ++ '<' :: r).dropWhile (· != '<') = '<' :: r := by
    rw [List.dropWhile_append_of_pos hlt]
    rfl
  rw [Scan.scanFrom, Scan.leading, htake, if_pos (List.all_eq_true.2 hb)]
  split
  · rename_i h; rw [hdrop] at h; cases h
  rename_i h
  rw [hdrop] at h
  cases h
  split
  · rename_i h; rw [hr] at h; cases h
  rename_i h
  rw [hr] at h
  cases h
  cases token <;> rfl

/-- A written record is one event. -/
theorem scanFrom_launchText (opened : List (List Char)) {name : List Char} (hn : IsName name) (e : Launch)
    (rest : List Char) :
    Scan.scanFrom opened (launchText name e ++ rest) =
      .cons (.leaf (tagOf name e)) (Scan.scanFrom opened rest) := by
  have hb : ∀ c ∈ ['\n', ' ', ' '], isBlank c = true := List.all_eq_true.1 rfl
  rw [launchText_append]
  exact scanFrom_of_read opened hb (read_leaf hn (areAttributes_attributesOf e) rest)

/-- Written records are events in their order. -/
theorem scanFrom_records (opened : List (List Char)) {name : List Char} (hn : IsName name)
    (rest : List Char) : ∀ l : List Launch,
    Scan.scanFrom opened (l.flatMap (launchText name) ++ rest) =
      ⟨l.map (fun e => .leaf (tagOf name e)) ++ (Scan.scanFrom opened rest).events,
        (Scan.scanFrom opened rest).fault⟩
  | [] => by simp
  | e :: l => by
    rw [List.flatMap_cons, List.append_assoc, scanFrom_launchText opened hn, scanFrom_records opened hn rest l]
    rfl

theorem scanFrom_innerText (opened : List (List Char)) (h : History) (rest : List Char) :
    Scan.scanFrom opened (innerText h ++ rest) =
      ⟨recordEvents h ++ (Scan.scanFrom opened rest).events, (Scan.scanFrom opened rest).fault⟩ := by
  have hall : innerText h ++ rest = (h.list .debug).flatMap (launchText launchName) ++
      ((h.list .run).flatMap (launchText launchName) ++ (h.latest.toList.flatMap (launchText latestName) ++ rest)) := by
    simp [innerText, Mode.all]
  rw [hall, scanFrom_records opened isName_launchName, scanFrom_records opened isName_launchName,
    scanFrom_records opened isName_latestName]
  simp [recordEvents, Mode.all]

/-- What stands before the root element is passed over. -/
theorem scanFrom_declaration (rest : List Char) :
    Scan.scanFrom [] (declaration ++ rest) = .cons .aside (Scan.scanFrom [] rest) := by
  have hb : ∀ c ∈ ([] : List Char), isBlank c = true := by simp
  have hr : Token.read (declaration.tail ++ rest) = .ok (.instruction, rest) := rfl
  exact scanFrom_of_read [] hb hr

/-- The events of the document of a history. -/
theorem scan_text (h : History) : Scan.ofDocument (text h) = ⟨events h, none⟩ := by
  have hb : ∀ c ∈ ['\n'], isBlank c = true := List.all_eq_true.1 rfl
  have hroot : nameOf rootName = rootName := by decide
  have hend : Scan.scanFrom [rootName] ('\n' :: '<' :: '/' :: (rootName ++ ['>'])) = ⟨[.leave], none⟩ := by
    refine (scanFrom_of_read [rootName] hb (read_leave isName_rootName [])).trans ?_
    rw [scanPiece, if_pos rfl, Scan.scanFrom]
    simp [Scan.leading, Scan.cons]
  have henter := scanFrom_of_read [] hb
    (read_enter isName_rootName (innerText h ++ '\n' :: '<' :: '/' :: (rootName ++ ['>'])))
  rw [scanPiece, hroot, scanFrom_innerText, hend] at henter
  have htext : text h = declaration ++ (['\n'] ++ '<' :: (rootName ++ '>' :: (innerText h ++
      '\n' :: '<' :: '/' :: (rootName ++ ['>'])))) := by
    simp [text]
  rw [htext]
  show Scan.scanFrom [] (declaration ++ _) = _
  rw [scanFrom_declaration, henter]
  simp [events, Scan.cons]

/-! ## Taking the records in -/

theorem isNamed_tagOf {name : List Char} (hn : IsName name) (other : List Char) (e : Launch) :
    isNamed other (tagOf name e) = Text.sameIgnoringCase name other := by
  rw [isNamed, tagOf, (dropWhile_tagText hn _).2]

/-- A list entry is taken in if it has a memento. -/
theorem child_launch (h : History) (e : Launch) :
    child h (tagOf launchName e) = if e.memento = "" then .error .noMemento else .ok (addLaunch h e) := by
  have hl : Text.sameIgnoringCase launchName launchName = true := by decide
  unfold child
  rw [isNamed_tagOf isName_launchName, if_pos hl, launchOfTag_tagOf isName_launchName]
  split <;> rfl

/-- The latest launch is taken in if it has a memento. -/
theorem child_latest (h : History) (e : Launch) :
    child h (tagOf latestName e) =
      if e.memento = "" then .error .noMemento else .ok { h with latest := some e } := by
  have hl : Text.sameIgnoringCase latestName launchName = false := by decide
  have hn : Text.sameIgnoringCase latestName latestName = true := by decide
  unfold child
  rw [isNamed_tagOf isName_latestName, hl, if_neg Bool.false_ne_true, isNamed_tagOf isName_latestName,
    if_pos hn, launchOfTag_tagOf isName_latestName]
  split <;> rfl

/-- Records are taken in one by one, up to the first without a memento. -/
theorem foldlM_records {tag : Launch → List Char} {add : History → Launch → History}
    (hc : ∀ h e, child h (tag e) = if e.memento = "" then .error .noMemento else .ok (add h e)) :
    ∀ (l : List Launch) (h : History),
      (l.map fun e => Event.leaf (tag e)).foldlM step ⟨1, true, h⟩ =
        if ∀ e ∈ l, e.memento ≠ "" then .ok ⟨1, true, l.foldl add h⟩ else .error .noMemento
  | [], h => by simp [pure, Except.pure]
  | e :: l, h => by
    have hstep : step ⟨1, true, h⟩ (.leaf (tag e)) =
        if e.memento = "" then .error .noMemento else .ok ⟨1, true, add h e⟩ := by
      show (do return { (⟨1, true, h⟩ : Progress) with history := ← child h (tag e) }) = _
      rw [hc]
      split <;> rfl
    rw [List.map_cons, List.foldlM_cons, hstep]
    by_cases he : e.memento = ""
    · rw [if_pos he, if_neg fun h => h e (List.mem_cons_self ..) he]
      rfl
    · rw [if_neg he]
      show (l.map fun e => Event.leaf (tag e)).foldlM step ⟨1, true, add h e⟩ = _
      rw [foldlM_records hc l (add h e)]
      simp [he]

/-- The entries of a list that keeps the rules fill the list they come from. -/
theorem foldl_addLaunch {m : Mode} : ∀ (rest front : Recent) (h : History), h.list m = front →
    Recent.WF m (front ++ rest) → rest.foldl addLaunch h = h.withList m (front ++ rest)
  | [], front, h, hl, _ => by simp [← hl]
  | e :: rest, front, h, hl, hw => by
    have he : e.mode = m := hw.ownMode e (by simp)
    have hadd : addLaunch h e = h.withList m (front ++ [e]) := by
      rw [addLaunch, he, hl, hw.append_eq]
    rw [List.foldl_cons, hadd, foldl_addLaunch rest (front ++ [e]) _ (History.list_withList_self ..) (by simpa using hw)]
    simp

/-- The records of a history that keeps the rules give the history. -/
theorem foldl_records {h : History} (hw : h.WF) :
    h.latest.toList.foldl (fun h e => { h with latest := some e })
      ((h.list .run).foldl addLaunch ((h.list .debug).foldl addLaunch {})) = h := by
  rw [foldl_addLaunch (h.list .debug) [] {} rfl (hw .debug),
    foldl_addLaunch (h.list .run) [] _ rfl (hw .run)]
  obtain ⟨run, debug, latest⟩ := h
  cases latest <;> rfl

/-- What the records of a history lead to. -/
theorem foldlM_recordEvents (h : History) :
    (recordEvents h).foldlM step ⟨1, true, {}⟩ =
      if h.IsNamed then
        .ok ⟨1, true, h.latest.toList.foldl (fun h e => { h with latest := some e })
          ((h.list .run).foldl addLaunch ((h.list .debug).foldl addLaunch {}))⟩
      else .error .noMemento := by
  have hnamed : h.IsNamed ↔ (∀ e ∈ h.list .debug, e.memento ≠ "") ∧ (∀ e ∈ h.list .run, e.memento ≠ "") ∧
      ∀ e ∈ h.latest.toList, e.memento ≠ "" := by
    simp [History.IsNamed, History.launches, Mode.all, or_imp, forall_and]
  simp only [hnamed]
  unfold recordEvents
  simp only [Mode.all, List.flatMap_cons, List.flatMap_nil, List.append_nil, List.append_assoc]
  rw [List.foldlM_append, foldlM_records child_launch]
  by_cases hd : ∀ e ∈ h.list .debug, e.memento ≠ ""
  · rw [if_pos hd]
    show List.foldlM step _ _ = _
    rw [List.foldlM_append, foldlM_records child_launch]
    by_cases hr : ∀ e ∈ h.list .run, e.memento ≠ ""
    · rw [if_pos hr]
      show List.foldlM step _ _ = _
      rw [foldlM_records child_latest]
      by_cases hl : ∀ e ∈ h.latest.toList, e.memento ≠ ""
      · rw [if_pos hl, if_pos ⟨hd, hr, hl⟩]
      · rw [if_neg hl, if_neg fun h => hl h.2.2]
    · rw [if_neg hr, if_neg fun h => hr h.2.1]
      rfl
  · rw [if_neg hd, if_neg fun h => hd h.1]
    rfl

/-! ## The round trip -/

/-- What the document of a history is read as, before the rules are looked at. -/
theorem read_render_eq (h : History) :
    read (render h) =
      if h.IsNamed then
        .ok (h.latest.toList.foldl (fun h e => { h with latest := some e })
          ((h.list .run).foldl addLaunch ((h.list .debug).foldl addLaunch {})))
      else .error .noMemento := by
  have hfold : (events h).foldlM step {} = (recordEvents h ++ [Event.leave]).foldlM step ⟨1, true, {}⟩ := rfl
  unfold read render
  rw [String.toList_ofList, scan_text, meaning, hfold, List.foldlM_append, foldlM_recordEvents]
  split <;> rfl

/-- The document of a history that keeps the rules is read as that history, if every launch has a
memento. -/
theorem read_render {h : History} (hw : h.WF) (hn : h.IsNamed) : read (render h) = .ok h := by
  rw [read_render_eq, if_pos hn, foldl_records hw]

/-- The document of a history with a launch that has no memento is refused for it. -/
theorem read_render_of_not_isNamed {h : History} (hn : ¬ h.IsNamed) :
    read (render h) = .error .noMemento := by
  rw [read_render_eq, if_neg hn]

/-! ## What documents are read as -/

/-- What holds before a run of fallible steps and is kept by each holds after it. -/
theorem foldlM_keeps {α β ε : Type} {f : β → α → Except ε β} {P : β → Prop}
    (hf : ∀ b a b', P b → f b a = .ok b' → P b') :
    ∀ (l : List α) (b b' : β), P b → l.foldlM f b = .ok b' → P b'
  | [], b, b', hb, h => by
    cases h; exact hb
  | a :: l, b, b', hb, h => by
    rw [List.foldlM_cons] at h
    rcases hs : f b a with e | c <;> rw [hs] at h
    · cases h
    · exact foldlM_keeps hf l c b' (hf b a c hb hs) h

/-- The launch of a record has a memento. -/
theorem memento_of_launchOfTag {content : List Char} {e : Launch} (h : launchOfTag content = .ok e) :
    e.memento ≠ "" := by
  unfold launchOfTag at h
  rcases hf : fieldsOf content with x | f <;> rw [hf] at h
  · cases h
  change launchOf f = .ok e at h
  unfold launchOf at h
  split at h
  · cases h
  · split at h
    · cases h
    rename_i hm
    split at h
    · cases h
    · split at h
      · cases h
      · cases h
        rwa [String.isEmpty_iff] at hm

/-- An element under the root keeps the history sound. -/
theorem sound_child {h h' : History} {content : List Char} (hs : h.Sound) (hc : child h content = .ok h') :
    h'.Sound := by
  unfold child at hc
  split at hc
  · rcases ht : launchOfTag content with x | e <;> rw [ht] at hc
    · cases hc
    cases hc
    refine ⟨hs.wf.withList ((hs.wf e.mode).append rfl), fun x hx => ?_⟩
    rcases History.mem_launches_withList hx with hx | hx
    · rcases Recent.append_cases (h.list e.mode) e with ha | ⟨-, -, ha⟩ <;> rw [ha] at hx
      · exact hs.named x (History.mem_launches.2 (.inl ⟨_, hx⟩))
      · rcases List.mem_append.1 hx with hx | hx
        · exact hs.named x (History.mem_launches.2 (.inl ⟨_, hx⟩))
        · rw [List.mem_singleton.1 hx]
          exact memento_of_launchOfTag ht
    · exact hs.named x hx
  · split at hc
    · rcases ht : launchOfTag content with x | e <;> rw [ht] at hc
      · cases hc
      cases hc
      refine ⟨fun m => hs.wf m, fun x hx => ?_⟩
      rcases History.mem_launches.1 hx with ⟨m, hm⟩ | hx
      · exact hs.named x (History.mem_launches.2 (.inl ⟨m, hm⟩))
      · cases hx
        exact memento_of_launchOfTag ht
    · cases hc
      exact hs

theorem sound_element {p p' : Progress} {content : List Char} (hs : p.history.Sound)
    (he : element p content = .ok p') : p'.history.Sound := by
  unfold element at he
  split at he
  · split at he
    · cases he
    · split at he <;> cases he
      exact hs
  · rcases hc : child p.history content with x | h <;> rw [hc] at he
    · cases he
    · cases he
      exact sound_child hs hc
  · cases he
    exact hs

theorem sound_step (p : Progress) (e : Event) (p' : Progress) (hs : p.history.Sound)
    (h : step p e = .ok p') : p'.history.Sound := by
  cases e with
  | enter content =>
    rcases he : element p content with x | q
    · simp only [step, he] at h
      cases h
    · have hq : q.history.Sound := sound_element hs he
      simp only [step, he] at h
      cases h
      exact hq
  | leaf content => exact sound_element hs h
  | leave => cases h; exact hs
  | text =>
    simp only [step] at h
    split at h
    · cases h
    · cases h; exact hs
  | aside => cases h; exact hs

/-- Whatever a text is read as keeps the rules, and its launches have mementos. -/
theorem sound_of_read {document : String} {h : History} (hr : read document = .ok h) : h.Sound := by
  unfold read meaning at hr
  rcases hp : (Scan.ofDocument document.toList).events.foldlM step {} with x | p <;> rw [hp] at hr
  · cases hr
  have hs : p.history.Sound :=
    foldlM_keeps (P := fun p => p.history.Sound) sound_step _ {} p .empty hp
  simp only [bind, Except.bind] at hr
  split at hr
  · cases hr
  unfold finish at hr
  split at hr
  · cases hr
  · split at hr
    · cases hr
    · cases hr
      exact hs

/-! ## Restoring -/

/-- The rules are never found broken where a document was read. -/
theorem restore_of_read {document : String} {h : History} (hr : read document = .ok h) :
    restore document = .restored h := by
  rw [restore, hr]
  simp only
  rw [History.violation?_eq_none_iff.2 (sound_of_read hr).wf]

theorem restore_render_of_isNamed {h : History} (hv : h.violation? = none) (hn : h.IsNamed) :
    restore (render h) = .restored h :=
  restore_of_read (read_render (History.violation?_eq_none_iff.1 hv) hn)

theorem restore_eq_restored_iff {document : String} {h : History} :
    restore document = .restored h ↔ read document = .ok h := by
  refine ⟨fun hr => ?_, restore_of_read⟩
  unfold restore at hr
  split at hr
  · cases hr
  · rename_i h' hr'
    split at hr
    · cases hr
    · cases hr
      exact hr'

/-- The round trip over the whole format. A history that keeps the rules of the lists is restored from
its document, with the same order, labels and latest launch, if all of its launches have mementos; else
the document is refused. So what any accepted document was restored as is restored again from its own
document. -/
theorem restore_render :
    (∀ h : History, h.WF →
      restore (render h) = if h.IsNamed then .restored h else .malformed .noMemento) ∧
    ∀ (document : String) (h : History), restore document = .restored h →
      restore (render h) = .restored h := by
  constructor
  · intro h hw
    split_ifs with hn
    · exact restore_of_read (read_render hw hn)
    · rw [restore, read_render_of_not_isNamed hn]
  · intro document h hr
    have hs := sound_of_read (restore_eq_restored_iff.1 hr)
    exact restore_of_read (read_render hs.wf hs.named)

/-- A history whose texts look like markup. -/
def markupLike : History where
  debug := [⟨"a\"'<", .debug, "&lt;\n"⟩, ⟨"\x00", .debug, ""⟩]
  latest := some ⟨">&", .run, "]]>"⟩

/-- Texts that look like markup come back; a launch without a memento does not. -/
theorem restore_render_markupLike :
    (markupLike.WF ∧ restore (render markupLike) = .restored markupLike) ∧
      restore (render { run := [⟨"", .run, "x"⟩] }) = .malformed .noMemento := by
  have hw : markupLike.WF := History.violation?_eq_none_iff.1 (by decide)
  have hw' : History.WF { run := [⟨"", .run, "x"⟩] } := History.violation?_eq_none_iff.1 (by decide)
  have h := restore_render.1 markupLike hw
  have h' := restore_render.1 _ hw'
  rw [if_pos (by decide)] at h
  rw [if_neg (by decide)] at h'
  exact ⟨⟨hw, h⟩, h'⟩

end RecentLaunches.Document
