/-
The directories above a path. The path above another one is the beginning of its text, and its names come
first among the names of the other: so where a path leads anywhere there is a directory above it. Directories
that could not be made cannot be made the next time either, nor can a file be saved where saving one failed.
-/
import RecentLaunches.Proofs.Disk.Kinds

namespace RecentLaunches

/-! ## Texts between slashes -/

namespace Text

variable {mark : Char}

theorem intercalate_pieces (mark : Char) (s : List Char) : List.intercalate [mark] (pieces mark s) = s := by
  induction s with
  | nil => simp [pieces]
  | cons c s ih =>
    obtain ⟨piece, rest, hp⟩ := List.exists_cons_of_ne_nil (pieces_ne_nil mark s)
    unfold pieces
    rw [hp] at ih ⊢
    split_ifs with hc
    · rw [hc, List.intercalate_cons_cons, ih]
      rfl
    · cases rest with
      | nil => simpa using ih
      | cons q rest => simpa [List.intercalate_cons_cons] using ih

theorem notMem_of_mem_pieces {s piece : List Char} (h : piece ∈ pieces mark s) : mark ∉ piece := by
  induction s generalizing piece with
  | nil =>
    rw [pieces, List.mem_singleton] at h
    rw [h]
    exact List.not_mem_nil
  | cons c s ih =>
    obtain ⟨first, rest, hp⟩ := List.exists_cons_of_ne_nil (pieces_ne_nil mark s)
    unfold pieces at h
    split_ifs at h with hc
    · rcases List.mem_cons.1 h with rfl | h
      · exact List.not_mem_nil
      · exact ih h
    · simp only [hp] at h ih
      rcases List.mem_cons.1 h with rfl | h
      · rw [List.mem_cons, not_or]
        exact ⟨Ne.symm hc, ih (List.mem_cons_self ..)⟩
      · exact ih (List.mem_cons_of_mem _ h)

theorem pieces_of_notMem {s : List Char} (h : mark ∉ s) : pieces mark s = [s] := by
  induction s with
  | nil => rfl
  | cons c s ih =>
    rw [List.mem_cons, not_or] at h
    unfold pieces
    rw [if_neg (Ne.symm h.1), ih h.2]

theorem pieces_append {a : List Char} (h : mark ∉ a) (b : List Char) :
    pieces mark (a ++ mark :: b) = a :: pieces mark b := by
  induction a with
  | nil => rw [List.nil_append, pieces, if_pos rfl]
  | cons c a ih =>
    rw [List.mem_cons, not_or] at h
    rw [List.cons_append, pieces, if_neg (Ne.symm h.1), ih h.2]

theorem pieces_intercalate {ps : List (List Char)} (hne : ps ≠ []) (h : ∀ p ∈ ps, mark ∉ p) :
    pieces mark (List.intercalate [mark] ps) = ps := by
  induction ps with
  | nil => exact absurd rfl hne
  | cons p ps ih =>
    cases ps with
    | nil =>
      rw [List.intercalate_singleton]
      exact pieces_of_notMem (h p (List.mem_cons_self ..))
    | cons q ps =>
      rw [List.intercalate_cons_cons, List.append_assoc, List.singleton_append,
        pieces_append (h p (List.mem_cons_self ..)),
        ih (List.cons_ne_nil _ _) fun r hr => h r (List.mem_cons_of_mem _ hr)]

/-- The text of some parts is the beginning of that of more parts. -/
theorem intercalate_append {a b : List (List Char)} (ha : a ≠ []) (hb : b ≠ []) :
    List.intercalate [mark] (a ++ b) = List.intercalate [mark] a ++ mark :: List.intercalate [mark] b := by
  induction a with
  | nil => exact absurd rfl ha
  | cons p a ih =>
    cases a with
    | nil =>
      obtain ⟨q, b, rfl⟩ := List.exists_cons_of_ne_nil hb
      simp [List.intercalate_cons_cons]
    | cons q a =>
      rw [List.cons_append, List.cons_append, List.intercalate_cons_cons, ← List.cons_append,
        ih (List.cons_ne_nil _ _), List.intercalate_cons_cons]
      simp

end Text

namespace Path

/-! ## The path above -/

theorem steps_ofPieces {ps : List (List Char)} (hne : ps ≠ []) (h : ∀ p ∈ ps, '/' ∉ p) :
    steps (ofPieces ps) = (ps.filter (!·.isEmpty)).map String.ofList := by
  unfold steps pieces ofPieces
  rw [String.toList_ofList, Text.pieces_intercalate hne h]

/-- Parts are those that are left without the idle ones at the end, and these. -/
theorem dropIdle_append (ps : List (List Char)) : ∃ idle, ps = dropIdle ps ++ idle := by
  refine ⟨(ps.reverse.takeWhile isIdle).reverse, ?_⟩
  unfold dropIdle
  rw [← List.reverse_append, List.takeWhile_append_dropWhile, List.reverse_reverse]

theorem ne_nil_of_dropIdle {ps front : List (List Char)} {last : List Char} (h : dropIdle ps = front ++ [last]) :
    last ≠ [] := by
  rintro rfl
  unfold dropIdle at h
  rw [← List.reverse_inj, List.reverse_reverse, List.reverse_append] at h
  have hne : ps.reverse.dropWhile isIdle ≠ [] := by
    rw [h]
    exact List.cons_ne_nil _ _
  have hhead := List.head_dropWhile_not isIdle hne
  simp only [h] at hhead
  cases hhead

/-- One path is above another: its text begins the other text, and its names come first. -/
structure IsAbove (q p : String) : Prop where
  text : ∃ rest, p.toList = q.toList ++ rest
  names : ∃ rest, rest ≠ [] ∧ steps p = steps q ++ rest

theorem isAbove_ofPieces {p : String} {front back : List (List Char)} (hp : pieces p = front ++ back)
    (hfront : front ≠ []) (hback : ∃ piece ∈ back, piece ≠ []) : IsAbove (ofPieces front) p := by
  obtain ⟨piece, hpiece, hne⟩ := hback
  have htext : p.toList = List.intercalate ['/'] (front ++ back) := by
    rw [← hp]
    exact (Text.intercalate_pieces '/' p.toList).symm
  have hnames : ∀ x ∈ front, '/' ∉ x := by
    intro x hx
    refine Text.notMem_of_mem_pieces (s := p.toList) ?_
    rw [show Text.pieces '/' p.toList = front ++ back from hp]
    exact List.mem_append_left _ hx
  refine ⟨⟨'/' :: List.intercalate ['/'] back, ?_⟩, (back.filter (!·.isEmpty)).map String.ofList, ?_, ?_⟩
  · rw [htext, ofPieces, String.toList_ofList, Text.intercalate_append hfront (List.ne_nil_of_mem hpiece)]
  · rw [ne_eq, List.map_eq_nil_iff, List.filter_eq_nil_iff]
    intro hall
    exact hall piece hpiece (by simpa using hne)
  · rw [steps_ofPieces hfront hnames, steps, hp, List.filter_append, List.map_append]

theorem ofPieces_ne_empty {first : List Char} (h : first ≠ []) (rest : List (List Char)) :
    ofPieces (first :: rest) ≠ "" := by
  obtain ⟨c, cs, rfl⟩ := List.exists_cons_of_ne_nil h
  intro he
  have htext := congrArg String.toList he
  rw [ofPieces, String.toList_ofList] at htext
  cases rest with
  | nil => simp at htext
  | cons q rest => simp [List.intercalate_cons_cons] at htext

theorem isAbove_root {p : String} {back : List (List Char)} (hp : pieces p = [] :: back)
    (hback : ∃ piece ∈ back, piece ≠ []) : IsAbove "/" p := by
  have habove : IsAbove (ofPieces [[]]) p := isAbove_ofPieces hp (List.cons_ne_nil _ _) hback
  obtain ⟨piece, hpiece, -⟩ := hback
  refine ⟨⟨List.intercalate ['/'] back, ?_⟩, habove.names⟩
  rw [← Text.intercalate_pieces '/' p.toList, show Text.pieces '/' p.toList = [[]] ++ back from hp,
    Text.intercalate_append (List.cons_ne_nil _ _) (List.ne_nil_of_mem hpiece)]
  rfl

/-- The path above another is the empty one, or it is above in this sense. -/
theorem isAbove_of_parent? {p q : String} (h : parent? p = some q) : q = "" ∨ q ≠ "" ∧ IsAbove q p := by
  obtain ⟨first, rest, hp⟩ := List.exists_cons_of_ne_nil (Text.pieces_ne_nil '/' p.toList)
  change pieces p = first :: rest at hp
  unfold parent? at h
  rw [hp] at h
  simp only [List.isEmpty_iff] at h
  obtain ⟨idle, hrest⟩ := dropIdle_append rest
  rcases List.eq_nil_or_concat' (dropIdle rest) with hnil | ⟨front, last, hconcat⟩
  · rw [if_pos hnil] at h
    split_ifs at h
    cases h
    exact .inl rfl
  · -- the last name, and what is idle before and behind it, are taken off
    obtain ⟨idle', hfront⟩ := dropIdle_append front
    rw [if_neg (by rw [hconcat]; simp), hconcat, List.dropLast_concat] at h
    have hback : ∃ piece ∈ idle' ++ last :: idle, piece ≠ [] := ⟨last, by simp, ne_nil_of_dropIdle hconcat⟩
    have hparts : pieces p = (first :: dropIdle front) ++ (idle' ++ last :: idle) := by
      rw [hp, hrest, hconcat]
      nth_rewrite 1 [hfront]
      simp
    right
    split_ifs at h with hfirst
    · subst hfirst
      cases h
      refine ⟨fun he => ?_, ?_⟩
      · have htext := congrArg String.toList he
        simp at htext
      · rcases hd : dropIdle front with _ | ⟨a, above⟩
        · rw [hd] at hparts
          exact isAbove_root hparts hback
        · have hq : "/" ++ ofPieces (a :: above) = ofPieces ([] :: a :: above) := by
            rw [← String.toList_inj]
            simp [ofPieces, List.intercalate_cons_cons]
          rw [hq, ← hd]
          exact isAbove_ofPieces hparts (List.cons_ne_nil _ _) hback
    · cases h
      exact ⟨ofPieces_ne_empty hfirst _, isAbove_ofPieces hparts (List.cons_ne_nil _ _) hback⟩

end Path

namespace Disk

variable {d m : Disk} {l : Location} {p q : String} {c : Content}

/-! ## The directory above -/

theorem origin_of_isAbove (hq : q ≠ "") (h : Path.IsAbove q p) (d : Disk) : d.origin q = d.origin p := by
  obtain ⟨rest, htext⟩ := h.text
  have hne : q.toList ≠ [] := by simpa using hq
  unfold origin Path.isAbsolute
  rw [htext, List.head?_append_of_ne_nil _ hne]

theorem node?_of_follow_cons {a : Location} {name : String} {names : List String}
    (h : d.follow a (name :: names) = .ok l) : d.node? a = some .directory := by
  rw [follow_cons] at h
  rcases hn : d.node? a with _ | _ | content
  · rw [hn] at h
    cases h
  · rfl
  · rw [hn] at h
    cases h

/-- Above a path that leads anywhere there is a directory. -/
theorem isDirectory_of_isAbove (hq : q ≠ "") (h : Path.IsAbove q p) (hl : d.locate p (Path.steps p) = .ok l) :
    d.isDirectory q = true := by
  have horigin := origin_of_isAbove hq h d
  obtain ⟨rest, htext⟩ := h.text
  obtain ⟨names, hne, hsteps⟩ := h.names
  have hsize : q.utf8ByteSize ≤ p.utf8ByteSize := by
    have hp : p = q ++ String.ofList rest := by
      rw [← String.toList_inj, htext, String.toList_append, String.toList_ofList]
    rw [hp, String.utf8ByteSize_append]
    exact Nat.le_add_right _ _
  unfold locate at hl
  split_ifs at hl with hnul hempty hlong
  rw [hsteps, follow_append] at hl
  rcases hf : d.follow (d.origin p) (Path.steps q) with e | a
  · rw [hf] at hl
    cases hl
  · rw [hf] at hl
    -- the way goes on from there
    obtain ⟨name, names, rfl⟩ := List.exists_cons_of_ne_nil hne
    have ha : d.node? a = some .directory := node?_of_follow_cons hl
    refine isDirectory_iff.2 ⟨a, ?_, ha⟩
    unfold locate
    rw [if_neg, if_neg, if_neg, horigin, hf]
    · omega
    · simpa using hq
    · intro hq'
      refine hnul ?_
      rw [htext]
      simp at hq' ⊢
      exact .inl hq'

/-- Above a path that leads anywhere there is nothing to be made. -/
theorem makeAlong_climb_of_locate (hp : Path.parent? p = some q) (hl : d.locate p (Path.steps p) = .ok l) (n : Nat) :
    d.makeAlong (Path.climb n q) = (.ok (), d) := by
  cases n with
  | zero => rfl
  | succ n =>
    unfold Path.climb
    rcases Path.isAbove_of_parent? hp with rfl | ⟨hq, habove⟩
    · rfl
    · rcases Path.parent? q with _ | above
      · rfl
      · exact makeAlong_of_isDirectory (isDirectory_of_isAbove hq habove hl) _

theorem makeAbove_of_locate (hl : d.locate p (Path.steps p) = .ok l) : d.makeAbove p = (.ok (), d) := by
  unfold makeAbove
  rcases hp : Path.parent? p with _ | q
  · rfl
  · exact makeAlong_climb_of_locate hp hl _

/-! ## Failing again -/

theorem attempt_eq_error {e : DiskFault} (h : d.attempt p = (.error e, m)) :
    m = d ∧ d.makeDir p = .error e ∧ d.isDirectory p = false := by
  unfold attempt at h
  rcases hm : d.makeDir p with e' | d' <;> rw [hm] at h
  · simp only at h
    split_ifs at h with hd
    · cases h
    · cases h
      exact ⟨rfl, rfl, by simpa using hd⟩
  · cases h

theorem attempt_of_error {e : DiskFault} (he : d.makeDir p = .error e) (hd : d.isDirectory p = false) :
    d.attempt p = (.error e, d) := by
  unfold attempt
  rw [he]
  simp only
  rw [if_neg (by rw [hd]; exact Bool.false_ne_true)]

/-- A path that leads nowhere is neither made nor there. -/
theorem attempt_of_locate (hl : ∀ l, d.locate p (Path.steps p) ≠ .ok l) : ∃ e, d.attempt p = (.error e, d) := by
  have hd : d.isDirectory p = false := by
    rw [← Bool.not_eq_true, isDirectory_iff]
    rintro ⟨l, h, -⟩
    exact hl l h
  rcases hm : d.makeDir p with e | m
  · exact ⟨e, attempt_of_error hm hd⟩
  · obtain ⟨l, h, -⟩ := makeDir_eq_ok_iff.1 hm
    exact absurd h (hl l)

/-- Directories that were made are found again. -/
theorem makeAlong_of_makeAlong {ps : List String} (h : d.makeAlong ps = (.ok (), m)) :
    m.makeAlong ps = (.ok (), m) := by
  cases ps with
  | nil => rfl
  | cons p above => exact makeAlong_of_isDirectory (isDirectory_of_makeAlong h) above

/-- Directories that could not be made cannot be made the next time either. By induction on the paths: where
those above fail again, this one leads nowhere. -/
theorem makeAlong_climb_of_error (n : Nat) (p : String) {d : Disk} {e : DiskFault}
    (h : d.makeAlong (Path.climb n p) = (.error e, m)) : ∃ e', m.makeAlong (Path.climb n p) = (.error e', m) := by
  induction n generalizing p d e with
  | zero => cases h
  | succ n ih =>
    unfold Path.climb at h ⊢
    rcases hp : Path.parent? p with _ | q <;> rw [hp] at h
    · cases h
    simp only at h ⊢
    by_cases hmissing : d.makeDir p = .error .missing
    · rw [makeAlong_of_missing hmissing] at h
      rcases hq : d.makeAlong (Path.climb n q) with ⟨e' | ⟨⟩, made⟩ <;> rw [hq] at h
      · cases h
        obtain ⟨e'', hagain⟩ := ih q hq
        by_cases hm : made.makeDir p = .error .missing
        · rw [makeAlong_of_missing hm, hagain]
          exact ⟨e'', rfl⟩
        · rw [makeAlong_of_not_missing hm]
          -- did it lead anywhere, there would be nothing to be made above it
          refine attempt_of_locate fun l hl => ?_
          rw [makeAlong_climb_of_locate hp hl] at hagain
          cases hagain
      · obtain ⟨hsame, -, -⟩ := attempt_eq_error h
        subst hsame
        refine ⟨e, ?_⟩
        by_cases hm : m.makeDir p = .error .missing
        · rw [makeAlong_of_missing hm, makeAlong_of_makeAlong hq]
          exact h
        · rw [makeAlong_of_not_missing hm]
          exact h
    · rw [makeAlong_of_not_missing hmissing] at h
      obtain ⟨hsame, -, -⟩ := attempt_eq_error h
      subst hsame
      exact ⟨e, by rw [makeAlong_of_not_missing hmissing, h]⟩

theorem write_eq_error {e : DiskFault} (h : d.write p c = .error e) (c' : Content) :
    ∃ e', d.write p c' = .error e' := by
  rcases hw : d.write p c' with e' | d'
  · exact ⟨e', rfl⟩
  · obtain ⟨l, hc, hl, hn, -⟩ := write_eq_ok_iff.1 hw
    rw [write_eq_ok_iff.2 ⟨l, hc, hl, hn, rfl⟩] at h
    cases h

theorem save_eq (d : Disk) (p : String) (c : Content) :
    d.save p c =
      match d.makeAbove p with
      | (.error e, m) => (.error e, m)
      | (.ok (), m) =>
        match m.write p c with
        | .ok m' => (.ok (), m')
        | .error e => (.error e, m) := by
  unfold save makeAbove
  rcases Path.parent? p with _ | q
  · rfl
  · rcases hm : d.makeDirs q with ⟨e | ⟨⟩, m⟩
    · simp only [hm]
    · rcases hw : m.write p c with e | m' <;> simp only [hm, hw]

/-- Where a file could not be saved none can be saved the next time, and nothing changes any more. -/
theorem save_of_save_eq_error {e : DiskFault} (h : d.save p c = (.error e, m)) (c' : Content) :
    ∃ e', m.save p c' = (.error e', m) := by
  rw [save_eq] at h
  rcases hm : d.makeAbove p with ⟨e' | ⟨⟩, made⟩ <;> rw [hm] at h
  · cases h
    obtain ⟨e'', hagain⟩ : ∃ e'', m.makeAbove p = (.error e'', m) := by
      unfold makeAbove at hm ⊢
      rcases hp : Path.parent? p with _ | q <;> rw [hp] at hm
      · cases hm
      · exact makeAlong_climb_of_error _ q hm
    exact ⟨e'', by rw [save_eq, hagain]⟩
  · rcases hw : made.write p c with e' | made' <;> simp only [hw] at h
    · cases h
      obtain ⟨e'', hagain⟩ := write_eq_error hw c'
      exact ⟨e'', by rw [save_eq, makeAbove_of_makeAbove hm fun _ => id]; simp only [hagain]⟩
    · cases h

/-- Where a file can be read, a file can be saved. -/
theorem save_of_readText {text : String} (h : d.readText p = .ok text) (c : Content) :
    ∃ l, d.save p c = (.ok (), d.put l (.file c)) := by
  unfold readText at h
  rcases hf : d.find p with e | ⟨l, n⟩ <;> rw [hf] at h
  · cases h
  obtain ⟨hl, hn, hclosed⟩ := find_eq_ok_iff.1 hf
  cases n with
  | directory => cases h
  | file content =>
    have hopen : Path.isClosed p = false := by
      rw [← Bool.not_eq_true]
      intro hc
      cases hclosed hc
    refine ⟨l, save_eq_ok_iff.2 ⟨d, makeAbove_of_locate hl, write_eq_ok_iff.2 ⟨l, hopen, hl, ?_, rfl⟩⟩⟩
    rw [hn]
    simp

end Disk

end RecentLaunches
