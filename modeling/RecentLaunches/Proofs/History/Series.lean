/-
Runs of steps, and series of launches. Whatever is kept by one step holds along a whole run (`Along.keeps`).
A series of launches is recorded in a book one after the other; each is answered, and those answered with
yes are the accepted ones.
-/
import RecentLaunches.Proofs.History.Book

namespace RecentLaunches

/-! ## Runs -/

section

variable {α β : Type} {step : β → α → β} {P Q : β → α → Prop} {I : β → Prop}

/-- Whether something holds at every step of a run: of the state that the step meets, and of the step. -/
def Along (step : β → α → β) (P : β → α → Prop) : β → List α → Prop
  | _, [] => True
  | b, x :: xs => P b x ∧ Along step P (step b x) xs

instance Along.decidable [∀ b x, Decidable (P b x)] : ∀ (b : β) (xs : List α), Decidable (Along step P b xs)
  | _, [] => inferInstanceAs (Decidable True)
  | b, x :: xs =>
    have : Decidable (Along step P (step b x) xs) := decidable (step b x) xs
    inferInstanceAs (Decidable (P b x ∧ Along step P (step b x) xs))

theorem Along.of_forall (h : ∀ b x, P b x) : ∀ (xs : List α) (b : β), Along step P b xs
  | [], _ => trivial
  | x :: xs, b => ⟨h b x, of_forall h xs (step b x)⟩

theorem Along.and : ∀ {xs : List α} {b : β}, Along step P b xs → Along step Q b xs →
    Along step (fun b x => P b x ∧ Q b x) b xs
  | [], _, _, _ => trivial
  | _ :: _, _, hp, hq => ⟨⟨hp.1, hq.1⟩, hp.2.and hq.2⟩

/-- An invariant that every step keeps holds in the end, and all that follows from it holds along the
run. -/
theorem Along.keeps (hstep : ∀ b x, I b → P b x → I (step b x) ∧ Q b x) {xs : List α} {b : β} (hI : I b)
    (h : Along step P b xs) : I (xs.foldl step b) ∧ Along step Q b xs := by
  induction xs generalizing b with
  | nil => exact ⟨hI, trivial⟩
  | cons x xs ih =>
    obtain ⟨hP, hrest⟩ := h
    obtain ⟨hI', hQ⟩ := hstep b x hI hP
    obtain ⟨hend, halong⟩ := ih hI' hrest
    exact ⟨hend, hQ, halong⟩

end

/-! ## Series of launches -/

namespace Book

variable {σ : Type} {S : Store σ} {b : Book σ}

/-- What a launch is answered when it is recorded. -/
def answer (S : Store σ) (b : Book σ) (launch : Launch) : Except Violation Bool :=
  (b.history.record S b.store launch).verdict

/-- The launches of a series are recorded one after the other. -/
def recordAll (S : Store σ) (b : Book σ) (launches : List Launch) : Book σ :=
  launches.foldl (record S) b

/-- The launches of a series that are answered with yes. -/
def accepted (S : Store σ) : Book σ → List Launch → List Launch
  | _, [] => []
  | b, x :: xs =>
    if b.answer S x = .ok true then x :: accepted S (b.record S x) xs else accepted S (b.record S x) xs

/-- What holds of a book and the log of its accepted launches is kept by a series, if an accepted launch
keeps it with the log that ends with it, and a refused one with the same log. -/
theorem recordAll_keeps {I : List Launch → Book σ → Prop}
    (hstep : ∀ log b launch, I log b →
      (b.answer S launch = .ok true ∧ I (log ++ [launch]) (b.record S launch)) ∨
        (b.answer S launch ≠ .ok true ∧ I log (b.record S launch)))
    (launches : List Launch) {log : List Launch} (hI : I log b) :
    I (log ++ b.accepted S launches) (b.recordAll S launches) := by
  induction launches generalizing b log with
  | nil =>
    rw [accepted, List.append_nil]
    exact hI
  | cons launch launches ih =>
    show I _ ((b.record S launch).recordAll S launches)
    rw [accepted]
    rcases hstep log b launch hI with ⟨ha, hnext⟩ | ⟨ha, hnext⟩
    · have hlog : log ++ launch :: accepted S (b.record S launch) launches =
          (log ++ [launch]) ++ accepted S (b.record S launch) launches := by
        rw [List.append_assoc, List.singleton_append]
      rw [if_pos ha, hlog]
      exact ih hnext
    · rw [if_neg ha]
      exact ih hnext

end Book

end RecentLaunches
