import Mathlib.Data.Finset.Card
import Worksheet.Grade
import Worksheet.Proofs.Score

namespace Worksheet

variable {verdict : Verdict} {verdicts : List ItemVerdict}

theorem countOf_le_length : countOf verdict verdicts ≤ verdicts.length := List.countP_le_length

theorem countOf_eq_length_iff :
    countOf verdict verdicts = verdicts.length ↔ ∀ v ∈ verdicts, v.verdict = verdict := by
  simp [countOf, List.countP_eq_length]

theorem countOf_append (others : List ItemVerdict) :
    countOf verdict (verdicts ++ others) = countOf verdict verdicts + countOf verdict others :=
  List.countP_append

theorem countOf_map (category : Option String) (f : String → Verdict) (items : List String) :
    countOf verdict (items.map (fun item => ⟨item, category, f item⟩)) =
      items.countP (f · = verdict) := by
  rw [countOf, List.countP_map]
  rfl

theorem length_eq_card {α : Type} [DecidableEq α] {l : List α} {s : Finset α} (hn : l.Nodup)
    (h : ∀ a, a ∈ l ↔ a ∈ s) : l.length = s.card := by
  rw [← List.toFinset_card_of_nodup hn]
  congr 1
  ext a
  rw [List.mem_toFinset, h a]

theorem countOf_eq_zero (h : ∀ v ∈ verdicts, v.verdict ≠ verdict) : countOf verdict verdicts = 0 := by
  simpa [countOf, List.countP_eq_zero] using h

theorem foldl_eq_of_step {σ α β : Type} (act : σ → List β → σ) (hnil : ∀ s, act s [] = s)
    (happend : ∀ s l m, act (act s l) m = act s (l ++ m)) {step : σ → α → σ} {f : α → List β}
    (hstep : ∀ s a, step s a = act s (f a)) (s : σ) (l : List α) :
    l.foldl step s = act s (l.flatMap f) := by
  induction l generalizing s with
  | nil => exact (hnil s).symm
  | cons a l ih => rw [List.foldl_cons, hstep, ih, happend, List.flatMap_cons]

theorem foldl_push_eq {α : Type} {step : Array ItemVerdict → α → Array ItemVerdict}
    {f : α → List ItemVerdict} (hstep : ∀ vs a, step vs a = vs ++ (f a).toArray)
    (vs : Array ItemVerdict) (l : List α) : l.foldl step vs = vs ++ (l.flatMap f).toArray :=
  foldl_eq_of_step (fun vs more => vs ++ more.toArray) (fun _ => by simp) (fun _ _ _ => by simp)
    hstep vs l

def Tally.including (t : Tally) (more : List ItemVerdict) : Tally :=
  ⟨t.correct + countOf .correct more, t.verdicts ++ more.toArray⟩

theorem Tally.foldl_eq_including {α : Type} {step : Tally → α → Tally} {f : α → List ItemVerdict}
    (hstep : ∀ t a, step t a = t.including (f a)) (t : Tally) (l : List α) :
    l.foldl step t = t.including (l.flatMap f) :=
  foldl_eq_of_step including (fun _ => by simp [including, countOf])
    (fun _ _ _ => by simp [including, countOf_append, Nat.add_assoc]) hstep t l

def UnitTally.including (t : UnitTally) (more : List ItemVerdict) : UnitTally :=
  ⟨t.correct + countOf .correct more, t.total + more.length, t.verdicts ++ more.toArray⟩

theorem UnitTally.foldl_eq_including {α : Type} {step : UnitTally → α → UnitTally}
    {f : α → List ItemVerdict} (hstep : ∀ t a, step t a = t.including (f a)) (t : UnitTally)
    (l : List α) : l.foldl step t = t.including (l.flatMap f) :=
  foldl_eq_of_step including (fun _ => by simp [including, countOf])
    (fun _ _ _ => by simp [including, countOf_append, Nat.add_assoc]) hstep t l

structure Grade.Bounded (g : Grade) : Prop where
  correct_le_total : g.correct ≤ g.total
  inRange : g.InRange

def Grade.IsTallied (g : Grade) : Prop := g.correct = countOf .correct g.verdicts

theorem Grade.inRange_of_share {g : Grade} {correct total : Nat}
    (hscore : g.score = .share correct total) (h : correct ≤ total) : g.InRange := by
  rw [InRange, hscore]
  exact Score.inRange_share h

end Worksheet
