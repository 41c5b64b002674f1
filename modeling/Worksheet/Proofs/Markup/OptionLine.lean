import Worksheet.Markup.OptionLine
import Worksheet.Proofs.Markup.Items

namespace Worksheet.Markup

open Chars

namespace OptionLine

def addAll (inBrackets : Bool) (items : List String) (o : OptionLine) : OptionLine :=
  items.foldr (add inBrackets) o

theorem addAll_filter (inBrackets : Bool) (items : List String) (o : OptionLine) :
    addAll inBrackets (items.filter (· ≠ "")) o = addAll inBrackets items o := by
  induction items with
  | nil => rfl
  | cons item items ih =>
      by_cases h : item = ""
      · rw [List.filter_cons_of_neg (by simpa using h), ih]
        simp [addAll, add, h]
      · rw [List.filter_cons_of_pos (by simpa using h)]
        exact congrArg (add inBrackets item) ih

theorem addAll_true {items : List String} (h : "" ∉ items) (o : OptionLine) :
    addAll true items o = { o with correct := items ++ o.correct } := by
  induction items with
  | nil => rfl
  | cons item items ih =>
      rw [List.mem_cons, not_or] at h
      rw [addAll, List.foldr_cons, ← addAll, ih h.2, add, if_neg (Ne.symm h.1)]
      rfl

theorem addAll_false {items : List String} (h : "" ∉ items) (o : OptionLine) :
    addAll false items o = { o with incorrect := items ++ o.incorrect } := by
  induction items with
  | nil => rfl
  | cons item items ih =>
      rw [List.mem_cons, not_or] at h
      rw [addAll, List.foldr_cons, ← addAll, ih h.2, add, if_neg (Ne.symm h.1)]
      rfl

end OptionLine

section Options

variable {source : List Char} {opening : Option Token} {rest : List Token}
  {r : Except BracketFault OptionLine}

theorem readOptions_cons_of_pipe {t : Token} (ht : t.kind = .mark .pipe) (pending ts : List Token) :
    readOptions source opening pending (t :: ts) =
      (readOptions source opening [] ts).map (OptionLine.addItem opening.isSome source pending) := by
  rw [readOptions.eq_def]
  simp only [ht]

theorem readOptions_cons_of_open {t : Token} (ht : t.kind = .mark .openBracket)
    (pending ts : List Token) :
    readOptions source none pending (t :: ts) =
      (readOptions source (some t) [] ts).map (OptionLine.addItem false source pending) := by
  rw [readOptions.eq_def]
  simp only [ht]

theorem readOptions_cons_of_close {t : Token} (ht : t.kind = .mark .closeBracket) (bracket : Token)
    (pending ts : List Token) :
    readOptions source (some bracket) pending (t :: ts) =
      (readOptions source none [] ts).map (OptionLine.addItem true source pending) := by
  rw [readOptions.eq_def]
  simp only [ht]

theorem readOptions_cons_of_text {t : Token} (hp : t.kind ≠ .mark .pipe)
    (ho : t.kind ≠ .mark .openBracket) (hc : t.kind ≠ .mark .closeBracket)
    (pending ts : List Token) :
    readOptions source opening pending (t :: ts) =
      readOptions source opening (t :: pending) ts := by
  rw [readOptions.eq_def]
  simp only
  split
  · contradiction
  · contradiction
  · contradiction
  · contradiction
  · contradiction
  · rfl

theorem readOptions_append
    (hrest : ∀ pending, readOptions source opening pending rest =
      r.map (OptionLine.addItem opening.isSome source pending)) {ts : List Token}
    (hts : ∀ t ∈ ts, t.kind ≠ .mark .openBracket ∧ t.kind ≠ .mark .closeBracket) :
    ∀ {pending : List Token}, (∀ t ∈ pending, t.kind ≠ .mark .pipe) →
      readOptions source opening pending (ts ++ rest) =
        r.map (OptionLine.addAll opening.isSome
          ((pieces (·.kind = .mark .pipe) (pending.reverse ++ ts)).map (sliceText source))) := by
  have hpieces : ∀ {pending : List Token}, (∀ t ∈ pending, t.kind ≠ .mark .pipe) →
      ∀ t ∈ pending.reverse, decide (t.kind = .mark .pipe) = false :=
    fun hp t ht => decide_eq_false (hp t (List.mem_reverse.mp ht))
  induction ts with
  | nil =>
      intro pending hp
      rw [List.nil_append, hrest, List.append_nil, pieces_of_forall_not (hpieces hp)]
      rfl
  | cons t ts ih =>
      intro pending hp
      obtain ⟨ho, hc⟩ := hts t List.mem_cons_self
      have htail := @ih (fun u hu => hts u (List.mem_cons_of_mem _ hu))
      by_cases ht : t.kind = .mark .pipe
      · have hnone : ∀ u ∈ ([] : List Token), u.kind ≠ .mark .pipe :=
          fun u hu => absurd hu List.not_mem_nil
        rw [List.cons_append, readOptions_cons_of_pipe ht, htail hnone,
          pieces_append_cons (by simpa using ht) _ (hpieces hp)]
        cases r <;> rfl
      · have hpending : ∀ u ∈ t :: pending, u.kind ≠ .mark .pipe := by
          intro u hu
          rcases List.mem_cons.mp hu with rfl | hu
          · exact ht
          · exact hp u hu
        rw [List.cons_append, readOptions_cons_of_text ht ho hc, htail hpending, List.reverse_cons,
          List.append_assoc, List.singleton_append]

theorem readOptions_append_of_error {fault : BracketFault} {ts : List Token}
    (hrest : ∀ pending, readOptions source opening pending rest = .error fault)
    (hts : ∀ t ∈ ts, t.kind ≠ .mark .openBracket ∧ t.kind ≠ .mark .closeBracket) :
    readOptions source opening [] (ts ++ rest) = .error fault :=
  readOptions_append (r := .error fault) hrest hts (fun _ ht => absurd ht List.not_mem_nil)

end Options

def brackets (s : List Char) : List Char := s.filter (fun c => c = '[' ∨ c = ']')

theorem brackets_eq_nil_iff {s : List Char} : brackets s = [] ↔ ∀ c ∈ s, c ≠ '[' ∧ c ≠ ']' := by
  simp only [brackets, List.filter_eq_nil_iff, decide_eq_true_eq, not_or]

section Stretch

variable {opening : Option Token} {rest : List Token} {r : Except BracketFault OptionLine}
  {cs : List Char} {line start : Nat}

theorem kind_of_mem_unbracketed (h : brackets cs = []) :
    ∀ t ∈ flatTokens line start cs, t.kind ≠ .mark .openBracket ∧ t.kind ≠ .mark .closeBracket := by
  intro t ht
  have hcs := brackets_eq_nil_iff.mp h
  exact ⟨kind_ne_of_mem_flatTokens (fun hmem => (hcs '[' hmem).1 rfl) ht,
    kind_ne_of_mem_flatTokens (fun hmem => (hcs ']' hmem).2 rfl) ht⟩

theorem readOptions_flatTokens (h : brackets cs = []) {pre post : List Char}
    (hrest : ∀ pending, readOptions (pre ++ (cs ++ post)) opening pending rest =
      r.map (OptionLine.addItem opening.isSome (pre ++ (cs ++ post)) pending)) :
    readOptions (pre ++ (cs ++ post)) opening [] (flatTokens line pre.length cs ++ rest) =
      r.map (OptionLine.addAll opening.isSome (splitPipes cs)) := by
  rw [readOptions_append hrest (kind_of_mem_unbracketed h) (fun t ht => absurd ht List.not_mem_nil),
    List.reverse_nil, List.nil_append, map_sliceText_flatTokens, splitPipes]
  congr 1
  funext o
  exact (OptionLine.addAll_filter _ _ o).symm

end Stretch

theorem empty_not_mem_splitPipes (cs : List Char) : "" ∉ splitPipes cs := by
  intro h
  exact absurd rfl (of_decide_eq_true (List.mem_filter.mp h).2)

end Worksheet.Markup
