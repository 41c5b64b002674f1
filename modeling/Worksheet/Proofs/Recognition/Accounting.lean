import Mathlib.Data.List.Nodup
import Worksheet.Exercise.Basic
import Worksheet.Proofs.ErrorMap

namespace Worksheet.Recognition

open ErrorMap OrderedMap

def isQuestionLine (line : List Char) : Bool := line.head? = some '#'

def questionText (line : List Char) : String := .ofList (Chars.trim (line.drop 1))

namespace LineProblem

def stem : LineProblem → String
  | danglingQuestion _ _ => "parse.danglingQuestion.q"
  | missingSemicolon _ => "parse.missingSemicolon.line"
  | noQuestion _ => "parse.noQuestion.line"
  | brackets _ _ => "parse.brackets.line"
  | duplicateOption _ _ => "parse.duplicate.q"
  | danglingAtEnd _ => "parse.danglingQuestion"

def place : LineProblem → Option Nat
  | danglingQuestion position _ | duplicateOption position _ => some position
  | missingSemicolon line | noQuestion line | brackets line _ => some line
  | danglingAtEnd _ => none

def numberedStems : List String :=
  ["parse.danglingQuestion.q", "parse.missingSemicolon.line", "parse.noQuestion.line",
    "parse.brackets.line", "parse.duplicate.q"]

theorem atEnd_not_mem_numberedStems : "parse.danglingQuestion" ∉ numberedStems := by decide

theorem not_isUnder_atEnd : ∀ stem ∈ numberedStems, ¬ IsUnder stem "parse.danglingQuestion" := by
  decide

theorem key_of_place {p : LineProblem} {n : Nat} (h : p.place = some n) :
    p.key = p.stem ++ toString n := by
  cases p <;> cases h <;> rfl

theorem key_of_place_none {p : LineProblem} (h : p.place = none) :
    p.key = "parse.danglingQuestion" ∧ p.stem = "parse.danglingQuestion" := by
  cases p <;> cases h
  exact ⟨rfl, rfl⟩

theorem stem_mem_of_place {p : LineProblem} {n : Nat} (h : p.place = some n) :
    p.stem ∈ numberedStems := by
  cases p <;> cases h <;> simp [stem, numberedStems]

theorem stem_eq_of_isUnder {stem : String} (hs : stem ∈ numberedStems) {p : LineProblem}
    (h : IsUnder stem p.key) : p.stem = stem := by
  cases hp : p.place with
  | none =>
      rw [(key_of_place_none hp).1] at h
      exact absurd h (not_isUnder_atEnd stem hs)
  | some n =>
      rw [key_of_place hp] at h
      have hcomparable := h.comparable (isUnder_append p.stem (toString n))
      have hstems : ∀ a ∈ numberedStems, ∀ b ∈ numberedStems,
          IsUnder a b ∨ IsUnder b a → b = a := by decide
      exact hstems stem hs p.stem (stem_mem_of_place hp) hcomparable

theorem isNumbered_key_iff {stem : String} (hs : stem ∈ numberedStems) {p : LineProblem} :
    IsNumbered stem p.key ↔ p.stem = stem := by
  constructor
  · intro h
    exact stem_eq_of_isUnder hs h.isUnder
  · rintro rfl
    cases hp : p.place with
    | none =>
        rw [(key_of_place_none hp).2] at hs
        exact absurd hs atEnd_not_mem_numberedStems
    | some n => exact ⟨n, key_of_place hp⟩

theorem key_eq_atEnd_iff {p : LineProblem} :
    p.key = "parse.danglingQuestion" ↔ p.stem = "parse.danglingQuestion" := by
  cases hp : p.place with
  | none => exact iff_of_true (key_of_place_none hp).1 (key_of_place_none hp).2
  | some n =>
      have hstem := stem_mem_of_place hp
      refine iff_of_false (fun h => ?_) (fun h => atEnd_not_mem_numberedStems (h ▸ hstem))
      have hunder : IsUnder p.stem p.key := key_of_place hp ▸ isUnder_append _ _
      exact not_isUnder_atEnd p.stem hstem (h ▸ hunder)

theorem eq_of_key_eq {p q : LineProblem} (h : p.key = q.key) :
    p.stem = q.stem ∧ p.place = q.place := by
  cases hp : p.place with
  | none =>
      obtain ⟨hkey, hstem⟩ := key_of_place_none hp
      have hq : q.stem = "parse.danglingQuestion" := key_eq_atEnd_iff.mp (h.symm.trans hkey)
      refine ⟨hstem.trans hq.symm, ?_⟩
      cases hplace : q.place with
      | none => rfl
      | some n => exact absurd (hq ▸ stem_mem_of_place hplace) atEnd_not_mem_numberedStems
  | some n =>
      have hstem : q.stem = p.stem := by
        refine stem_eq_of_isUnder (stem_mem_of_place hp) ?_
        rw [← h, key_of_place hp]
        exact isUnder_append _ _
      refine ⟨hstem.symm, ?_⟩
      cases hq : q.place with
      | none =>
          have hend := (key_of_place_none hq).2.symm.trans hstem
          exact absurd (hend ▸ stem_mem_of_place hp) atEnd_not_mem_numberedStems
      | some m =>
          rw [key_of_place hp, key_of_place hq, hstem, append_toString_inj] at h
          rw [h]

def From (line question : Nat) : LineProblem → Prop
  | danglingQuestion position _ | duplicateOption position _ => question ≤ position
  | missingSemicolon number | noQuestion number | brackets number _ => line ≤ number
  | danglingAtEnd _ => True

theorem From.mono {line line' question question' : Nat} {p : LineProblem}
    (h : p.From line' question') (hl : line ≤ line') (hq : question ≤ question') :
    p.From line question := by
  cases p with
  | danglingQuestion position text => exact hq.trans h
  | missingSemicolon number => exact hl.trans h
  | noQuestion number => exact hl.trans h
  | brackets number fault => exact hl.trans h
  | duplicateOption position option => exact hq.trans h
  | danglingAtEnd text => trivial

theorem From.of_key_eq {line question : Nat} {p q : LineProblem} (h : q.From line question)
    (hkey : p.key = q.key) : p.From line question := by
  obtain ⟨hstem, hplace⟩ := eq_of_key_eq hkey
  cases p <;> cases q <;> simp_all [stem, place, From]

end LineProblem

inductive LineStep (line position : Nat) (cs : List Char) :
    Option String → Nat × Option String → List Question × List LineProblem → Prop
  | question {pending : Option String} (hash : isQuestionLine cs = true) :
      LineStep line position cs pending (position + 1, some (questionText cs))
        ([], (pending.map (.danglingQuestion position)).toList)
  | unterminated {pending : Option String} (hash : isQuestionLine cs = false)
      (open_ended : cs.getLast? ≠ some ';') :
      LineStep line position cs pending (position, pending) ([], [.missingSemicolon line])
  | stray (hash : isQuestionLine cs = false) (closed : cs.getLast? = some ';') :
      LineStep line position cs none (position, none) ([], [.noQuestion line])
  | unbalanced {text : String} {fault : Markup.BracketFault} (hash : isQuestionLine cs = false)
      (closed : cs.getLast? = some ';') (options : Markup.readOptionLine cs = .error fault) :
      LineStep line position cs (some text) (position, none) ([], [.brackets line fault])
  | options {text : String} {o : Markup.OptionLine} (hash : isQuestionLine cs = false)
      (closed : cs.getLast? = some ';') (options : Markup.readOptionLine cs = .ok o) :
      LineStep line position cs (some text) (position, none)
        ([⟨text, o.correct, o.options⟩],
          ((repeats [] o.options).head?.map (.duplicateOption position)).toList)

theorem exists_lineStep (line position : Nat) (cs : List Char) (pending : Option String) :
    ∃ next found, LineStep line position cs pending next found ∧
      ∀ rest, readLines line position pending (cs :: rest) =
        (found.1 ++ (readLines (line + 1) next.1 next.2 rest).1,
          found.2 ++ (readLines (line + 1) next.1 next.2 rest).2) := by
  by_cases hhash : cs.head? = some '#'
  · refine ⟨_, _, .question (decide_eq_true hhash), fun rest => ?_⟩
    rw [readLines.eq_def line position pending (cs :: rest)]
    simp only [hhash, if_true]
    rfl
  · have hash : isQuestionLine cs = false := decide_eq_false hhash
    by_cases hlast : cs.getLast? = some ';'
    · cases pending with
      | none =>
          refine ⟨_, _, .stray hash hlast, fun rest => ?_⟩
          rw [readLines, if_neg hhash, if_neg (not_not_intro hlast)]
          rfl
      | some text =>
          cases hoptions : Markup.readOptionLine cs with
          | error fault =>
              refine ⟨_, _, .unbalanced hash hlast hoptions, fun rest => ?_⟩
              rw [readLines, if_neg hhash, if_neg (not_not_intro hlast)]
              simp only [hoptions]
              rfl
          | ok o =>
              refine ⟨_, _, .options hash hlast hoptions, fun rest => ?_⟩
              rw [readLines, if_neg hhash, if_neg (not_not_intro hlast)]
              simp only [hoptions]
              rfl
    · refine ⟨_, _, .unterminated hash hlast, fun rest => ?_⟩
      rw [readLines.eq_def line position pending (cs :: rest)]
      simp only [hhash, if_false, hlast, ne_eq, not_false_eq_true, if_true]
      rfl

def countStem (stem : String) (problems : List LineProblem) : Nat :=
  problems.countP (·.stem = stem)

theorem countStem_append (stem : String) (problems others : List LineProblem) :
    countStem stem (problems ++ others) = countStem stem problems + countStem stem others :=
  List.countP_append

structure Accounting (lines : List (List Char)) (before after : Option String)
    (questions : List Question) (problems : List LineProblem) : Prop where
  hashes : lines.countP isQuestionLine + before.toList.length =
    questions.length + countStem "parse.danglingQuestion.q" problems +
      countStem "parse.danglingQuestion" problems + countStem "parse.brackets.line" problems +
      after.toList.length
  others : lines.countP (!isQuestionLine ·) =
    questions.length + countStem "parse.missingSemicolon.line" problems +
      countStem "parse.noQuestion.line" problems + countStem "parse.brackets.line" problems
  texts : (questions.map (·.question) ++ after.toList).Sublist
    (before.toList ++ (lines.filter isQuestionLine).map questionText)

theorem Accounting.append {lines rest : List (List Char)} {before between after : Option String}
    {questions questions' : List Question} {problems problems' : List LineProblem}
    (h : Accounting lines before between questions problems)
    (h' : Accounting rest between after questions' problems') :
    Accounting (lines ++ rest) before after (questions ++ questions') (problems ++ problems') where
  hashes := by
    have hlines := h.hashes
    have hrest := h'.hashes
    rw [List.countP_append, List.length_append, countStem_append, countStem_append,
      countStem_append]
    omega
  others := by
    have hlines := h.others
    have hrest := h'.others
    rw [List.countP_append, List.length_append, countStem_append, countStem_append,
      countStem_append]
    omega
  texts := by
    have hrest := h'.texts.append_left (questions.map (·.question))
    have hlines := h.texts.append_right ((rest.filter isQuestionLine).map questionText)
    rw [List.append_assoc] at hlines
    rw [List.map_append, List.append_assoc, List.filter_append, List.map_append,
      ← List.append_assoc before.toList]
    exact hrest.trans (by simpa only [List.append_assoc] using hlines)

theorem accounting_nil (line position : Nat) (pending : Option String) :
    let found := readLines line position pending []
    Accounting [] pending none found.1 found.2 where
  hashes := by cases pending <;> rfl
  others := by cases pending <;> rfl
  texts := List.nil_sublist _

def firstOpen (position : Nat) (pending : Option String) : Nat :=
  if pending.isSome then position else position + 1

namespace LineStep

variable {line position : Nat} {cs : List Char} {pending : Option String}
  {next : Nat × Option String} {found : List Question × List LineProblem}
  (h : LineStep line position cs pending next found)

include h

theorem accounting : Accounting [cs] pending next.2 found.1 found.2 := by
  cases h with
  | question hash =>
      constructor
      · cases pending <;> simp [countStem, LineProblem.stem, hash]
      · cases pending <;> simp [countStem, LineProblem.stem, hash]
      · simp [hash]
  | unterminated hash =>
      constructor
      · simp [countStem, LineProblem.stem, hash]
      · simp [countStem, LineProblem.stem, hash]
      · simp [hash]
  | stray hash =>
      constructor
      · simp [countStem, LineProblem.stem, hash]
      · simp [countStem, LineProblem.stem, hash]
      · simp
  | unbalanced hash =>
      constructor
      · simp [countStem, LineProblem.stem, hash]
      · simp [countStem, LineProblem.stem, hash]
      · simp
  | @options text o hash =>
      constructor
      · cases (repeats [] o.options).head? <;> simp [countStem, LineProblem.stem, hash]
      · cases (repeats [] o.options).head? <;> simp [countStem, LineProblem.stem, hash]
      · simp [hash]

theorem nodup_keys : (found.2.map LineProblem.key).Nodup := by
  cases h with
  | question => cases pending <;> simp
  | @options text o => cases (repeats [] o.options).head? <;> simp
  | _ => simp

theorem from_iff_of_mem {p : LineProblem} (hp : p ∈ found.2) :
    (∀ l q, p.From l q ↔ l ≤ line) ∨
      (∀ l q, p.From l q ↔ q ≤ position) ∧ firstOpen position pending = position ∧
        firstOpen next.1 next.2 = position + 1 := by
  cases h with
  | question =>
      obtain ⟨text, rfl, rfl⟩ : ∃ text, pending = some text ∧ .danglingQuestion position text = p := by
        simpa using hp
      exact Or.inr ⟨fun _ _ => Iff.rfl, rfl, rfl⟩
  | unterminated =>
      rw [List.mem_singleton.mp hp]
      exact Or.inl fun _ _ => Iff.rfl
  | stray =>
      rw [List.mem_singleton.mp hp]
      exact Or.inl fun _ _ => Iff.rfl
  | unbalanced =>
      rw [List.mem_singleton.mp hp]
      exact Or.inl fun _ _ => Iff.rfl
  | options =>
      obtain ⟨option, -, rfl⟩ : ∃ option, _ = some option ∧ .duplicateOption position option = p := by
        simpa using hp
      exact Or.inr ⟨fun _ _ => Iff.rfl, rfl, rfl⟩

theorem from_of_mem {p : LineProblem} (hp : p ∈ found.2) :
    p.From line (firstOpen position pending) := by
  rcases h.from_iff_of_mem hp with hfrom | ⟨hfrom, hopen, -⟩
  · exact (hfrom _ _).mpr (Nat.le_refl line)
  · exact (hfrom _ _).mpr hopen.le

theorem not_from_of_mem {p : LineProblem} (hp : p ∈ found.2) :
    ¬ p.From (line + 1) (firstOpen next.1 next.2) := by
  intro hlater
  rcases h.from_iff_of_mem hp with hfrom | ⟨hfrom, -, hopen⟩
  · exact Nat.not_succ_le_self line ((hfrom _ _).mp hlater)
  · have hle := (hfrom _ _).mp hlater
    rw [hopen] at hle
    exact Nat.not_succ_le_self position hle

theorem firstOpen_le : firstOpen position pending ≤ firstOpen next.1 next.2 := by
  cases h with
  | question => cases pending <;> simp [firstOpen]
  | _ => simp [firstOpen]

theorem key_ne_of_from {p q : LineProblem} (hp : p ∈ found.2)
    (hq : q.From (line + 1) (firstOpen next.1 next.2)) : p.key ≠ q.key := by
  intro hkey
  exact h.not_from_of_mem hp (hq.of_key_eq hkey)

end LineStep

theorem accounting_readLines (lines : List (List Char)) :
    ∀ line position pending,
      let found := readLines line position pending lines
      Accounting lines pending none found.1 found.2 := by
  induction lines with
  | nil => exact accounting_nil
  | cons cs rest ih =>
      intro line position pending
      obtain ⟨next, found, hstep, hread⟩ := exists_lineStep line position cs pending
      have hrest := ih (line + 1) next.1 next.2
      rw [hread]
      exact hstep.accounting.append hrest

theorem keys_readLines (lines : List (List Char)) :
    ∀ line position pending,
      let problems := (readLines line position pending lines).2
      (problems.map LineProblem.key).Nodup ∧
        ∀ p ∈ problems, p.From line (firstOpen position pending) := by
  induction lines with
  | nil =>
      intro line position pending
      cases pending <;> simp [readLines, LineProblem.From]
  | cons cs rest ih =>
      intro line position pending
      obtain ⟨next, found, hstep, hread⟩ := exists_lineStep line position cs pending
      obtain ⟨hnodup, hfrom⟩ := ih (line + 1) next.1 next.2
      simp only [hread, List.map_append, List.nodup_append, List.mem_append, List.mem_map]
      refine ⟨⟨hstep.nodup_keys, hnodup, ?_⟩, ?_⟩
      · rintro _ ⟨p, hp, rfl⟩ _ ⟨q, hq, rfl⟩
        exact hstep.key_ne_of_from hp (hfrom q hq)
      · rintro p (hp | hp)
        · exact hstep.from_of_mem hp
        · exact (hfrom p hp).mono (Nat.le_succ line) hstep.firstOpen_le

section CountedLines

def CommentFree (line : List Char) : Prop :=
  ∀ before after, line = before ++ ';' :: after → Markup.startsComment after = false

-- `cut` is the line up to its first semicolon that a comment follows, or all of a line without
-- one.
def IsCut (line cut : List Char) : Prop :=
  (CommentFree line ∧ cut = line) ∨
    ∃ before note, line = before ++ ';' :: note ∧ Markup.startsComment note = true ∧
      (∀ shorter after, line = shorter ++ ';' :: after → Markup.startsComment after = true →
        before.length ≤ shorter.length) ∧
      cut = before ++ [';']

theorem isCut_cons {c : Char} {cs cut : List Char}
    (hc : (c == ';' && Markup.startsComment cs) = false) (h : IsCut cs cut) :
    IsCut (c :: cs) (c :: cut) := by
  rcases h with ⟨hfree, rfl⟩ | ⟨before, note, rfl, hnote, hfirst, rfl⟩
  · refine Or.inl ⟨?_, rfl⟩
    intro before after heq
    cases before with
    | nil =>
        obtain ⟨rfl, rfl⟩ := List.cons.inj heq
        simpa using hc
    | cons d before => exact hfree before after (List.cons.inj heq).2
  · refine Or.inr ⟨c :: before, note, rfl, hnote, ?_, rfl⟩
    intro shorter after heq hafter
    cases shorter with
    | nil =>
        obtain ⟨rfl, rfl⟩ := List.cons.inj heq
        simp [hafter] at hc
    | cons d shorter =>
        exact Nat.succ_le_succ (hfirst shorter after (List.cons.inj heq).2 hafter)

theorem isCut_cutComment (line : List Char) : IsCut line (cutComment line) := by
  induction line with
  | nil => exact Or.inl ⟨fun before after heq => by simp at heq, rfl⟩
  | cons c cs ih =>
      rw [cutComment]
      split
      · next hc =>
          obtain ⟨rfl, hnote⟩ := by simpa using hc
          exact Or.inr ⟨[], cs, rfl, hnote, fun _ _ _ _ => Nat.zero_le _, rfl⟩
      · next hc => exact isCut_cons (Bool.eq_false_iff.mpr hc) ih

def AreCounted (text : List Char) (counted : List (List Char)) : Prop :=
  ∃ said, List.Forall₂ (fun line cut => IsCut (Chars.trim line) cut) (Chars.lines text) said ∧
    counted = said.filter (fun line => line ≠ [] ∧ ¬ ['/', '/'] <+: line)

theorem areCounted_countedLines (source : List Char) : AreCounted source (countedLines source) := by
  refine ⟨(Chars.lines source).map (fun line => cutComment (Chars.trim line)), ?_, ?_⟩
  · rw [List.forall₂_map_right_iff, List.forall₂_same]
    exact fun line _ => isCut_cutComment (Chars.trim line)
  · refine List.filter_congr (fun line _ => ?_)
    rw [isCommentLine, Bool.eq_iff_iff]
    simp [← List.isPrefixOf_iff_prefix]

end CountedLines

section Report

variable {text : String}

theorem accounting_read (text : String) :
    Accounting (countedLines text.toList) none none (read text).1.questions (read text).2 :=
  accounting_readLines (countedLines text.toList) 1 0 none

theorem nodup_keys_read (text : String) : ((read text).2.map Problem.key).Nodup :=
  (keys_readLines (countedLines text.toList) 1 0 none).1

theorem countNumbered_errors {stem : String} (hs : stem ∈ LineProblem.numberedStems) :
    (Exercise.read .recognition text).errors.countNumbered stem =
      countStem stem (read text).2 := by
  rw [Exercise.read_recognition, countNumbered, keys_ofProblems (nodup_keys_read text),
    List.countP_map]
  refine List.countP_congr fun p _ => ?_
  have hp := LineProblem.isNumbered_key_iff hs (p := p)
  simp only [Function.comp_apply, decide_eq_true_eq]
  exact hp

theorem atEnd_errors :
    (if "parse.danglingQuestion" ∈ (Exercise.read .recognition text).errors.keys then 1 else 0) =
      countStem "parse.danglingQuestion" (read text).2 := by
  rw [Exercise.read_recognition, keys_ofProblems (nodup_keys_read text),
    ← (nodup_keys_read text).count, List.count_eq_countP, List.countP_map]
  refine List.countP_congr fun p _ => ?_
  have hp := LineProblem.key_eq_atEnd_iff (p := p)
  simp only [Function.comp_apply, beq_iff_eq, decide_eq_true_eq]
  exact hp

end Report

theorem lines_accounted (text : String) :
    let lines := countedLines text.toList
    let report := (Exercise.read .recognition text).errors
    AreCounted text.toList lines ∧
    ∃ questions, (Exercise.read .recognition text).exercise = .recognition ⟨questions⟩ ∧
      lines.countP isQuestionLine =
        questions.length + report.countNumbered "parse.danglingQuestion.q" +
          (if "parse.danglingQuestion" ∈ report.keys then 1 else 0) +
          report.countNumbered "parse.brackets.line" ∧
      lines.countP (!isQuestionLine ·) =
        questions.length + report.countNumbered "parse.missingSemicolon.line" +
          report.countNumbered "parse.noQuestion.line" +
          report.countNumbered "parse.brackets.line" ∧
      (questions.map (·.question)).Sublist ((lines.filter isQuestionLine).map questionText) := by
  intro lines report
  have haccounting := accounting_read text
  refine ⟨areCounted_countedLines text.toList, (read text).1.questions,
    by rw [Exercise.read_recognition], ?_, ?_, ?_⟩
  · rw [atEnd_errors, countNumbered_errors (by decide), countNumbered_errors (by decide)]
    have hhashes := haccounting.hashes
    rwa [Option.toList_none, List.length_nil, Nat.add_zero, Nat.add_zero] at hhashes
  · rw [countNumbered_errors (by decide), countNumbered_errors (by decide),
      countNumbered_errors (by decide)]
    exact haccounting.others
  · have htexts := haccounting.texts
    rwa [Option.toList_none, List.append_nil, List.nil_append] at htexts

end Worksheet.Recognition
