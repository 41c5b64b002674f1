import Worksheet.Exercise.Basic
import Worksheet.Proofs.Markup.OptionBrackets
import Worksheet.Proofs.Text.Lines

namespace Worksheet.Recognition

open Chars Markup Text

theorem cutComment_append {cs : List Char} (h : ';' ∉ cs) (rest : List Char) :
    cutComment (cs ++ rest) = cs ++ cutComment rest := by
  induction cs with
  | nil => rfl
  | cons c cs ih =>
      rw [List.mem_cons, not_or] at h
      have hc : (c == ';') = false := beq_false_of_ne (Ne.symm h.1)
      rw [List.cons_append, cutComment, hc, ih h.2]
      rfl

structure Entry where
  question : String
  correct : List String
  incorrect : List String

namespace Entry

structure WellFormed (e : Entry) : Prop where
  trim_question : Text.trim e.question = e.question
  question_on_line : ∀ c ∈ e.question.toList, c ≠ '\n' ∧ c ≠ ';'
  nodup_options : (e.correct ++ e.incorrect).Nodup
  isPlain_options : ∀ option ∈ e.correct ++ e.incorrect, IsPlain option

instance (e : Entry) : Decidable e.WellFormed :=
  decidable_of_iff
    (Text.trim e.question = e.question ∧
      e.question.toList.all (fun c => c ≠ '\n' ∧ c ≠ ';') = true ∧
      (e.correct ++ e.incorrect).Nodup ∧ ∀ option ∈ e.correct ++ e.incorrect, IsPlain option) <| by
    rw [List.all_eq_true]
    exact ⟨fun ⟨ht, hb, hn, hp⟩ => ⟨ht, fun c hc => of_decide_eq_true (hb c hc), hn, hp⟩,
      fun h => ⟨h.trim_question, fun c hc => decide_eq_true (h.question_on_line c hc),
        h.nodup_options, h.isPlain_options⟩⟩

def questionLine (e : Entry) : List Char := "# ".toList ++ e.question.toList

def optionLine (e : Entry) : List Char :=
  joinPipes (.ofList ('[' :: (joinPipes e.correct ++ [']'])) :: e.incorrect) ++ [';']

def lines (e : Entry) : List (List Char) := [e.questionLine, e.optionLine]

def toQuestion (e : Entry) : Question := ⟨e.question, e.correct, e.correct ++ e.incorrect⟩

variable {e : Entry}

theorem toList_question (h : e.WellFormed) : Chars.trim e.question.toList = e.question.toList := by
  rw [← String.toList_ofList (l := Chars.trim e.question.toList)]
  exact congrArg String.toList h.trim_question

theorem trim_questionLine (h : e.WellFormed) :
    Chars.trim e.questionLine =
      if e.question.toList = [] then ['#'] else '#' :: ' ' :: e.question.toList := by
  have hquestion := trimStart_and_trimEnd_of_trim_eq (toList_question h)
  rw [questionLine]
  split
  · next hnil =>
      rw [hnil]
      rfl
  · next hne =>
      have hstart : trimStart ("# ".toList ++ e.question.toList) = "# ".toList ++ e.question.toList :=
        List.dropWhile_cons_of_neg (by decide)
      rw [Chars.trim, hstart, trimEnd_append (by rw [hquestion.2]; exact hne), hquestion.2]
      rfl

theorem trim_drop_questionLine (h : e.WellFormed) :
    Chars.trim ((Chars.trim e.questionLine).drop 1) = e.question.toList := by
  rw [trim_questionLine h]
  split
  · next hnil =>
      rw [hnil]
      rfl
  · have hspace : trimStart (' ' :: e.question.toList) = trimStart e.question.toList :=
      List.dropWhile_cons_of_pos (by decide)
    rw [List.drop_one, List.tail_cons, Chars.trim, hspace]
    exact toList_question h

theorem optionLine_eq (e : Entry) :
    e.optionLine = '[' :: (joinPipes e.correct ++ ']' :: (barred e.incorrect ++ [';'])) := by
  rw [optionLine, joinPipes_cons, String.toList_ofList]
  simp

theorem trim_optionLine (e : Entry) : Chars.trim e.optionLine = e.optionLine := by
  have hmid : e.optionLine =
      [] ++ '[' :: ((joinPipes e.correct ++ ']' :: barred e.incorrect) ++ ';' :: []) := by
    simp [optionLine_eq]
  rw [hmid, trim_append_append (fun _ hc => absurd hc List.not_mem_nil)
    (fun _ hc => absurd hc List.not_mem_nil) (by decide) (by decide)]
  rfl

section Options

variable (h : e.WellFormed)

include h

theorem correct_plain : ∀ c ∈ joinPipes e.correct, c ∉ ['\n', ';', '[', ']'] :=
  fun _ hc => mem_joinPipes (fun option ho => h.isPlain_options option (List.mem_append_left _ ho)) hc

theorem incorrect_plain : ∀ c ∈ barred e.incorrect, c ∉ ['\n', ';', '[', ']'] :=
  fun _ hc => mem_barred (fun option ho => h.isPlain_options option (List.mem_append_right _ ho)) hc

theorem readOptionLine_optionLine : readOptionLine e.optionLine = .ok ⟨e.correct, e.incorrect⟩ := by
  obtain ⟨hcorrect, hcorrect'⟩ := isBody_and_unbracketed (correct_plain h)
  obtain ⟨hincorrect, hincorrect'⟩ := isBody_and_unbracketed (incorrect_plain h)
  rw [optionLine_eq, readOptionLine_brackets hcorrect hincorrect hcorrect' hincorrect',
    splitPipes_joinPipes (fun option ho => h.isPlain_options option (List.mem_append_left _ ho)),
    splitPipes_barred (fun option ho => h.isPlain_options option (List.mem_append_right _ ho))]

theorem cutComment_optionLine : cutComment e.optionLine = e.optionLine := by
  have hline : e.optionLine = ('[' :: (joinPipes e.correct ++ ']' :: barred e.incorrect)) ++ [';'] := by
    simp [optionLine_eq]
  have hsemicolon : ';' ∉ '[' :: (joinPipes e.correct ++ ']' :: barred e.incorrect) := by
    simp only [List.mem_cons, List.mem_append, not_or]
    exact ⟨by decide, fun hc => correct_plain h _ hc (by decide), by decide,
      fun hc => incorrect_plain h _ hc (by decide)⟩
  rw [hline, cutComment_append hsemicolon]
  rfl

theorem cutComment_questionLine :
    cutComment (Chars.trim e.questionLine) = Chars.trim e.questionLine := by
  have hsemicolon : ';' ∉ Chars.trim e.questionLine := by
    rw [trim_questionLine h]
    split
    · decide
    · simp only [List.mem_cons, not_or]
      exact ⟨by decide, by decide, fun hc => (h.question_on_line _ hc).2 rfl⟩
  have hcut := cutComment_append hsemicolon []
  rwa [List.append_nil, cutComment, List.append_nil] at hcut

theorem newline_not_mem_lines : ∀ l ∈ e.lines, '\n' ∉ l := by
  intro l hl
  rw [lines, List.mem_cons, List.mem_singleton] at hl
  rcases hl with rfl | rfl
  · intro hn
    rcases List.mem_append.mp hn with hn | hn
    · exact absurd hn (by decide)
    · exact (h.question_on_line _ hn).1 rfl
  · rw [optionLine_eq]
    simp only [List.mem_cons, List.mem_append, not_or]
    exact ⟨by decide, fun hc => correct_plain h _ hc (by decide), by decide,
      fun hc => incorrect_plain h _ hc (by decide), by decide⟩

def counted (e : Entry) : List (List Char) := [Chars.trim e.questionLine, e.optionLine]

theorem head_questionLine : (Chars.trim e.questionLine).head? = some '#' := by
  rw [trim_questionLine h]
  split <;> rfl

theorem filter_counted :
    e.counted.filter (fun line => line ≠ [] && !isCommentLine line) = e.counted := by
  rw [List.filter_eq_self]
  intro l hl
  rw [counted, List.mem_cons, List.mem_singleton] at hl
  rcases hl with rfl | rfl
  · obtain ⟨rest, hrest⟩ := List.head?_eq_some_iff.mp (head_questionLine h)
    have hcomment : isCommentLine ('#' :: rest) = false := rfl
    simp [hrest, hcomment]
  · rw [optionLine_eq]
    have hcomment : ∀ rest, isCommentLine ('[' :: rest) = false := fun _ => rfl
    simp [hcomment]

theorem map_cut_lines :
    e.lines.map (fun line => cutComment (Chars.trim line)) = e.counted := by
  rw [lines, List.map_cons, List.map_singleton, cutComment_questionLine h, trim_optionLine,
    cutComment_optionLine h, counted]

theorem readLines_counted (line position : Nat) (rest : List (List Char)) :
    readLines line position none (e.counted ++ rest) =
      (e.toQuestion :: (readLines (line + 2) (position + 1) none rest).1,
        (readLines (line + 2) (position + 1) none rest).2) := by
  have hfirst : ∀ others, readLines line position none (Chars.trim e.questionLine :: others) =
      readLines (line + 1) (position + 1) (some e.question) others := by
    intro others
    rw [readLines, if_pos (head_questionLine h), trim_drop_questionLine h, String.ofList_toList]
    rfl
  have hhead : e.optionLine.head? ≠ some '#' := by
    rw [optionLine_eq, List.head?_cons]
    decide
  have hlast : e.optionLine.getLast? = some ';' := by
    rw [optionLine, List.getLast?_concat]
  have hrepeats : repeats [] (e.correct ++ e.incorrect) = [] :=
    repeats_eq_nil_iff.mpr ⟨h.nodup_options, fun _ _ => List.not_mem_nil⟩
  rw [counted, List.cons_append, List.singleton_append, hfirst, readLines, if_neg hhead,
    if_neg (by simp [hlast])]
  simp only [readOptionLine_optionLine h, OptionLine.options, hrepeats]
  rfl

end Options

end Entry

theorem countedLines_unlines {es : List Entry} (h : ∀ e ∈ es, e.WellFormed) :
    countedLines (unlines (es.flatMap Entry.lines)) = es.flatMap Entry.counted := by
  have hlines : ∀ l ∈ es.flatMap Entry.lines, '\n' ∉ l := by
    intro l hl
    obtain ⟨e, he, hl⟩ := List.mem_flatMap.mp hl
    exact Entry.newline_not_mem_lines (h e he) l hl
  cases es with
  | nil => rfl
  | cons e es =>
      rw [countedLines, lines_unlines (by simp [Entry.lines]) hlines, List.map_flatMap,
        List.filter_flatMap, List.flatMap_def, List.flatMap_def]
      congr 1
      refine List.map_congr_left (fun e he => ?_)
      rw [Entry.map_cut_lines (h e he), Entry.filter_counted (h e he)]

theorem readLines_entries {es : List Entry} (h : ∀ e ∈ es, e.WellFormed) :
    ∀ line position, readLines line position none (es.flatMap Entry.counted) =
      (es.map Entry.toQuestion, []) := by
  induction es with
  | nil => intro _ _; rfl
  | cons e es ih =>
      intro line position
      rw [List.flatMap_cons, Entry.readLines_counted (h e List.mem_cons_self),
        ih (fun f hf => h f (List.mem_cons_of_mem _ hf))]
      rfl

def quizText (es : List Entry) : String := .ofList (unlines (es.flatMap Entry.lines))

theorem read_quizText {es : List Entry} (h : ∀ e ∈ es, e.WellFormed) :
    (Exercise.read .recognition (quizText es)).ok = true ∧
      (Exercise.read .recognition (quizText es)).exercise =
        .recognition ⟨es.map Entry.toQuestion⟩ := by
  have hread : read (quizText es) = (⟨es.map Entry.toQuestion⟩, []) := by
    rw [read, quizText, String.toList_ofList, countedLines_unlines h, readLines_entries h]
  rw [Exercise.read_recognition, hread]
  exact ⟨rfl, rfl⟩

def skies : List Entry :=
  [⟨"What is blue, // or so?", ["sky", "// sea"], ["grass = green"]⟩, ⟨"", ["#1"], []⟩]

def skiesText : String :=
  "# What is blue, // or so?\n[sky | // sea] | grass = green;\n# \n[#1];"

theorem read_quizText_skies :
    (∀ e ∈ skies, e.WellFormed) ∧ quizText skies = skiesText ∧
      (Exercise.read .recognition skiesText).exercise =
        .recognition ⟨skies.map Entry.toQuestion⟩ := by
  have h : ∀ e ∈ skies, e.WellFormed := by decide
  have htext : quizText skies = skiesText := rfl
  exact ⟨h, htext, htext ▸ (read_quizText h).2⟩

end Worksheet.Recognition
