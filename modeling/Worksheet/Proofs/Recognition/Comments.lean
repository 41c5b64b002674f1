import Mathlib.Logic.Relation
import Worksheet.Exercise.Basic
import Worksheet.Proofs.Markup.Token
import Worksheet.Proofs.Text.Trim

namespace Worksheet.Recognition

open Chars Markup

inductive CommentAdded (source source' : List Char) : Prop where
  | line (before after : List (List Char)) (lead note : List Char)
      (hlead : ∀ c ∈ lead, isBlank c = true)
      (hlines : lines source = before ++ after)
      (hlines' : lines source' = before ++ (lead ++ '/' :: '/' :: note) :: after)
  | ending (before after : List (List Char)) (body gap note : List Char)
      (hgap : ∀ c ∈ gap, isIndent c = true)
      (hlines : lines source = before ++ (body ++ [';']) :: after)
      (hlines' : lines source' = before ++ (body ++ ';' :: (gap ++ '/' :: '/' :: note)) :: after)

theorem isCommentLine_cutComment_trim {lead : List Char} (h : ∀ c ∈ lead, isBlank c = true)
    (note : List Char) :
    isCommentLine (cutComment (trim (lead ++ '/' :: '/' :: note))) = true := by
  have hlead : trimStart lead = [] := dropWhile_of_forall h
  have hnote := trimEnd_append_cons (c := '/') (by decide) [] note
  rw [trim_append_cons (by decide), hlead, List.nil_append, ← List.nil_append ('/' :: note), hnote]
  rfl

theorem cutComment_append_semicolon {rest : List Char} (h : startsComment rest = true)
    (body : List Char) : cutComment (body ++ ';' :: rest) = cutComment (body ++ [';']) := by
  induction body with
  | nil =>
      rw [List.nil_append, cutComment, h]
      rfl
  | cons c body ih =>
      rw [List.cons_append, cutComment, ih, startsComment_append_cons (by decide) (by decide),
        List.cons_append, cutComment, startsComment_append_cons (by decide) (by decide)]

theorem cutComment_trim_append_semicolon {gap : List Char} (h : ∀ c ∈ gap, isIndent c = true)
    (body note : List Char) :
    cutComment (trim (body ++ ';' :: (gap ++ '/' :: '/' :: note))) =
      cutComment (trim (body ++ [';'])) := by
  have hcomment : startsComment (trimEnd (gap ++ '/' :: '/' :: note)) = true := by
    rw [← List.singleton_append, ← List.append_assoc, trimEnd_append_cons (by decide),
      List.append_assoc, List.singleton_append]
    exact startsComment_of_indent h _
  rw [trim_append_cons (by decide), cutComment_append_semicolon hcomment,
    trim_append_cons (by decide)]
  rfl

theorem countedLines_of_commentAdded {source source' : List Char}
    (h : CommentAdded source source') : countedLines source' = countedLines source := by
  cases h with
  | line before after lead note hlead hlines hlines' =>
      have hcomment := isCommentLine_cutComment_trim hlead note
      simp only [countedLines, hlines, hlines', List.map_append, List.map_cons, List.filter_append,
        List.filter_cons, hcomment, Bool.not_true, Bool.and_false, Bool.false_eq_true, if_false]
  | ending before after body gap note hgap hlines hlines' =>
      simp only [countedLines, hlines, hlines', List.map_append, List.map_cons,
        cutComment_trim_append_semicolon hgap]

theorem countedLines_of_commentsAdded {source source' : List Char}
    (h : Relation.ReflTransGen CommentAdded source source') :
    countedLines source' = countedLines source := by
  induction h with
  | refl => rfl
  | tail _ hadded ih => exact (countedLines_of_commentAdded hadded).trans ih

theorem read_of_commentsAdded {text text' : String}
    (h : Relation.ReflTransGen CommentAdded text.toList text'.toList) :
    Exercise.read .recognition text' = Exercise.read .recognition text := by
  rw [Exercise.read_recognition, Exercise.read_recognition, read, read,
    countedLines_of_commentsAdded h]

def plainQuiz : String := "green | red\n# Sky;\n[blue] | green;\nred;"

def notedQuiz : String :=
  "green | red\n \t// # [Sea]; // see above\n# Sky;\n[blue] | green; \t// ] | # not; red\nred;"

theorem read_of_commentsAdded_notedQuiz :
    Exercise.read .recognition notedQuiz = Exercise.read .recognition plainQuiz ∧
      (Exercise.read .recognition notedQuiz).errors.keys =
        ["parse.missingSemicolon.line1", "parse.noQuestion.line4"] := by
  let between := "green | red\n \t// # [Sea]; // see above\n# Sky;\n[blue] | green;\nred;".toList
  have hline : CommentAdded plainQuiz.toList between :=
    .line ["green | red".toList] ["# Sky;".toList, "[blue] | green;".toList, "red;".toList]
      [' ', '\t'] " # [Sea]; // see above".toList (List.all_eq_true.mp (by decide))
      (by decide +kernel) (by decide +kernel)
  have hending : CommentAdded between notedQuiz.toList :=
    .ending ["green | red".toList, " \t// # [Sea]; // see above".toList, "# Sky;".toList]
      ["red;".toList] "[blue] | green".toList [' ', '\t'] " ] | # not; red".toList
      (List.all_eq_true.mp (by decide)) (by decide +kernel) (by decide +kernel)
  have hread := read_of_commentsAdded (.tail (.single hline) hending)
  rw [hread]
  exact ⟨rfl, by decide +kernel⟩

end Worksheet.Recognition
