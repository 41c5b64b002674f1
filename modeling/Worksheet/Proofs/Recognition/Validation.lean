import Worksheet.Proofs.ErrorMap
import Worksheet.Proofs.Markup.Statement
import Worksheet.Recognition.Validation

namespace Worksheet

open Text ErrorMap

namespace Markup

variable {source : List Char} {o : OptionLine}

theorem isItem_of_mem_add {inBrackets : Bool} {item option : String}
    (hitem : item ≠ "" → IsItem item) (ho : ∀ a ∈ o.options, IsItem a)
    (h : option ∈ (o.add inBrackets item).options) : IsItem option := by
  unfold OptionLine.add at h
  split at h
  · exact ho option h
  · next hne =>
      have hcases : option = item ∨ option ∈ o.options := by
        cases inBrackets with
        | true => simpa [OptionLine.options, or_assoc] using h
        | false => simpa [OptionLine.options, or_left_comm] using h
      rcases hcases with rfl | h
      · exact hitem hne
      · exact ho option h

theorem isItem_of_mem_map_addItem {inBrackets : Bool} {pending : List Token}
    {r : Except BracketFault OptionLine}
    (hr : ∀ o', r = .ok o' → ∀ a ∈ o'.options, IsItem a)
    (h : r.map (OptionLine.addItem inBrackets source pending) = .ok o) :
    ∀ a ∈ o.options, IsItem a := by
  cases r with
  | error fault => cases h
  | ok o' =>
      cases h
      intro a ha
      exact isItem_of_mem_add isItem_sliceText (hr o' rfl) ha

theorem isItem_of_mem_readOptions :
    ∀ {ts pending : List Token} {opening : Option Token} {o : OptionLine},
      readOptions source opening pending ts = .ok o → ∀ a ∈ o.options, IsItem a := by
  intro ts
  induction ts with
  | nil =>
      intro pending opening o h
      cases opening with
      | some bracket => cases h
      | none =>
          refine isItem_of_mem_map_addItem (r := .ok ⟨[], []⟩) ?_ h
          rintro o' ⟨⟩ a ha
          cases ha
  | cons t ts ih =>
      intro pending opening o h
      unfold readOptions at h
      split at h
      · exact isItem_of_mem_map_addItem (fun _ => ih) h
      · exact isItem_of_mem_map_addItem (fun _ => ih) h
      · cases h
      · exact isItem_of_mem_map_addItem (fun _ => ih) h
      · cases h
      · exact ih h

end Markup

structure Question.Sound (q : Question) : Prop where
  mem_options : ∀ option ∈ q.correctOptions, option ∈ q.options
  isItem_options : ∀ option ∈ q.options, IsItem option

structure Question.WellFormed (q : Question) : Prop where
  not_isBlank_question : Text.isBlank q.question = false
  correctOptions_ne_nil : q.correctOptions ≠ []
  two_le_options : 2 ≤ q.options.length
  not_isBlank_options : ∀ option ∈ q.options, Text.isBlank option = false
  mem_options : ∀ option ∈ q.correctOptions, option ∈ q.options
  nodup_options : q.options.Nodup

structure Recognition.WellFormed (r : Recognition) : Prop where
  questions_ne_nil : r.questions ≠ []
  nodup_texts : (r.questions.map (·.question)).Nodup
  wellFormed : ∀ q ∈ r.questions, q.WellFormed

namespace Recognition

theorem sound_of_mem_readLines {q : Question} :
    ∀ {lines : List (List Char)} {line position : Nat} {pending : Option String},
      q ∈ (readLines line position pending lines).1 → q.Sound := by
  intro lines
  induction lines with
  | nil => intro _ _ _ h; simp [readLines] at h
  | cons cs rest ih =>
      intro line position pending h
      unfold readLines at h
      split at h
      · exact ih h
      · split at h
        · exact ih h
        · split at h
          · exact ih h
          · next question =>
              cases hread : Markup.readOptionLine cs with
              | error fault =>
                  rw [hread] at h
                  exact ih h
              | ok o =>
                  rw [hread] at h
                  rcases List.mem_cons.mp h with rfl | h
                  · exact ⟨fun option ho => List.mem_append_left _ ho,
                      Markup.isItem_of_mem_readOptions hread⟩
                  · exact ih h

theorem sound_of_mem_read {text : String} {q : Question} (h : q ∈ (read text).1.questions) :
    q.Sound :=
  sound_of_mem_readLines h

def Defect.stem : Defect → String
  | .noQuestions => "validation.noQuestions"
  | .emptyQuestion _ => "validation.emptyQuestion.q"
  | .duplicateQuestion _ _ => "validation.duplicateQuestion.q"
  | .noCorrectOptions _ => "validation.noCorrectOptions.q"
  | .insufficientOptions _ => "validation.insufficientOptions.q"
  | .emptyOption _ _ => "validation.emptyOption."
  | .missingCorrectOption _ _ => "validation.missingCorrectOption."
  | .duplicateOption _ _ => "validation.duplicateOption.q"

theorem Defect.isUnder_stem (d : Defect) : IsUnder d.stem d.key := by
  cases d with
  | noQuestions => exact List.prefix_rfl
  | emptyQuestion position => exact isUnder_append _ (toString position)
  | duplicateQuestion position question => exact isUnder_append _ (toString position)
  | noCorrectOptions position => exact isUnder_append _ (toString position)
  | insufficientOptions position => exact isUnder_append _ (toString position)
  | emptyOption position option =>
      have hstem : IsUnder "validation.emptyOption." "validation.emptyOption.q" := by decide
      exact ((hstem.append (toString position)).append ".opt").append (toString option)
  | missingCorrectOption position option =>
      have hstem : IsUnder "validation.missingCorrectOption." "validation.missingCorrectOption.q" :=
        by decide
      exact hstem.append (toString position)
  | duplicateOption position option => exact isUnder_append _ (toString position)

theorem mem_questionsDefects {d : Defect} :
    ∀ {questions : List Question} {position : Nat} {seen : List String},
      d ∈ questionsDefects position seen questions ↔
        ∃ before q after, questions = before ++ q :: after ∧
          d ∈ questionDefects (position + before.length)
            ((before.map (·.question)).reverse ++ seen) q := by
  intro questions
  induction questions with
  | nil => intro _ _; simp [questionsDefects]
  | cons q rest ih =>
      intro position seen
      rw [questionsDefects, List.mem_append, ih]
      constructor
      · rintro (h | ⟨before, q', after, rfl, h⟩)
        · exact ⟨[], q, rest, rfl, h⟩
        · exact ⟨q :: before, q', after, rfl,
            by simpa [Nat.add_assoc, Nat.add_comm before.length] using h⟩
      · rintro ⟨before, q', after, heq, h⟩
        cases before with
        | nil =>
            obtain ⟨rfl, rfl⟩ := List.cons.inj heq
            exact Or.inl h
        | cons p before =>
            obtain ⟨rfl, rfl⟩ := List.cons.inj heq
            exact Or.inr ⟨before, q', after, rfl,
              by simpa [Nat.add_assoc, Nat.add_comm before.length] using h⟩

section Question

variable {position place : Nat} {seen : List String} {q : Question}

theorem mem_questionDefects {d : Defect} :
    d ∈ questionDefects position seen q ↔
      (Text.isBlank q.question = true ∧ d = .emptyQuestion position) ∨
        (Text.isBlank q.question = false ∧ q.question ∈ seen ∧
          d = .duplicateQuestion position q.question) ∨
        (q.correctOptions = [] ∧ d = .noCorrectOptions position) ∨
        (q.options.length < 2 ∧ d = .insufficientOptions position) ∨
        (∃ option ∈ blankPositions 1 q.options, .emptyOption position option = d) ∨
        (∃ option ∈ q.correctOptions, option ∉ q.options ∧
          .missingCorrectOption position option = d) ∨
        ∃ option ∈ repeats [] q.options, .duplicateOption position option = d := by
  cases hb : Text.isBlank q.question with
  | true => simp [questionDefects, hb, and_assoc]
  | false => by_cases hs : q.question ∈ seen <;> simp [questionDefects, hb, hs, and_assoc]

theorem emptyQuestion_mem_questionDefects :
    .emptyQuestion place ∈ questionDefects position seen q ↔
      place = position ∧ Text.isBlank q.question = true := by
  simp [mem_questionDefects, and_comm]

theorem duplicateQuestion_mem_questionDefects {text : String} :
    .duplicateQuestion place text ∈ questionDefects position seen q ↔
      place = position ∧ Text.isBlank q.question = false ∧ q.question ∈ seen ∧
        text = q.question := by
  simp [mem_questionDefects, and_comm, and_assoc]

theorem noCorrectOptions_mem_questionDefects :
    .noCorrectOptions place ∈ questionDefects position seen q ↔
      place = position ∧ q.correctOptions = [] := by
  simp [mem_questionDefects, and_comm]

theorem insufficientOptions_mem_questionDefects :
    .insufficientOptions place ∈ questionDefects position seen q ↔
      place = position ∧ q.options.length < 2 := by
  simp [mem_questionDefects, and_comm]

theorem emptyOption_mem_questionDefects {option : Nat} :
    .emptyOption place option ∈ questionDefects position seen q ↔
      place = position ∧ option ∈ blankPositions 1 q.options := by
  simp [mem_questionDefects, and_comm, eq_comm (a := place)]

theorem missingCorrectOption_mem_questionDefects {option : String} :
    .missingCorrectOption place option ∈ questionDefects position seen q ↔
      place = position ∧ option ∈ q.correctOptions ∧ option ∉ q.options := by
  simp [mem_questionDefects, and_comm, and_left_comm, eq_comm (a := place)]

theorem duplicateOption_mem_questionDefects {option : String} :
    .duplicateOption place option ∈ questionDefects position seen q ↔
      place = position ∧ option ∈ repeats [] q.options := by
  simp [mem_questionDefects, and_comm, eq_comm (a := place)]

theorem noQuestions_not_mem_questionDefects : .noQuestions ∉ questionDefects position seen q := by
  simp [mem_questionDefects]

theorem questionDefects_eq_nil_iff :
    questionDefects position seen q = [] ↔ q.question ∉ seen ∧ q.WellFormed := by
  have hfound : (if Text.isBlank q.question = true then [Defect.emptyQuestion position]
      else if q.question ∈ seen then [.duplicateQuestion position q.question] else []) = [] ↔
        q.question ∉ seen ∧ Text.isBlank q.question = false := by
    cases Text.isBlank q.question <;> simp
  simp only [questionDefects, List.append_eq_nil_iff, hfound, ite_eq_right_iff, List.cons_ne_self,
    imp_false, List.isEmpty_iff, Nat.not_lt, List.map_eq_nil_iff, List.filter_eq_nil_iff,
    decide_eq_true_eq, Classical.not_not, blankPositions_eq_nil_iff, repeats_eq_nil_iff,
    List.not_mem_nil, not_false_eq_true, implies_true, and_true, and_assoc]
  constructor
  · rintro ⟨hseen, htext, hne, hlength, hblank, hmem, hnodup⟩
    exact ⟨hseen, htext, hne, hlength, hblank, hmem, hnodup⟩
  · rintro ⟨hseen, htext, hne, hlength, hblank, hmem, hnodup⟩
    exact ⟨hseen, htext, hne, hlength, hblank, hmem, hnodup⟩

end Question

theorem questionsDefects_eq_nil_iff :
    ∀ {questions : List Question} {position : Nat} {seen : List String},
      questionsDefects position seen questions = [] ↔
        (questions.map (·.question)).Nodup ∧
          ∀ q ∈ questions, q.question ∉ seen ∧ q.WellFormed := by
  intro questions
  induction questions with
  | nil => intro _ _; simp [questionsDefects]
  | cons q rest ih =>
      intro position seen
      rw [questionsDefects, List.append_eq_nil_iff, questionDefects_eq_nil_iff, ih, List.map_cons,
        List.nodup_cons, List.forall_mem_cons]
      constructor
      · rintro ⟨hq, hrest, h⟩
        refine ⟨⟨?_, hrest⟩, hq, fun p hp => ⟨?_, (h p hp).2⟩⟩
        · intro hmem
          obtain ⟨p, hp, htext⟩ := List.mem_map.mp hmem
          exact (h p hp).1 (htext ▸ List.mem_cons_self)
        · exact fun hseen => (h p hp).1 (List.mem_cons_of_mem _ hseen)
      · rintro ⟨⟨hfresh, hrest⟩, hq, h⟩
        refine ⟨hq, hrest, fun p hp => ⟨?_, (h p hp).2⟩⟩
        rw [List.mem_cons, not_or]
        exact ⟨fun htext => hfresh (List.mem_map.mpr ⟨p, hp, htext⟩), (h p hp).1⟩

theorem defects_eq_nil_iff {r : Recognition} : r.defects = [] ↔ r.WellFormed := by
  unfold defects
  split
  · next h =>
      refine iff_of_false (List.cons_ne_nil _ _) (fun hr => ?_)
      exact hr.questions_ne_nil (List.isEmpty_iff.mp h)
  · next h =>
      have hne : r.questions ≠ [] := fun hnil => h (List.isEmpty_iff.mpr hnil)
      rw [questionsDefects_eq_nil_iff]
      constructor
      · rintro ⟨hnodup, hq⟩
        exact ⟨hne, hnodup, fun q hmem => (hq q hmem).2⟩
      · rintro ⟨-, hnodup, hq⟩
        exact ⟨hnodup, fun q hmem => ⟨List.not_mem_nil, hq q hmem⟩⟩

theorem questions_of_defects_eq_nil {r : Recognition} (h : r.defects = []) :
    (r.questions.map (·.question)).Nodup ∧ ∀ q ∈ r.questions, q.correctOptions ≠ [] := by
  have hr := defects_eq_nil_iff.mp h
  exact ⟨hr.nodup_texts, fun q hq => (hr.wellFormed q hq).correctOptions_ne_nil⟩

theorem mem_defects {r : Recognition} {d : Defect} :
    d ∈ r.defects ↔ (r.questions = [] ∧ d = .noQuestions) ∨ d ∈ questionsDefects 1 [] r.questions := by
  unfold defects
  cases r.questions with
  | nil => simp [questionsDefects]
  | cons q rest => simp

section Members

variable {r : Recognition} {d : Defect} {place : Nat}

theorem noQuestions_mem_defects : .noQuestions ∈ r.defects ↔ r.questions = [] := by
  rw [mem_defects, mem_questionsDefects]
  simp [noQuestions_not_mem_questionDefects]

theorem mem_defects_iff {P : Question → Prop} (hne : d ≠ .noQuestions)
    (h : ∀ position seen q, d ∈ questionDefects position seen q ↔ place = position ∧ P q) :
    d ∈ r.defects ↔ ∃ q, (q, place) ∈ r.questions.zipIdx 1 ∧ P q := by
  simp only [mem_defects, mem_questionsDefects, h, hne, and_false, false_or, mem_zipIdx_iff_append]
  constructor
  · rintro ⟨before, q, after, heq, hplace, hP⟩
    exact ⟨q, ⟨before, after, heq, hplace⟩, hP⟩
  · rintro ⟨q, ⟨before, after, heq, hplace⟩, hP⟩
    exact ⟨before, q, after, heq, hplace, hP⟩

theorem duplicateQuestion_mem_defects {text : String} :
    .duplicateQuestion place text ∈ r.defects ↔
      ∃ q, (q, place) ∈ r.questions.zipIdx 1 ∧ Text.isBlank q.question = false ∧
        (∃ p, (∃ n < place, (p, n) ∈ r.questions.zipIdx 1) ∧ p.question = q.question) ∧
          text = q.question := by
  simp only [mem_defects, mem_questionsDefects, duplicateQuestion_mem_questionDefects,
    reduceCtorEq, and_false, false_or, List.append_nil, List.mem_reverse, List.mem_map]
  constructor
  · rintro ⟨before, q, after, heq, rfl, hblank, ⟨p, hp, hsame⟩, htext⟩
    refine ⟨q, mem_zipIdx_iff_append.mpr ⟨before, after, heq, rfl⟩, hblank, ⟨p, ?_, hsame⟩, htext⟩
    rw [heq]
    exact exists_lt_mem_zipIdx_iff.mpr hp
  · rintro ⟨q, hq, hblank, ⟨p, hp, hsame⟩, htext⟩
    obtain ⟨before, after, heq, rfl⟩ := mem_zipIdx_iff_append.mp hq
    rw [heq] at hp
    exact ⟨before, q, after, heq, rfl, hblank, ⟨p, exists_lt_mem_zipIdx_iff.mp hp, hsame⟩, htext⟩

theorem emptyQuestion_mem_defects :
    .emptyQuestion place ∈ r.defects ↔
      ∃ q, (q, place) ∈ r.questions.zipIdx 1 ∧ Text.isBlank q.question = true :=
  mem_defects_iff (by simp) fun _ _ _ => emptyQuestion_mem_questionDefects

theorem noCorrectOptions_mem_defects :
    .noCorrectOptions place ∈ r.defects ↔
      ∃ q, (q, place) ∈ r.questions.zipIdx 1 ∧ q.correctOptions = [] :=
  mem_defects_iff (by simp) fun _ _ _ => noCorrectOptions_mem_questionDefects

theorem insufficientOptions_mem_defects :
    .insufficientOptions place ∈ r.defects ↔
      ∃ q, (q, place) ∈ r.questions.zipIdx 1 ∧ q.options.length < 2 :=
  mem_defects_iff (by simp) fun _ _ _ => insufficientOptions_mem_questionDefects

theorem emptyOption_mem_defects {option : Nat} :
    .emptyOption place option ∈ r.defects ↔
      ∃ q, (q, place) ∈ r.questions.zipIdx 1 ∧ option ∈ blankPositions 1 q.options :=
  mem_defects_iff (by simp) fun _ _ _ => emptyOption_mem_questionDefects

theorem missingCorrectOption_mem_defects {option : String} :
    .missingCorrectOption place option ∈ r.defects ↔
      ∃ q, (q, place) ∈ r.questions.zipIdx 1 ∧ option ∈ q.correctOptions ∧ option ∉ q.options :=
  mem_defects_iff (by simp) fun _ _ _ => missingCorrectOption_mem_questionDefects

theorem duplicateOption_mem_defects {option : String} :
    .duplicateOption place option ∈ r.defects ↔
      ∃ q, (q, place) ∈ r.questions.zipIdx 1 ∧ option ∈ repeats [] q.options :=
  mem_defects_iff (by simp) fun _ _ _ => duplicateOption_mem_questionDefects

end Members

theorem not_isUnder_of_mem_defects {text : String} {d : Defect} (hd : d ∈ (read text).1.defects)
    {stem : String} (hs : stem ∈ readingStems) : ¬ IsUnder stem d.key := by
  intro hu
  have hcmp : ∃ s ∈ readingStems, IsUnder s d.stem ∨ IsUnder d.stem s :=
    ⟨stem, hs, hu.comparable d.isUnder_stem⟩
  cases d with
  | emptyOption position option =>
      obtain ⟨q, hq, hblank⟩ := emptyOption_mem_defects.mp hd
      have hsound := sound_of_mem_read (List.fst_mem_of_mem_zipIdx hq)
      rw [blankPositions_eq_nil hsound.isItem_options] at hblank
      exact List.not_mem_nil hblank
  | missingCorrectOption position option =>
      obtain ⟨q, hq, hc, hnot⟩ := missingCorrectOption_mem_defects.mp hd
      exact hnot ((sound_of_mem_read (List.fst_mem_of_mem_zipIdx hq)).mem_options option hc)
  | _ => exact absurd hcmp (by dsimp only [Defect.stem]; decide)

end Recognition

end Worksheet
