import Worksheet.Proofs.Recognition.Accounting
import Worksheet.Proofs.Recognition.Report

namespace Worksheet.Recognition

open ErrorMap

def isAnswered (below : List (List Char)) : Bool :=
  match below.find? (fun line => line.getLast? = some ';') with
  | some line => (Markup.readOptionLine line).isOk
  | none => false

def numbersAnswered (position : Nat) (blocks : List (List (List Char))) : List Nat :=
  ((blocks.zipIdx position).filter (fun block => isAnswered block.1)).map (·.2)

def answeredNumbers (lines : List (List Char)) : List Nat :=
  numbersAnswered 1 (pieces isQuestionLine lines).tail

def numbersFrom (position : Nat) (pending : Option String) (lines : List (List Char)) : List Nat :=
  match pending with
  | some _ => numbersAnswered position (pieces isQuestionLine lines)
  | none => numbersAnswered (position + 1) (pieces isQuestionLine lines).tail

theorem numbersAnswered_cons (position : Nat) (block : List (List Char))
    (blocks : List (List (List Char))) :
    numbersAnswered position (block :: blocks) =
      if isAnswered block then position :: numbersAnswered (position + 1) blocks
      else numbersAnswered (position + 1) blocks := by
  rw [numbersAnswered, List.zipIdx_cons, List.filter_cons]
  split <;> rfl

theorem isAnswered_cons_of_open {cs : List Char} (h : cs.getLast? ≠ some ';')
    (below : List (List Char)) : isAnswered (cs :: below) = isAnswered below := by
  rw [isAnswered, List.find?_cons_of_neg (by simpa using h), isAnswered]

theorem isAnswered_cons_of_closed {cs : List Char} (h : cs.getLast? = some ';')
    (below : List (List Char)) : isAnswered (cs :: below) = (Markup.readOptionLine cs).isOk := by
  rw [isAnswered, List.find?_cons_of_pos (by simpa using h)]

theorem numbersFrom_some_cons {position : Nat} (text : String) {cs : List Char}
    (hash : isQuestionLine cs = false) (rest : List (List Char)) :
    ∃ below blocks, pieces isQuestionLine rest = below :: blocks ∧
      numbersFrom position (some text) (cs :: rest) =
        numbersAnswered position ((cs :: below) :: blocks) := by
  cases hrest : pieces isQuestionLine rest with
  | nil => exact absurd hrest (pieces_ne_nil _ rest)
  | cons below blocks =>
      refine ⟨below, blocks, rfl, ?_⟩
      rw [numbersFrom, pieces_cons_of_neg hash hrest]

theorem numbersFrom_none_cons {position : Nat} {cs : List Char} (hash : isQuestionLine cs = false)
    (rest : List (List Char)) :
    numbersFrom position none (cs :: rest) = numbersFrom position none rest := by
  cases hrest : pieces isQuestionLine rest with
  | nil => exact absurd hrest (pieces_ne_nil _ rest)
  | cons below blocks =>
      rw [numbersFrom, numbersFrom, pieces_cons_of_neg hash hrest, hrest]
      rfl

theorem LineStep.numbersFrom_cons {line position : Nat} {cs : List Char} {pending : Option String}
    {next : Nat × Option String} {found : List Question × List LineProblem}
    (h : LineStep line position cs pending next found) (rest : List (List Char)) :
    numbersFrom position pending (cs :: rest) =
      found.1.map (fun _ => position) ++ numbersFrom next.1 next.2 rest := by
  cases h with
  | question hash =>
      cases pending with
      | none =>
          rw [numbersFrom.eq_def position none, pieces_cons_of_pos hash]
          rfl
      | some text =>
          rw [numbersFrom.eq_def position (some text), pieces_cons_of_pos hash]
          exact numbersAnswered_cons position [] (pieces isQuestionLine rest)
  | unterminated hash open_ended =>
      cases pending with
      | none => exact numbersFrom_none_cons hash rest
      | some text =>
          obtain ⟨below, blocks, hrest, hnumbers⟩ := numbersFrom_some_cons text hash rest
          rw [hnumbers, numbersAnswered_cons, isAnswered_cons_of_open open_ended,
            ← numbersAnswered_cons, ← hrest]
          rfl
  | stray hash closed => exact numbersFrom_none_cons hash rest
  | @unbalanced text fault hash closed options =>
      obtain ⟨below, blocks, hrest, hnumbers⟩ := numbersFrom_some_cons text hash rest
      rw [hnumbers, numbersAnswered_cons, isAnswered_cons_of_closed closed, options, numbersFrom,
        hrest]
      rfl
  | @options text o hash closed options =>
      obtain ⟨below, blocks, hrest, hnumbers⟩ := numbersFrom_some_cons text hash rest
      rw [hnumbers, numbersAnswered_cons, isAnswered_cons_of_closed closed, options, numbersFrom,
        hrest]
      rfl

structure Numbered (texts : List (String × Nat)) (numbers : List Nat) (questions : List Question)
    (problems : List LineProblem) : Prop where
  length_eq : numbers.length = questions.length
  text_mem : ∀ q n, (q, n) ∈ questions.zip numbers → (q.question, n) ∈ texts
  duplicate_iff : ∀ n, (∃ option, .duplicateOption n option ∈ problems) ↔
    ∃ q, (q, n) ∈ questions.zip numbers ∧ ¬ q.options.Nodup

theorem Numbered.append {texts : List (String × Nat)} {numbers numbers' : List Nat}
    {questions questions' : List Question} {problems problems' : List LineProblem}
    (h : Numbered texts numbers questions problems)
    (h' : Numbered texts numbers' questions' problems') :
    Numbered texts (numbers ++ numbers') (questions ++ questions') (problems ++ problems') where
  length_eq := by rw [List.length_append, List.length_append, h.length_eq, h'.length_eq]
  text_mem := by
    intro q n hq
    rw [List.zip_append h.length_eq.symm, List.mem_append] at hq
    exact hq.elim (h.text_mem q n) (h'.text_mem q n)
  duplicate_iff := by
    intro n
    simp only [List.zip_append h.length_eq.symm, List.mem_append, or_and_right, exists_or,
      h.duplicate_iff, h'.duplicate_iff]

theorem Numbered.mono {texts texts' : List (String × Nat)} {numbers : List Nat}
    {questions : List Question} {problems : List LineProblem} (hsub : texts ⊆ texts')
    (h : Numbered texts numbers questions problems) :
    Numbered texts' numbers questions problems where
  length_eq := h.length_eq
  text_mem := fun q n hq => hsub (h.text_mem q n hq)
  duplicate_iff := h.duplicate_iff

def openTexts (position : Nat) (pending : Option String) (lines : List (List Char)) :
    List (String × Nat) :=
  (pending.toList ++ (lines.filter isQuestionLine).map questionText).zipIdx
    (firstOpen position pending)

def LineProblem.Drops : LineProblem → Prop
  | danglingQuestion _ _ | brackets _ _ => True
  | missingSemicolon _ | noQuestion _ | duplicateOption _ _ | danglingAtEnd _ => False

namespace LineStep

variable {line position : Nat} {cs : List Char} {pending : Option String}
  {next : Nat × Option String} {found : List Question × List LineProblem}
  (h : LineStep line position cs pending next found)

include h

theorem openTexts_subset (rest : List (List Char)) :
    openTexts next.1 next.2 rest ⊆ openTexts position pending (cs :: rest) := by
  cases h with
  | question hash =>
      cases pending with
      | none => simp [openTexts, firstOpen, hash]
      | some text => simp [openTexts, firstOpen, hash]
  | unterminated hash => simp [openTexts, hash]
  | stray hash => simp [openTexts, hash]
  | unbalanced hash => simp [openTexts, firstOpen, hash]
  | options hash => simp [openTexts, firstOpen, hash]

theorem numbered (rest : List (List Char)) :
    Numbered (openTexts position pending (cs :: rest)) (found.1.map (fun _ => position)) found.1
      found.2 := by
  cases h with
  | question => constructor <;> simp
  | unterminated => constructor <;> simp
  | stray => constructor <;> simp
  | unbalanced => constructor <;> simp
  | @options text o =>
      constructor
      · simp
      · simp [openTexts, firstOpen]
      · intro n
        have hrepeated := exists_head?_repeats_iff (l := o.options)
        constructor
        · intro h
          obtain ⟨option, hfirst, rfl⟩ : ∃ option, (repeats [] o.options).head? = some option ∧
              position = n := by simpa using h
          exact ⟨_, List.mem_singleton_self _, hrepeated.mp ⟨option, hfirst⟩⟩
        · rintro ⟨q, hq, htwice⟩
          obtain ⟨rfl, rfl⟩ : q = ⟨text, o.correct, o.options⟩ ∧ n = position := by simpa using hq
          obtain ⟨option, hfirst⟩ := hrepeated.mpr htwice
          exact ⟨option, by simp [hfirst]⟩

theorem numbers_of_not_dropped (hkept : ∀ p ∈ found.2, ¬ p.Drops) :
    found.1.map (fun _ => position) = List.range' (firstOpen position pending) found.1.length ∧
      firstOpen next.1 next.2 = firstOpen position pending + found.1.length := by
  cases h with
  | question hash =>
      cases pending with
      | none => exact ⟨rfl, rfl⟩
      | some text => exact absurd trivial (hkept _ (List.mem_singleton_self _))
  | unterminated => exact ⟨rfl, rfl⟩
  | stray => exact ⟨rfl, rfl⟩
  | unbalanced => exact absurd trivial (hkept _ (List.mem_singleton_self _))
  | options => exact ⟨rfl, rfl⟩

end LineStep

theorem numbered_readLines (lines : List (List Char)) :
    ∀ line position pending,
      let found := readLines line position pending lines
      Numbered (openTexts position pending lines) (numbersFrom position pending lines) found.1
        found.2 := by
  induction lines with
  | nil =>
      intro line position pending
      have hnumbers : numbersFrom position pending [] = [] := by cases pending <;> rfl
      rw [hnumbers]
      cases pending <;> constructor <;> simp [readLines]
  | cons cs rest ih =>
      intro line position pending
      obtain ⟨next, found, hstep, hread⟩ := exists_lineStep line position cs pending
      rw [hread, hstep.numbersFrom_cons]
      exact (hstep.numbered rest).append ((ih (line + 1) next.1 next.2).mono
        (hstep.openTexts_subset rest))

theorem numbersFrom_of_not_dropped (lines : List (List Char)) :
    ∀ line position pending, (∀ p ∈ (readLines line position pending lines).2, ¬ p.Drops) →
      numbersFrom position pending lines =
        List.range' (firstOpen position pending)
          (readLines line position pending lines).1.length := by
  induction lines with
  | nil =>
      intro line position pending _
      cases pending <;> rfl
  | cons cs rest ih =>
      intro line position pending hkept
      obtain ⟨next, found, hstep, hread⟩ := exists_lineStep line position cs pending
      rw [hread] at hkept ⊢
      obtain ⟨hnumbers, hopen⟩ :=
        hstep.numbers_of_not_dropped fun p hp => hkept p (List.mem_append_left _ hp)
      have hrest := ih (line + 1) next.1 next.2 fun p hp => hkept p (List.mem_append_right _ hp)
      rw [hstep.numbersFrom_cons, hnumbers, hrest, hopen, List.range'_append_1, List.length_append]

theorem answeredNumbers_sublist (lines : List (List Char)) :
    (answeredNumbers lines).Sublist (List.range' 1 (lines.countP isQuestionLine)) := by
  have hall : ((pieces isQuestionLine lines).tail.zipIdx 1).map (·.2) =
      List.range' 1 (lines.countP isQuestionLine) := by
    rw [List.zipIdx_map_snd, List.length_tail, length_pieces, Nat.add_sub_cancel]
  rw [← hall]
  exact List.filter_sublist.map _

section Report

variable {text : String} {n m : Nat} {preset : TablePreset}

theorem parse_duplicate_mem_iff :
    "parse.duplicate.q" ++ toString n ∈ (Exercise.read .recognition text).errors.keys ↔
      ∃ option, .duplicateOption n option ∈ (read text).2 := by
  rw [Exercise.read_recognition, mem_keys_ofProblems]
  constructor
  · rintro ⟨p, hp, hkey⟩
    obtain ⟨hstem, hplace⟩ := LineProblem.eq_of_key_eq (q := .duplicateOption n "") hkey
    cases p with
    | duplicateOption position option =>
        obtain rfl : position = n := Option.some.inj hplace
        exact ⟨option, hp⟩
    | _ => exact absurd hstem (by dsimp only [LineProblem.stem]; decide)
  · rintro ⟨option, hp⟩
    exact ⟨_, hp, rfl⟩

theorem validation_duplicate_mem_iff {r : Recognition} :
    "validation.duplicateOption.q" ++ toString n ∈
        ((Exercise.recognition r).validate preset).errors.keys ↔
      ∃ q, (q, n) ∈ r.questions.zipIdx 1 ∧ ¬ q.options.Nodup := by
  simp only [Exercise.validate, mem_keys_ofProblems]
  constructor
  · rintro ⟨d, hd, hkey⟩
    exact Defect.arises_of_key_eq (e := .duplicateOption n "") hkey (arises_of_mem_defects hd)
  · exact exists_mem_defects_of_arises (d := .duplicateOption n "")

theorem not_drops_of_not_hasStem
    (hdangling : ¬ (Exercise.read .recognition text).errors.HasStem "parse.danglingQuestion.q")
    (hbrackets : ¬ (Exercise.read .recognition text).errors.HasStem "parse.brackets.line") :
    ∀ p ∈ (read text).2, ¬ p.Drops := by
  rw [Exercise.read_recognition, hasStem_ofProblems] at hdangling hbrackets
  intro p hp hdrops
  cases p with
  | danglingQuestion position question =>
      exact hdangling ⟨_, hp, isUnder_append _ (toString position)⟩
  | brackets line fault => exact hbrackets ⟨_, hp, isUnder_append _ (toString line)⟩
  | _ => exact hdrops

theorem numbered_read (text : String) :
    Numbered (openTexts 0 none (countedLines text.toList)) (answeredNumbers (countedLines text.toList))
      (read text).1.questions (read text).2 :=
  numbered_readLines (countedLines text.toList) 1 0 none

theorem parse_duplicate_mem_iff_exists :
    "parse.duplicate.q" ++ toString n ∈ (Exercise.read .recognition text).errors.keys ↔
      ∃ q, (q, n) ∈ (read text).1.questions.zip (answeredNumbers (countedLines text.toList)) ∧
        ¬ q.options.Nodup :=
  parse_duplicate_mem_iff.trans ((numbered_read text).duplicate_iff n)

theorem duplicate_mem_iff (h : (n, m) ∈ (answeredNumbers (countedLines text.toList)).zipIdx 1) :
    "parse.duplicate.q" ++ toString n ∈ (Exercise.read .recognition text).errors.keys ↔
      "validation.duplicateOption.q" ++ toString m ∈
        ((Exercise.recognition (read text).1).validate preset).errors.keys := by
  have hnodup : (answeredNumbers (countedLines text.toList)).Nodup :=
    (answeredNumbers_sublist _).nodup List.nodup_range'
  simp only [parse_duplicate_mem_iff_exists, validation_duplicate_mem_iff,
    mem_zip_iff_of_nodup hnodup h]

theorem mem_answeredNumbers_of_duplicate_mem
    (h : "parse.duplicate.q" ++ toString n ∈ (Exercise.read .recognition text).errors.keys) :
    n ∈ answeredNumbers (countedLines text.toList) := by
  obtain ⟨q, hq, -⟩ := parse_duplicate_mem_iff_exists.mp h
  exact (List.of_mem_zip hq).2

theorem exists_number_of_duplicateOption_mem
    (h : "validation.duplicateOption.q" ++ toString m ∈
      ((Exercise.recognition (read text).1).validate preset).errors.keys) :
    ∃ n, (n, m) ∈ (answeredNumbers (countedLines text.toList)).zipIdx 1 := by
  obtain ⟨q, hq, -⟩ := validation_duplicate_mem_iff.mp h
  exact exists_mem_zipIdx_of_length_eq (numbered_read text).length_eq hq

theorem mem_zipIdx_range'_iff {k : Nat} :
    (n, m) ∈ (List.range' 1 k).zipIdx 1 ↔ n = m ∧ n ∈ List.range' 1 k := by
  rw [List.mk_mem_zipIdx_iff_le_and_getElem?_sub, List.getElem?_eq_some_iff, List.mem_range'_1]
  simp only [List.length_range', List.getElem_range']
  constructor
  · rintro ⟨hm, hlt, rfl⟩
    omega
  · rintro ⟨rfl, hn, hlt⟩
    exact ⟨hn, by omega, by omega⟩

theorem duplicate_mem_iff_of_not_drops (h : ∀ p ∈ (read text).2, ¬ p.Drops) :
    "parse.duplicate.q" ++ toString n ∈ (Exercise.read .recognition text).errors.keys ↔
      "validation.duplicateOption.q" ++ toString n ∈
        ((Exercise.recognition (read text).1).validate preset).errors.keys := by
  have hall : answeredNumbers (countedLines text.toList) =
      List.range' 1 (read text).1.questions.length :=
    numbersFrom_of_not_dropped (countedLines text.toList) 1 0 none h
  constructor
  · intro hn
    have hmem := mem_answeredNumbers_of_duplicate_mem hn
    rw [hall] at hmem
    exact (duplicate_mem_iff (hall ▸ mem_zipIdx_range'_iff.mpr ⟨rfl, hmem⟩)).mp hn
  · intro hn
    obtain ⟨k, hk⟩ := exists_number_of_duplicateOption_mem hn
    obtain rfl : k = n := (mem_zipIdx_range'_iff.mp (hall ▸ hk)).1
    exact (duplicate_mem_iff hk).mpr hn

end Report

theorem duplicates_numbered (text : String) (preset : TablePreset) :
    let draft := Exercise.read .recognition text
    let report := (draft.exercise.validate preset).errors
    let lines := countedLines text.toList
    let numbers := answeredNumbers lines
    numbers.Sublist (List.range' 1 (lines.countP isQuestionLine)) ∧
      (∃ questions, draft.exercise = .recognition ⟨questions⟩ ∧
        numbers.length = questions.length ∧
        ∀ q n, (q, n) ∈ questions.zip numbers →
          (q.question, n) ∈ ((lines.filter isQuestionLine).map questionText).zipIdx 1) ∧
      (∀ n m, (n, m) ∈ numbers.zipIdx 1 →
        ("parse.duplicate.q" ++ toString n ∈ draft.errors.keys ↔
          "validation.duplicateOption.q" ++ toString m ∈ report.keys)) ∧
      (∀ n : Nat, "parse.duplicate.q" ++ toString n ∈ draft.errors.keys → n ∈ numbers) ∧
      (∀ m : Nat, "validation.duplicateOption.q" ++ toString m ∈ report.keys →
        ∃ n, (n, m) ∈ numbers.zipIdx 1) ∧
      (¬ draft.errors.HasStem "parse.danglingQuestion.q" →
        ¬ draft.errors.HasStem "parse.brackets.line" →
          ∀ n : Nat, "parse.duplicate.q" ++ toString n ∈ draft.errors.keys ↔
            "validation.duplicateOption.q" ++ toString n ∈ report.keys) := by
  intro draft report lines numbers
  have hread : draft.exercise = .recognition (read text).1 :=
    congrArg Draft.exercise (Exercise.read_recognition text)
  have hnumbered := numbered_read text
  refine ⟨answeredNumbers_sublist lines, ⟨_, hread, hnumbered.length_eq, hnumbered.text_mem⟩, ?_⟩
  simp only [report, hread]
  exact ⟨fun _ _ => duplicate_mem_iff, fun _ => mem_answeredNumbers_of_duplicate_mem,
    fun _ => exists_number_of_duplicateOption_mem, fun hdangling hbrackets _ =>
      duplicate_mem_iff_of_not_drops (not_drops_of_not_hasStem hdangling hbrackets)⟩

def skyText : String := "# Sky\n# Grass\n[green] | green;\n# Sea\n[blue;"

def seaText : String := "# Sky\n[blue] | grey;\n# Sea\nblue\n[blue] | green | blue;\n# Grass"

def reportOn (text : String) : ErrorMap :=
  ((Exercise.read .recognition text).exercise.validate .classification).errors

theorem duplicates_numbered_skyText :
    "validation.duplicateOption.q1" ∈ (reportOn skyText).keys ∧
      "validation.duplicateOption.q2" ∈ (reportOn seaText).keys := by
  obtain ⟨-, -, hsame, -⟩ := duplicates_numbered skyText .classification
  obtain ⟨-, -, -, -, -, hall⟩ := duplicates_numbered seaText .classification
  have hsky : (2, 1) ∈ (answeredNumbers (countedLines skyText.toList)).zipIdx 1 ∧
      "parse.duplicate.q" ++ toString 2 ∈ (Exercise.read .recognition skyText).errors.keys := by
    decide +kernel
  have hsea : ¬ (Exercise.read .recognition seaText).errors.HasStem "parse.danglingQuestion.q" ∧
      ¬ (Exercise.read .recognition seaText).errors.HasStem "parse.brackets.line" ∧
      "parse.duplicate.q" ++ toString 2 ∈ (Exercise.read .recognition seaText).errors.keys := by
    decide +kernel
  exact ⟨(hsame 2 1 hsky.1).mp hsky.2, (hall hsea.1 hsea.2.1 2).mp hsea.2.2⟩

theorem duplicate_under_two_numbers :
    "parse.duplicate.q2" ∈ (Exercise.read .recognition skyText).errors.keys ∧
      "validation.duplicateOption.q2" ∉ (reportOn skyText).keys := by
  decide +kernel

end Worksheet.Recognition
