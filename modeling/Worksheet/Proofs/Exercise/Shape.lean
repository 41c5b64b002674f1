import Worksheet.Exercise.Grading
import Worksheet.Exercise.Shape
import Worksheet.Proofs.Category
import Worksheet.Proofs.Exercise.ResponseShape

namespace Worksheet

def Category.fillTitle (c : Category) : Category :=
  { c with title := if c.title = "" then c.label else c.title }

theorem Category.fillTitle_fillTitle (c : Category) : c.fillTitle.fillTitle = c.fillTitle := by
  by_cases h : c.title = ""
  · simp [fillTitle, h]
  · simp [fillTitle, h]

def Exercise.fillTitles : Exercise → Exercise
  | classification c => classification { c with categories := c.categories.map Category.fillTitle }
  | e => e

def Exercise.Titled (e : Exercise) : Prop := e.fillTitles = e

instance (e : Exercise) : Decidable e.Titled := inferInstanceAs (Decidable (_ = _))

namespace Shape

variable {α β : Type}

section Results

theorem map_eq_ok {f : α → β} {r : Result α} {y : β} (h : r.map f = .ok y) :
    ∃ x, r = .ok x ∧ f x = y := by
  cases r with
  | error faults => cases h
  | ok x => exact ⟨x, rfl, Except.ok.inj h⟩

theorem below_eq_ok {step : Step} {r : Result α} {x : α} (h : below step r = .ok x) : r = .ok x := by
  cases r with
  | error faults => cases h
  | ok y => exact h

theorem both_eq_ok {a : Result α} {b : Result β} {x : α} {y : β} (h : both a b = .ok (x, y)) :
    a = .ok x ∧ b = .ok y := by
  cases a with
  | error faults => cases b <;> cases h
  | ok x' =>
      cases b with
      | error faults => cases h
      | ok y' =>
          cases h
          exact ⟨rfl, rfl⟩

theorem ok_mem_of_every_eq_ok :
    ∀ {rs : List (Result α)} {xs : List α}, every rs = .ok xs → ∀ x ∈ xs, .ok x ∈ rs := by
  intro rs
  induction rs with
  | nil =>
      intro xs h x hx
      cases h
      cases hx
  | cons r rs ih =>
      intro xs h x hx
      obtain ⟨⟨y, ys⟩, hboth, rfl⟩ := map_eq_ok h
      obtain ⟨hr, hrs⟩ := both_eq_ok hboth
      rcases List.mem_cons.mp hx with rfl | hx
      · exact hr ▸ List.mem_cons_self
      · exact List.mem_cons_of_mem r (ih hrs x hx)

theorem exists_of_listOf_eq_ok {read : Reader α} {v : Value} {xs : List α}
    (h : listOf read v = .ok xs) : ∀ x ∈ xs, ∃ w, read w = .ok x := by
  intro x hx
  cases v with
  | list items =>
      obtain ⟨⟨w, i⟩, -, hw⟩ := List.mem_map.mp (ok_mem_of_every_eq_ok h x hx)
      exact ⟨w, below_eq_ok hw⟩
  | null | bool | int | float | str | torn | map => cases h

theorem of_field_eq_ok {entries : List (String × Value)} {name : String} {default : Option α}
    {read : Reader α} {x : α} (h : field entries name default read = .ok x) :
    default = some x ∨ ∃ v, read v = .ok x := by
  unfold field at h
  split at h
  · next v _ => exact Or.inr ⟨v, below_eq_ok h⟩
  · exact Or.inl (congrArg some (Except.ok.inj h))
  · cases h

end Results

open Exercise (categoryRecord questionRecord pairRecord)

theorem category_categoryRecord (c : Category) : category (categoryRecord c) = .ok c.fillTitle := by
  have hitems : listOf string (Exercise.textList c.items) = .ok c.items := listOf_map string_str c.items
  rw [categoryRecord, category, field_of_lookup rfl (string_str c.label),
    field_of_lookup rfl (string_str c.title), field_of_lookup rfl hitems]
  rfl

theorem question_questionRecord (q : Question) : question (questionRecord q) = .ok q := by
  have hcorrect : listOf string (Exercise.textList q.correctOptions) = .ok q.correctOptions :=
    listOf_map string_str q.correctOptions
  have hoptions : listOf string (Exercise.textList q.options) = .ok q.options :=
    listOf_map string_str q.options
  rw [questionRecord, question, field_of_lookup rfl (string_str q.question),
    field_of_lookup rfl hcorrect, field_of_lookup rfl hoptions]
  rfl

theorem pair_pairRecord (p : Pair) : pair (pairRecord p) = .ok p := by
  rw [pairRecord, pair, field_of_lookup rfl (string_str p.left),
    field_of_lookup rfl (string_str p.right)]
  rfl

theorem exercise_toValue (e : Exercise) : exercise e.toValue = .ok e.fillTitles := by
  have hexercise : exercise e.toValue =
      below (.key e.family.name) (exerciseOf e.family (("type", .str e.family.name) :: e.fields)) := by
    cases e <;> rfl
  have htexts : ∀ items, listOf string (Exercise.textList items) = .ok items := listOf_map string_str
  rw [hexercise]
  cases e with
  | classification c =>
      have hcategories : listOf category (.list (c.categories.map categoryRecord)) =
          .ok (c.categories.map Category.fillTitle) := listOf_map_ok category_categoryRecord c.categories
      rw [Exercise.family, exerciseOf, classification, Exercise.fields,
        field_of_lookup rfl hcategories, field_of_lookup rfl (htexts c.distractors)]
      rfl
  | table t =>
      have hkey : mapOf (listOf string) (Exercise.textLists t.answerKey) = .ok t.answerKey :=
        mapOf_map htexts t.answerKey
      rw [Exercise.family, exerciseOf, table, Exercise.fields, field_of_lookup rfl (htexts t.rows),
        field_of_lookup rfl (htexts t.cols), field_of_lookup rfl hkey,
        field_of_lookup rfl (htexts t.distractors)]
      rfl
  | recognition r =>
      have hquestions : listOf question (.list (r.questions.map questionRecord)) = .ok r.questions :=
        listOf_map question_questionRecord r.questions
      rw [Exercise.family, exerciseOf, Exercise.fields, field_of_lookup rfl hquestions]
      rfl
  | seriation s =>
      rw [Exercise.family, exerciseOf, Exercise.fields, field_of_lookup rfl (htexts s.items)]
      rfl
  | association a =>
      have hpairs : listOf pair (.list (a.pairs.map pairRecord)) = .ok a.pairs :=
        listOf_map pair_pairRecord a.pairs
      rw [Exercise.family, exerciseOf, Exercise.fields, field_of_lookup rfl hpairs,
        field_of_lookup rfl (htexts a.distractors)]
      rfl

theorem fillTitle_of_category {v : Value} {c : Category} (h : category v = .ok c) :
    c.fillTitle = c := by
  cases v with
  | map es =>
      obtain ⟨⟨label, title, items⟩, -, rfl⟩ := map_eq_ok h
      exact Category.fillTitle_fillTitle ⟨label, title, items⟩
  | null | bool | int | float | str | torn | list => cases h

theorem titled_of_exerciseOf {family : Family} {es : List (String × Value)} {e : Exercise}
    (h : exerciseOf family es = .ok e) : e.Titled := by
  cases family with
  | classification =>
      obtain ⟨c, hc, rfl⟩ := map_eq_ok h
      obtain ⟨⟨categories, distractors⟩, hboth, rfl⟩ := map_eq_ok hc
      have hfill : ∀ c ∈ categories, c.fillTitle = c := by
        intro c hmem
        rcases of_field_eq_ok (both_eq_ok hboth).1 with hdefault | ⟨v, hv⟩
        · cases hdefault
          cases hmem
        · obtain ⟨w, hw⟩ := exists_of_listOf_eq_ok hv c hmem
          exact fillTitle_of_category hw
      rw [Exercise.Titled, Exercise.fillTitles, map_of_forall_eq hfill]
  | table | recognition | seriation | association =>
      obtain ⟨x, -, rfl⟩ := map_eq_ok h
      rfl

theorem titled_of_exercise {v : Value} {e : Exercise} (h : exercise v = .ok e) : e.Titled := by
  cases v with
  | map es =>
      simp only [exercise] at h
      split at h
      · cases h
      · split at h
        · exact titled_of_exerciseOf (below_eq_ok h)
        · cases h
      · cases h
  | null | bool | int | float | str | torn | list => cases h

end Shape

namespace Exercise

theorem titled_read (family : Family) (text : String) : (read family text).exercise.Titled := by
  cases family with
  | classification =>
      have hfill : ∀ c ∈ (readCategories text).categories, c.fillTitle = c := by
        intro c hc
        rw [readCategories_eq] at hc
        have htitle : c.title ≠ "" := (sound_of_mem_definitions (mem_enterCategories hc).1).2.1.1
        rw [Category.fillTitle, if_neg htitle]
      rw [read_classification, Titled, fillTitles, Classification.read, map_of_forall_eq hfill]
  | table => rw [read_table]; rfl
  | recognition => rw [read_recognition]; rfl
  | seriation => rw [read_seriation]; rfl
  | association => rw [read_association]; rfl

theorem exercise_read_back (e : Exercise) :
    (Shape.exercise e.toValue = .ok e ↔ e.Titled) ∧
      (∀ v, Shape.exercise v = .ok e → Shape.exercise e.toValue = .ok e) ∧
      (∀ family text, (read family text).exercise = e → Shape.exercise e.toValue = .ok e) ∧
      (e.Titled → ∃ decoded, Shape.exercise e.toValue = .ok decoded ∧ decoded.family = e.family ∧
        (∀ preset, decoded.validateAs preset = e.validateAs preset) ∧
        ∀ response preset, decoded.gradeAs response preset = e.gradeAs response preset) := by
  have hback : Shape.exercise e.toValue = .ok e ↔ e.Titled := by
    rw [Shape.exercise_toValue, Except.ok.injEq, Titled]
  refine ⟨hback, fun v hv => hback.mpr (Shape.titled_of_exercise hv), ?_, ?_⟩
  · rintro family text rfl
    exact hback.mpr (titled_read family text)
  · intro h
    exact ⟨e, hback.mpr h, rfl, fun _ => rfl, fun _ _ => rfl⟩

def plumValue : Value :=
  .map [("distractors", .list [.str "oak"]), ("colour", .int 7),
    ("categories", .list [.map [("items", .list [.str "sloe"]), ("label", .str "plum")]]),
    ("type", .str "classification")]

def plum : Exercise := classification ⟨[⟨"plum", "plum", ["sloe"]⟩], ["oak"]⟩

theorem exercise_read_back_plum :
    Shape.exercise plumValue = .ok plum ∧
      (read .classification "plum = sloe;\n= oak;").exercise = plum ∧ plum.Titled ∧
      Shape.exercise plum.toValue = .ok plum := by
  have hvalue : Shape.exercise plumValue = .ok plum := rfl
  have hread : (read .classification "plum = sloe;\n= oak;").exercise = plum := by decide +kernel
  have htitled : plum.Titled := rfl
  have hback : Shape.exercise plum.toValue = .ok plum :=
    (exercise_read_back plum).2.1 plumValue hvalue
  exact ⟨hvalue, hread, htitled, hback⟩

end Exercise

end Worksheet
