import Worksheet.Proofs.Association.Validation
import Worksheet.Proofs.Classification.Validation
import Worksheet.Proofs.Definitions

namespace Worksheet

open ErrorMap

def labelledIn (rule : Markup.LabelRule) (text : String) : List Definition :=
  (Markup.readDocument rule (Markup.extractDistractors text.toList).remainder).labelled.map
    (fun e => (e.1, e.2.items))

structure Entering (γ π : Type) where
  key : Definition → String
  entry? : Definition → Option γ
  problem? : Definition → Option π
  again : String → π

namespace Entering

variable {γ π : Type} (f : Entering γ π)

def enter (seen : List String) : List Definition → List γ × List π
  | [] => ([], [])
  | d :: L =>
      if f.key d ∈ seen then ((enter seen L).1, f.again (f.key d) :: (enter seen L).2)
      else
        ((f.entry? d).toList ++ (enter (f.key d :: seen) L).1,
          (f.problem? d).toList ++ (enter (f.key d :: seen) L).2)

theorem fst_enter :
    ∀ (L : List Definition) (seen : List String),
      (f.enter seen L).1 = (firsts f.key seen L).filterMap f.entry? := by
  intro L
  induction L with
  | nil => intro _; rfl
  | cons d L ih =>
      intro seen
      by_cases hd : f.key d ∈ seen
      · rw [enter, firsts, if_pos hd, if_pos hd, ih]
      · rw [enter, firsts, if_neg hd, if_neg hd, ih, List.filterMap_cons]
        cases f.entry? d <;> rfl

theorem fst_enter_nil (L : List Definition) :
    (f.enter [] L).1 =
      (distinct (L.map f.key)).filterMap (fun k => (L.find? (f.key · = k)).bind f.entry?) := by
  have hall : (distinct (L.map f.key)).filter (· ∉ ([] : List String)) = distinct (L.map f.key) :=
    List.filter_eq_self.mpr (fun k _ => by simp)
  rw [fst_enter, firsts_eq_filterMap, hall, List.filterMap_filterMap]

theorem mem_snd_enter {p : π} :
    ∀ {L : List Definition} {seen : List String}, p ∈ (f.enter seen L).2 ↔
      (∃ k, Recurs seen (L.map f.key) k ∧ f.again k = p) ∨
        ∃ d ∈ firsts f.key seen L, f.problem? d = some p := by
  intro L
  induction L with
  | nil => intro seen; simp [enter, firsts, not_recurs_nil]
  | cons d L ih =>
      intro seen
      simp only [List.map_cons, recurs_cons, or_and_right, exists_or]
      by_cases hd : f.key d ∈ seen
      · rw [enter, firsts, if_pos hd, if_pos hd, List.mem_cons, ih]
        simp only [hd, true_and, exists_eq_left, recurs_cons_of_mem hd, or_assoc, eq_comm (a := p)]
      · rw [enter, firsts, if_neg hd, if_neg hd, List.mem_append, ih, Option.mem_toList]
        simp only [hd, false_and, exists_false, false_or, List.mem_cons, or_and_right, exists_or,
          exists_eq_left]
        rw [or_left_comm]

theorem mem_snd_enter_nil {L : List Definition} {p : π} :
    p ∈ (f.enter [] L).2 ↔
      (∃ k, 2 ≤ (L.map f.key).count k ∧ f.again k = p) ∨
        ∃ d, L.find? (f.key · = f.key d) = some d ∧ f.problem? d = some p := by
  simp only [mem_snd_enter, recurs_nil_iff, mem_firsts]

theorem mem_reported {L : List Definition} {nothing p : π} :
    p ∈ (if L.isEmpty then nothing :: (f.enter [] L).2 else (f.enter [] L).2) ↔
      (L = [] ∧ p = nothing) ∨ p ∈ (f.enter [] L).2 := by
  cases L with
  | nil => simp
  | cons d L => simp

theorem exists_first_iff {L : List Definition} {P : Definition → Prop} {k : String} :
    (∃ d, L.find? (f.key · = f.key d) = some d ∧ P d ∧ f.key d = k) ↔
      ∃ d, L.find? (f.key · = k) = some d ∧ P d := by
  constructor
  · rintro ⟨d, hfirst, hd, rfl⟩
    exact ⟨d, hfirst, hd⟩
  · rintro ⟨d, hfirst, hd⟩
    have hkey : f.key d = k := by simpa using List.find?_some hfirst
    subst hkey
    exact ⟨d, hfirst, hd, rfl⟩

end Entering

section Categories

variable {L : List Definition} {text : String}

def Definition.label (d : Definition) : String := normalizeLabel d.1

def Category.entering : Entering Category CategoryProblem where
  key := Definition.label
  entry? := fun d => some ⟨d.label, d.1, d.2⟩
  problem? := fun d => if d.2 = [] then some (.emptyCategory d.label) else none
  again := .duplicateCategory

theorem enterCategories_eq_enter :
    ∀ (L : List Definition) (seen : List String),
      enterCategories seen L = Category.entering.enter seen L := by
  intro L
  induction L with
  | nil => intro _; rfl
  | cons d L ih =>
      intro seen
      obtain ⟨title, items⟩ := d
      by_cases hd : normalizeLabel title ∈ seen
      · rw [enterCategories_cons_of_mem hd, ih]
        exact (if_pos hd).symm
      · rw [enterCategories_cons_of_not_mem hd, ih, Entering.enter]
        refine Eq.trans ?_ (if_neg hd).symm
        cases items <;> rfl

def CategoryProblem.Arises (L : List Definition) : CategoryProblem → Prop
  | noMatches => L = []
  | duplicateCategory label => 2 ≤ (L.map Definition.label).count label
  | emptyCategory label => ∃ d, L.find? (·.label = label) = some d ∧ d.2 = []

theorem CategoryProblem.arises_iff {p : CategoryProblem} :
    p.Arises L ↔ (L = [] ∧ p = .noMatches) ∨ p ∈ (Category.entering.enter [] L).2 := by
  rw [Entering.mem_snd_enter_nil]
  cases p with
  | noMatches => simp [Arises, Category.entering]
  | duplicateCategory label => simp [Arises, Category.entering]
  | emptyCategory label =>
      refine (Category.entering.exists_first_iff (P := (·.2 = []))).symm.trans ?_
      simp [Category.entering]

theorem mem_problems_readCategories {p : CategoryProblem} :
    p ∈ (readCategories text).problems ↔ p.Arises (labelledIn .category text) := by
  have hproblems : (readCategories text).problems =
      if (labelledIn .category text).isEmpty then
        .noMatches :: (Category.entering.enter [] (labelledIn .category text)).2
      else (Category.entering.enter [] (labelledIn .category text)).2 := by
    rw [← enterCategories_eq_enter]
    rfl
  rw [hproblems, Entering.mem_reported, CategoryProblem.arises_iff]

theorem categories_readCategories :
    (readCategories text).categories =
      (distinct ((labelledIn .category text).map Definition.label)).filterMap (fun label =>
        ((labelledIn .category text).find? (·.label = label)).map
          (fun d => ⟨label, d.1, d.2⟩)) := by
  have hcategories : (readCategories text).categories =
      (Category.entering.enter [] (labelledIn .category text)).1 := by
    rw [← enterCategories_eq_enter]
    rfl
  rw [hcategories, Entering.fst_enter_nil]
  refine List.filterMap_congr (fun label _ => ?_)
  change ((labelledIn .category text).find? (·.label = label)).bind _ = _
  cases hfirst : (labelledIn .category text).find? (·.label = label) with
  | none => rfl
  | some d =>
      have hlabel : d.label = label := by simpa using List.find?_some hfirst
      subst hlabel
      rfl

end Categories

section Pairs

variable {L : List Definition} {text : String}

namespace Association

def Pair.entering : Entering Pair PairProblem where
  key := Prod.fst
  entry? := fun d => d.2.head?.map (⟨d.1, ·⟩)
  problem? := fun d =>
    if d.2 = [] then some (.emptyRight d.1)
    else if 2 ≤ d.2.length then some (.multipleRight d.1 d.2) else none
  again := .duplicateLeft

theorem enterPairs_eq_enter :
    ∀ (L : List Definition) (seen : List String),
      enterPairs seen L = Pair.entering.enter seen L := by
  intro L
  induction L with
  | nil => intro _; rfl
  | cons d L ih =>
      intro seen
      obtain ⟨left, items⟩ := d
      by_cases hd : left ∈ seen
      · rw [enterPairs, if_pos hd, ih]
        exact (if_pos hd).symm
      · rw [enterPairs, if_neg hd, ih, Entering.enter]
        refine Eq.trans ?_ (if_neg hd).symm
        cases items with
        | nil => rfl
        | cons right others => cases others <;> rfl

def PairProblem.Arises (L : List Definition) : PairProblem → Prop
  | noMatches => L = []
  | duplicateLeft left => 2 ≤ (L.map Prod.fst).count left
  | emptyRight left => ∃ d, L.find? (·.1 = left) = some d ∧ d.2 = []
  | multipleRight left rights =>
      ∃ d, L.find? (·.1 = left) = some d ∧ 2 ≤ d.2.length ∧ d.2 = rights

theorem PairProblem.arises_iff {p : PairProblem} :
    p.Arises L ↔ (L = [] ∧ p = .noMatches) ∨ p ∈ (Pair.entering.enter [] L).2 := by
  rw [Entering.mem_snd_enter_nil]
  cases p with
  | noMatches => simp [Arises, Pair.entering, ite_eq_iff]
  | duplicateLeft left => simp [Arises, Pair.entering, ite_eq_iff]
  | emptyRight left =>
      refine (Pair.entering.exists_first_iff (P := (·.2 = []))).symm.trans ?_
      simp [Pair.entering, ite_eq_iff]
  | multipleRight left rights =>
      refine (Pair.entering.exists_first_iff
        (P := fun d => 2 ≤ d.2.length ∧ d.2 = rights)).symm.trans ?_
      have hlong : 2 ≤ rights.length → rights ≠ [] := by
        rintro h rfl
        exact absurd h (by decide)
      simpa [Pair.entering, ite_eq_iff] using fun _ => hlong

theorem mem_problems_read {p : PairProblem} :
    p ∈ (read text).2 ↔ p.Arises (labelledIn .any text) := by
  have hproblems : (read text).2 =
      if (labelledIn .any text).isEmpty then
        .noMatches :: (Pair.entering.enter [] (labelledIn .any text)).2
      else (Pair.entering.enter [] (labelledIn .any text)).2 := by
    rw [← enterPairs_eq_enter]
    rfl
  rw [hproblems, Entering.mem_reported, PairProblem.arises_iff]

theorem pairs_read :
    (read text).1.pairs =
      (distinct ((labelledIn .any text).map Prod.fst)).filterMap (fun left =>
        ((labelledIn .any text).find? (·.1 = left)).bind
          (fun d => d.2.head?.map (fun right => ⟨left, right⟩))) := by
  have hpairs : (read text).1.pairs = (Pair.entering.enter [] (labelledIn .any text)).1 := by
    rw [← enterPairs_eq_enter]
    rfl
  rw [hpairs, Entering.fst_enter_nil]
  refine List.filterMap_congr (fun left _ => ?_)
  change ((labelledIn .any text).find? (·.1 = left)).bind _ = _
  cases hfirst : (labelledIn .any text).find? (·.1 = left) with
  | none => rfl
  | some d =>
      have hleft : d.1 = left := by simpa using List.find?_some hfirst
      subst hleft
      rfl

namespace PairProblem

def stem : PairProblem → String
  | noMatches => "parse.noMatches"
  | duplicateLeft _ => "parse.duplicateLeft."
  | emptyRight _ => "parse.emptyRight."
  | multipleRight _ _ => "parse.multipleRight."

theorem isUnder_stem (p : PairProblem) : IsUnder p.stem p.key := by
  cases p with
  | noMatches => exact List.prefix_rfl
  | duplicateLeft left => exact isUnder_append _ left
  | emptyRight left => exact isUnder_append _ left
  | multipleRight left rights => exact isUnder_append _ left

theorem key_eq_iff {p q : PairProblem} :
    p.key = q.key ↔ p = q ∨
      ∃ left rights others, p = multipleRight left rights ∧ q = multipleRight left others := by
  constructor
  · intro h
    have hcmp := (h ▸ p.isUnder_stem).comparable q.isUnder_stem
    cases p with
    | noMatches =>
        cases q with
        | noMatches => exact Or.inl rfl
        | _ => exact absurd hcmp (by dsimp only [stem]; decide)
    | duplicateLeft left =>
        cases q with
        | duplicateLeft other =>
            have hleft : left = other := (String.append_right_inj _).mp h
            exact Or.inl (by rw [hleft])
        | _ => exact absurd hcmp (by dsimp only [stem]; decide)
    | emptyRight left =>
        cases q with
        | emptyRight other =>
            have hleft : left = other := (String.append_right_inj _).mp h
            exact Or.inl (by rw [hleft])
        | _ => exact absurd hcmp (by dsimp only [stem]; decide)
    | multipleRight left rights =>
        cases q with
        | multipleRight other others =>
            have hleft : left = other := (String.append_right_inj _).mp h
            exact Or.inr ⟨left, rights, others, rfl, by rw [hleft]⟩
        | _ => exact absurd hcmp (by dsimp only [stem]; decide)
  · rintro (rfl | ⟨left, rights, others, rfl, rfl⟩) <;> rfl

theorem eq_of_arises {p q : PairProblem} (hp : p.Arises L) (hq : q.Arises L) (h : p.key = q.key) :
    p = q := by
  obtain rfl | ⟨left, rights, others, rfl, rfl⟩ := key_eq_iff.mp h
  · rfl
  · obtain ⟨d, hd, -, rfl⟩ := hp
    obtain ⟨e, he, -, rfl⟩ := hq
    rw [Option.some_inj.mp (hd.symm.trans he)]

end PairProblem

end Association

end Pairs

theorem first_definition_counts (text : String) :
    ((readCategories text).categories =
        (distinct ((labelledIn .category text).map Definition.label)).filterMap (fun label =>
          ((labelledIn .category text).find? (·.label = label)).map
            (fun d => ⟨label, d.1, d.2⟩)) ∧
      (ofProblems (readCategories text).problems).Reports
        (CategoryProblem.Arises (labelledIn .category text))) ∧
    (Association.read text).1.pairs =
        (distinct ((labelledIn .any text).map Prod.fst)).filterMap (fun left =>
          ((labelledIn .any text).find? (·.1 = left)).bind
            (fun d => d.2.head?.map (fun right => ⟨left, right⟩))) ∧
      (ofProblems (Association.read text).2).Reports
        (Association.PairProblem.Arises (labelledIn .any text)) := by
  refine ⟨⟨categories_readCategories, ?_⟩, Association.pairs_read, ?_⟩
  · exact reports_ofProblems (fun p => mem_problems_readCategories)
      (fun p q _ _ => CategoryProblem.eq_of_key_eq)
  · exact reports_ofProblems (fun p => Association.mem_problems_read)
      (fun p q => Association.PairProblem.eq_of_arises)

end Worksheet
