import Worksheet.Proofs.Association.Grading

namespace Worksheet.Association

open OrderedMap

variable {a : Association} {response other : OrderedMap String}

def entryVerdict (a : Association) (e : String × String) : ItemVerdict :=
  ⟨e.1, some e.2, if a.partnerOf e.1 = some e.2 then .correct else .wrong⟩

def unanswered (a : Association) (response : OrderedMap String) : List String :=
  (distinct a.leftPool).filter (· ∉ response.keys)

def missedVerdict (a : Association) (left : String) : ItemVerdict :=
  ⟨left, a.partnerOf left, .missed⟩

def solved (a : Association) (response : OrderedMap String) : Finset String :=
  a.leftPool.toFinset.filter (fun left => response.find? left = a.partnerOf left)

theorem find?_key_eq_partnerOf (a : Association) (left : String) :
    (key a.pairs).find? left = a.partnerOf left := by
  rw [key, find?_ofListFirst, lookup_map, partnerOf]

theorem keys_key (a : Association) : (key a.pairs).keys = distinct a.leftPool := by
  rw [key, keys_ofListFirst, List.map_map]
  rfl

theorem partnerOf_isSome_iff {left : String} :
    (a.partnerOf left).isSome ↔ left ∈ a.leftPool := by
  rw [← find?_key_eq_partnerOf, find?_isSome_iff, keys_key, mem_distinct]

theorem submittedVerdicts_eq_map (a : Association) (response : OrderedMap String) :
    submittedVerdicts (key a.pairs) response = response.entries.map a.entryVerdict := by
  refine List.map_congr_left (fun e _ => ?_)
  rw [entryVerdict, ← find?_key_eq_partnerOf]

theorem missedVerdicts_eq_map (a : Association) (response : OrderedMap String) :
    missedVerdicts (key a.pairs) response = (a.unanswered response).map a.missedVerdict := by
  have hentry : ∀ e ∈ (key a.pairs).entries.filter (fun e => !response.contains e.1),
      ItemVerdict.mk e.1 (some e.2) .missed = a.missedVerdict e.1 := by
    intro e he
    have hfind : (key a.pairs).find? e.1 = some e.2 :=
      find?_eq_some_iff.mpr (List.mem_filter.mp he).1
    rw [missedVerdict, ← find?_key_eq_partnerOf, hfind]
  have hkeys : ((key a.pairs).entries.filter (fun e => !response.contains e.1)).map Prod.fst =
      a.unanswered response := by
    rw [unanswered, ← keys_key]
    change _ = ((key a.pairs).entries.map Prod.fst).filter (· ∉ response.keys)
    simp only [List.filter_map, Function.comp_def, contains_eq_decide, decide_not]
  rw [← hkeys, List.map_map]
  exact List.map_congr_left hentry

theorem verdicts_grade (a : Association) (response : OrderedMap String) :
    (grade a.pairs response).verdicts =
      response.entries.map a.entryVerdict ++ (a.unanswered response).map a.missedVerdict := by
  rw [grade_eq, ← submittedVerdicts_eq_map, ← missedVerdicts_eq_map]

theorem missed_verdicts_grade (a : Association) (response : OrderedMap String) :
    (grade a.pairs response).verdicts.filter (·.verdict = .missed) =
      (a.unanswered response).map a.missedVerdict := by
  have hentries : (response.entries.map a.entryVerdict).filter (·.verdict = .missed) = [] := by
    rw [List.filter_eq_nil_iff, List.forall_mem_map]
    intro e _
    rw [entryVerdict]
    split <;> simp
  have hmissed : ((a.unanswered response).map a.missedVerdict).filter (·.verdict = .missed) =
      (a.unanswered response).map a.missedVerdict := by
    rw [List.filter_eq_self, List.forall_mem_map]
    exact fun _ _ => rfl
  rw [verdicts_grade, List.filter_append, hentries, hmissed, List.nil_append]

theorem correct_eq_card_solved (a : Association) (response : OrderedMap String) :
    (grade a.pairs response).correct = (a.solved response).card := by
  rw [correct_grade, ← List.length_map (f := Prod.fst)]
  refine length_eq_card (nodup_keys_matched a.pairs response) (fun left => ?_)
  rw [solved, Finset.mem_filter, List.mem_toFinset, ← partnerOf_isSome_iff]
  constructor
  · intro h
    obtain ⟨⟨left, right⟩, he, rfl⟩ := List.mem_map.mp h
    obtain ⟨hresponse, hkey⟩ := mem_matched.mp he
    rw [find?_key_eq_partnerOf] at hkey
    exact ⟨by rw [hkey]; rfl, hresponse.trans hkey.symm⟩
  · rintro ⟨hsome, hanswer⟩
    obtain ⟨right, hright⟩ := Option.isSome_iff_exists.mp hsome
    have he : (left, right) ∈ matched a.pairs response :=
      mem_matched.mpr ⟨hanswer.trans hright, (find?_key_eq_partnerOf a left).trans hright⟩
    exact List.mem_map.mpr ⟨_, he, rfl⟩

def AnswersAgree (a : Association) (response other : OrderedMap String) : Prop :=
  ∀ left ∈ a.leftPool, other.find? left = response.find? left

theorem AnswersAgree.solved_eq (h : a.AnswersAgree response other) :
    a.solved other = a.solved response := by
  refine Finset.filter_congr (fun left hleft => ?_)
  rw [h left (List.mem_toFinset.mp hleft)]

theorem AnswersAgree.unanswered_eq (h : a.AnswersAgree response other) :
    a.unanswered other = a.unanswered response := by
  refine List.filter_congr (fun left hleft => decide_eq_decide.mpr (not_congr ?_))
  rw [← find?_isSome_iff, ← find?_isSome_iff, h left (mem_distinct.mp hleft)]

theorem verdicts_partitioned (a : Association) (response : OrderedMap String) :
    (grade a.pairs response).verdicts =
        response.entries.map a.entryVerdict ++ (a.unanswered response).map a.missedVerdict ∧
      (grade a.pairs response).correct = (a.solved response).card ∧
      ∀ other : OrderedMap String, a.AnswersAgree response other →
        (grade a.pairs other).correct = (grade a.pairs response).correct ∧
          (grade a.pairs other).total = (grade a.pairs response).total ∧
          (grade a.pairs other).verdicts.filter (·.verdict = .missed) =
            (grade a.pairs response).verdicts.filter (·.verdict = .missed) := by
  refine ⟨verdicts_grade a response, correct_eq_card_solved a response, fun other h => ?_⟩
  refine ⟨?_, rfl, ?_⟩
  · rw [correct_eq_card_solved, correct_eq_card_solved, h.solved_eq]
  · rw [missed_verdicts_grade, missed_verdicts_grade, h.unanswered_eq]

def habitats : Association where
  pairs := [⟨"otter", "river"⟩, ⟨"owl", "wood"⟩, ⟨"otter", "sea"⟩, ⟨"hare", "field"⟩]
  distractors := []

def habitatAnswers : OrderedMap String :=
  .ofList [("yak", "hill"), ("otter", "sea"), ("hare", "field")]

def habitatOthers : OrderedMap String :=
  .ofList [("hare", "field"), ("owls", "wood"), ("otter", "sea")]

theorem verdicts_partitioned_habitats :
    (grade habitats.pairs habitatAnswers).verdicts =
        [⟨"yak", some "hill", .wrong⟩, ⟨"otter", some "sea", .wrong⟩,
          ⟨"hare", some "field", .correct⟩, ⟨"owl", some "wood", .missed⟩] ∧
      (grade habitats.pairs habitatAnswers).correct = 1 ∧
      habitats.AnswersAgree habitatAnswers habitatOthers ∧
      (grade habitats.pairs habitatOthers).correct = (grade habitats.pairs habitatAnswers).correct ∧
      (grade habitats.pairs habitatOthers).verdicts.filter (·.verdict = .missed) =
        (grade habitats.pairs habitatAnswers).verdicts.filter (·.verdict = .missed) := by
  obtain ⟨hverdicts, hcorrect, hothers⟩ := verdicts_partitioned habitats habitatAnswers
  have hagree : habitats.AnswersAgree habitatAnswers habitatOthers := by
    unfold AnswersAgree
    decide
  obtain ⟨hsame, -, hmissed⟩ := hothers habitatOthers hagree
  exact ⟨hverdicts.trans (by decide), hcorrect.trans (by decide), hagree, hsame,
    hmissed⟩

end Worksheet.Association
