import Worksheet.Association.Grading
import Worksheet.Proofs.Association.Validation
import Worksheet.Proofs.Grade
import Worksheet.Proofs.OrderedMap

namespace Worksheet.Association

open OrderedMap

variable {pairs : List Pair} {response : OrderedMap String}

def submittedVerdicts (key response : OrderedMap String) : List ItemVerdict :=
  response.entries.map (fun (left, right) =>
    ⟨left, some right, if key.find? left = some right then .correct else .wrong⟩)

def missedVerdicts (key response : OrderedMap String) : List ItemVerdict :=
  (key.entries.filter (fun e => !response.contains e.1)).map (fun (left, right) =>
    ⟨left, some right, .missed⟩)

section Tally

variable (key : OrderedMap String)

theorem countSubmitted_eq (t : Tally) (entry : String × String) :
    countSubmitted key t entry = t.including [⟨entry.1, some entry.2,
      if key.find? entry.1 = some entry.2 then .correct else .wrong⟩] := by
  rw [countSubmitted]
  split <;> simp [Tally.including, countOf]

theorem noteMissed_eq (response : OrderedMap String) (verdicts : Array ItemVerdict) :
    key.entries.foldl (noteMissed response) verdicts =
      verdicts ++ (missedVerdicts key response).toArray := by
  have hleft : key.entries.foldl (noteMissed response) verdicts =
      (key.entries.filter (fun e => !response.contains e.1)).foldl
        (fun verdicts e => verdicts ++ [⟨e.1, some e.2, .missed⟩].toArray) verdicts := by
    rw [List.foldl_filter]
    congr 1
    funext verdicts e
    rw [noteMissed]
    cases response.contains e.1 <;> simp
  rw [hleft, foldl_push_eq (fun _ _ => rfl), missedVerdicts, List.map_eq_flatMap]

theorem grade_eq (pairs : List Pair) (response : OrderedMap String) :
    grade pairs response =
      let submitted := submittedVerdicts (Association.key pairs) response
      { score := .share (countOf .correct submitted) pairs.length
        correct := countOf .correct submitted
        total := pairs.length
        key := .partners (.ofList (pairs.map (fun p => (p.left, p.right))))
        response := .partners response
        verdicts := submitted ++ missedVerdicts (Association.key pairs) response } := by
  rw [grade, Tally.foldl_eq_including (countSubmitted_eq _), noteMissed_eq, ← List.map_eq_flatMap]
  simp [Tally.including, submittedVerdicts]

end Tally

def matched (pairs : List Pair) (response : OrderedMap String) : List (String × String) :=
  response.entries.filter (fun e => (key pairs).find? e.1 = some e.2)

theorem correct_grade : (grade pairs response).correct = (matched pairs response).length := by
  rw [grade_eq]
  change countOf .correct (submittedVerdicts (key pairs) response) = _
  rw [countOf, submittedVerdicts, List.countP_map, matched, ← List.countP_eq_length_filter]
  refine List.countP_congr (fun e _ => ?_)
  by_cases h : (key pairs).find? e.1 = some e.2 <;> simp [h]

theorem mem_of_find?_key {left right : String} (h : (key pairs).find? left = some right) :
    ⟨left, right⟩ ∈ pairs := by
  rw [key, find?_ofListFirst, List.lookup_eq_some_iff] at h
  obtain ⟨before, after, heq, -⟩ := h
  have hmem : (left, right) ∈ pairs.map (fun p => (p.left, p.right)) := by
    rw [heq]
    simp
  obtain ⟨p, hp, hpair⟩ := List.mem_map.mp hmem
  obtain ⟨rfl, rfl⟩ := Prod.mk.inj hpair
  exact hp

theorem find?_key (hn : (pairs.map (·.left)).Nodup) {p : Pair} (hp : p ∈ pairs) :
    (key pairs).find? p.left = some p.right := by
  rw [key, find?_ofListFirst, lookup_eq_some_iff]
  · exact List.mem_map.mpr ⟨p, hp, rfl⟩
  · simpa [Function.comp_def] using hn

theorem mem_matched {left right : String} :
    (left, right) ∈ matched pairs response ↔
      response.find? left = some right ∧ (key pairs).find? left = some right := by
  simp only [matched, List.mem_filter, find?_eq_some_iff, decide_eq_true_eq]

theorem nodup_keys_matched (pairs : List Pair) (response : OrderedMap String) :
    ((matched pairs response).map Prod.fst).Nodup :=
  response.nodup.sublist (List.filter_sublist.map _)

theorem keys_matched_subset (pairs : List Pair) (response : OrderedMap String) :
    (matched pairs response).map Prod.fst ⊆ pairs.map (·.left) := by
  intro left h
  obtain ⟨⟨l, r⟩, he, rfl⟩ := List.mem_map.mp h
  exact List.mem_map.mpr ⟨_, mem_of_find?_key (mem_matched.mp he).2, rfl⟩

theorem length_matched_le (pairs : List Pair) (response : OrderedMap String) :
    (matched pairs response).length ≤ pairs.length := by
  have hsub := List.subperm_of_subset (nodup_keys_matched pairs response)
    (keys_matched_subset pairs response)
  simpa using hsub.length_le

theorem correct_eq_total_iff (hn : (pairs.map (·.left)).Nodup) :
    (grade pairs response).correct = (grade pairs response).total ↔
      ∀ p ∈ pairs, response.find? p.left = some p.right := by
  rw [correct_grade]
  change (matched pairs response).length = pairs.length ↔ _
  constructor
  · intro hlength p hp
    have hsub := List.subperm_of_subset (nodup_keys_matched pairs response)
      (keys_matched_subset pairs response)
    have hperm := hsub.perm_of_length_le (by simp [hlength])
    have hleft : p.left ∈ (matched pairs response).map Prod.fst :=
      hperm.mem_iff.mpr (List.mem_map.mpr ⟨p, hp, rfl⟩)
    obtain ⟨⟨left, right⟩, he, rfl⟩ := List.mem_map.mp hleft
    obtain ⟨hresponse, hkey⟩ := mem_matched.mp he
    have hright : p.right = right := Option.some.inj ((find?_key hn hp).symm.trans hkey)
    rw [hright]
    exact hresponse
  · intro h
    apply Nat.le_antisymm (length_matched_le pairs response)
    have hsubset : pairs.map (·.left) ⊆ (matched pairs response).map Prod.fst := by
      intro left hl
      obtain ⟨p, hp, rfl⟩ := List.mem_map.mp hl
      exact List.mem_map.mpr ⟨_, mem_matched.mpr ⟨h p hp, find?_key hn hp⟩, rfl⟩
    simpa using (List.subperm_of_subset hn hsubset).length_le

theorem correct_le_total_grade : (grade pairs response).correct ≤ (grade pairs response).total := by
  rw [correct_grade]
  exact length_matched_le pairs response

theorem inRange_grade : (grade pairs response).InRange :=
  Grade.inRange_of_share rfl correct_le_total_grade

theorem bounded_grade : (grade pairs response).Bounded := ⟨correct_le_total_grade, inRange_grade⟩

theorem isTallied_grade : (grade pairs response).IsTallied := by
  have hmissed : countOf .correct (missedVerdicts (key pairs) response) = 0 := by
    apply countOf_eq_zero
    intro v hv
    obtain ⟨e, -, rfl⟩ := List.mem_map.mp hv
    change Verdict.missed ≠ .correct
    decide
  rw [Grade.IsTallied, grade_eq, countOf_append, hmissed]
  rfl

end Worksheet.Association
