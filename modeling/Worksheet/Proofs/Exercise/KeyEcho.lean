import Worksheet.Proofs.Association.Verdicts
import Worksheet.Proofs.Classification.Grading
import Worksheet.Proofs.Exercise.FullMarks

namespace Worksheet

open OrderedMap

namespace Association

variable {a : Association} {response : OrderedMap String}

def lastPartnerOf (a : Association) (left : String) : Option String :=
  (a.pairs.reverse.find? (·.left = left)).map (·.right)

def echo (a : Association) : OrderedMap String := .ofList (a.pairs.map (fun p => (p.left, p.right)))

theorem find?_echo (a : Association) (left : String) :
    a.echo.find? left = a.lastPartnerOf left := by
  rw [echo, find?_ofList, ← List.map_reverse, lookup_map, lastPartnerOf]

theorem keys_echo (a : Association) : a.echo.keys = distinct a.leftPool := by
  rw [echo, keys_ofList, List.map_map]
  rfl

theorem echo_eq_key_iff :
    a.echo = key a.pairs ↔ ∀ left, a.lastPartnerOf left = a.partnerOf left := by
  rw [echo, key, ofList_eq_ofListFirst_iff]
  refine forall_congr' (fun left => ?_)
  rw [← List.map_reverse, lookup_map, lookup_map, lastPartnerOf, partnerOf]

theorem echo_eq_key_of_validate_ok {preset : TablePreset}
    (h : ((Exercise.association a).validate preset).ok = true) : a.echo = key a.pairs := by
  have hnodup : a.leftPool.Nodup :=
    nodup_leftPool_of_defects_eq_nil (ErrorMap.isEmpty_ofProblems.mp h)
  symm
  apply ofListFirst_eq_ofList
  rw [List.map_map]
  exact hnodup

theorem correct_mem_verdicts_iff {e : String × String} (he : e ∈ response.entries) :
    ⟨e.1, some e.2, .correct⟩ ∈ (grade a.pairs response).verdicts ↔ a.partnerOf e.1 = some e.2 := by
  rw [verdicts_grade, List.mem_append]
  constructor
  · rintro (h | h)
    · obtain ⟨e', -, heq⟩ := List.mem_map.mp h
      unfold entryVerdict at heq
      obtain ⟨hleft, hright, hverdict⟩ := ItemVerdict.mk.inj heq
      rw [← hleft, ← hright]
      by_contra hne
      rw [if_neg hne] at hverdict
      cases hverdict
    · obtain ⟨left, -, heq⟩ := List.mem_map.mp h
      cases (ItemVerdict.mk.inj heq).2.2
  · intro h
    refine .inl (List.mem_map.mpr ⟨e, he, ?_⟩)
    rw [entryVerdict, if_pos h]

end Association

namespace Classification

variable {c : Classification}

def lastItemsOf (c : Classification) (label : String) : Option (List String) :=
  (c.categories.reverse.find? (·.label = label)).map (·.items)

def echo (c : Classification) : OrderedMap (List String) :=
  .ofList (c.categories.map (fun category => (category.label, category.items)))

theorem find?_echo (c : Classification) (label : String) :
    c.echo.find? label = c.lastItemsOf label := by
  rw [echo, find?_ofList, ← List.map_reverse, lookup_map, lastItemsOf]

theorem keys_echo (c : Classification) : c.echo.keys = distinct c.labels := by
  rw [echo, keys_ofList, List.map_map]
  rfl

theorem echo_eq_answerKey_iff :
    c.echo = c.answerKey ↔
      ∀ label, c.lastItemsOf label = (c.categories.find? (·.label = label)).map (·.items) := by
  rw [echo, answerKey, ofList_eq_ofListFirst_iff]
  refine forall_congr' (fun label => ?_)
  rw [← List.map_reverse, lookup_map, lookup_map, lastItemsOf]

theorem echo_eq_answerKey_of_validate_ok {preset : TablePreset}
    (h : ((Exercise.classification c).validate preset).ok = true) : c.echo = c.answerKey := by
  have hnodup : c.labels.Nodup :=
    nodup_labels_of_defects_eq_nil (ErrorMap.isEmpty_ofProblems.mp h)
  symm
  apply ofListFirst_eq_ofList
  rw [List.map_map]
  exact hnodup

end Classification

theorem key_echoed (a : Association) (response : OrderedMap String) (c : Classification)
    (placed : OrderedMap (Option String)) :
    (∃ echo, (Association.grade a.pairs response).key = .partners echo ∧
      echo.keys = distinct a.leftPool ∧
      (∀ left, echo.find? left = a.lastPartnerOf left) ∧
      (∀ e ∈ response.entries,
        ⟨e.1, some e.2, .correct⟩ ∈ (Association.grade a.pairs response).verdicts ↔
          a.partnerOf e.1 = some e.2) ∧
      (echo = Association.key a.pairs ↔ ∀ left, a.lastPartnerOf left = a.partnerOf left) ∧
      ∀ preset, ((Exercise.association a).validate preset).ok = true →
        ∀ left, echo.find? left = a.partnerOf left) ∧
    ∃ echo, (Classification.grade c.categories placed c.distractors).key = .members echo ∧
      echo.keys = distinct c.labels ∧
      (∀ label, echo.find? label = c.lastItemsOf label) ∧
      (echo = c.answerKey ↔
        ∀ label, c.lastItemsOf label = (c.categories.find? (·.label = label)).map (·.items)) ∧
      ∀ preset, ((Exercise.classification c).validate preset).ok = true → echo = c.answerKey := by
  constructor
  · refine ⟨a.echo, rfl, a.keys_echo, a.find?_echo, fun e he => ?_, ?_, fun preset h left => ?_⟩
    · exact Association.correct_mem_verdicts_iff he
    · exact Association.echo_eq_key_iff
    · rw [Association.echo_eq_key_of_validate_ok h, Association.find?_key_eq_partnerOf]
  · exact ⟨c.echo, rfl, c.keys_echo, c.find?_echo, Classification.echo_eq_answerKey_iff,
      fun _ h => Classification.echo_eq_answerKey_of_validate_ok h⟩

def burrows : Association := ⟨[⟨"fox", "earth"⟩, ⟨"hare", "form"⟩, ⟨"fox", "den"⟩], []⟩

def burrowAnswers : OrderedMap String := .ofList [("fox", "earth"), ("hare", "den")]

def chores : Classification := ⟨[⟨"work", "Work", ["Eat"]⟩, ⟨"work", "WORK", ["Talk"]⟩], []⟩

def nests : Association := ⟨[⟨"owl", "hollow"⟩, ⟨"swift", "eaves"⟩], ["reeds"]⟩

def shifts : Classification := ⟨[⟨"day", "Day", ["Swift"]⟩, ⟨"night", "Night", ["Owl"]⟩], []⟩

theorem key_echoed_burrows :
    ("fox", "earth") ∈ burrowAnswers.entries ∧
      ⟨"fox", some "earth", .correct⟩ ∈ (Association.grade burrows.pairs burrowAnswers).verdicts ∧
      ((Exercise.association nests).validate .classification).ok = true ∧
      (∃ echo, (Association.grade nests.pairs burrowAnswers).key = .partners echo ∧
        echo.find? "owl" = some "hollow") ∧
      ((Exercise.classification shifts).validate .classification).ok = true ∧
      (Classification.grade shifts.categories ∅ shifts.distractors).key =
        .members shifts.answerKey := by
  obtain ⟨⟨-, -, -, -, hmarks, -, -⟩, -⟩ := key_echoed burrows burrowAnswers shifts ∅
  obtain ⟨⟨echo, hkey, -, -, -, -, hvalid⟩, members, hmembers, -, -, -, hsame⟩ :=
    key_echoed nests burrowAnswers shifts ∅
  have hentry : ("fox", "earth") ∈ burrowAnswers.entries := by decide
  have hnests : ((Exercise.association nests).validate .classification).ok = true := by
    decide
  have hshifts : ((Exercise.classification shifts).validate .classification).ok = true := by
    decide +kernel
  refine ⟨hentry, (hmarks _ hentry).mpr (by decide), hnests,
    ⟨echo, hkey, hvalid _ hnests "owl"⟩, hshifts, ?_⟩
  rw [hmembers, hsame _ hshifts]

theorem echo_not_marked :
    burrows.partnerOf "fox" = some "earth" ∧
      ⟨"fox", some "earth", .correct⟩ ∈ (Association.grade burrows.pairs burrowAnswers).verdicts ∧
      (Association.grade burrows.pairs burrowAnswers).key =
        .partners (.ofList [("fox", "den"), ("hare", "form")]) ∧
      (Classification.grade chores.categories ∅ chores.distractors).key =
        .members (.ofList [("work", ["Talk"])]) ∧
      chores.answerKey = .ofList [("work", ["Eat"])] := by
  decide

end Worksheet
