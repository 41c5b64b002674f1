import Worksheet.Proofs.Service.Grading

namespace Worksheet

namespace Value

structure IsSendable (v : Value) : Prop where
  finite : v.isFinite = true
  whole : v.isWhole = true

theorem isSendable_str (s : String) : (str s).IsSendable := ⟨rfl, rfl⟩

theorem isSendable_int (n : Int) : (int n).IsSendable := ⟨rfl, rfl⟩

theorem isSendable_list_iff {items : List Value} :
    (list items).IsSendable ↔ ∀ v ∈ items, v.IsSendable := by
  induction items with
  | nil => exact ⟨fun _ _ h => absurd h List.not_mem_nil, fun _ => ⟨rfl, rfl⟩⟩
  | cons v items ih =>
      rw [List.forall_mem_cons, ← ih]
      constructor
      · rintro ⟨hfinite, hwhole⟩
        obtain ⟨hv, hitems⟩ := Bool.and_eq_true_iff.mp hfinite
        obtain ⟨hv', hitems'⟩ := Bool.and_eq_true_iff.mp hwhole
        exact ⟨⟨hv, hv'⟩, ⟨hitems, hitems'⟩⟩
      · rintro ⟨hv, hitems⟩
        exact ⟨Bool.and_eq_true_iff.mpr ⟨hv.finite, hitems.finite⟩,
          Bool.and_eq_true_iff.mpr ⟨hv.whole, hitems.whole⟩⟩

theorem isSendable_map_iff {entries : List (String × Value)} :
    (map entries).IsSendable ↔ ∀ e ∈ entries, e.2.IsSendable := by
  induction entries with
  | nil => exact ⟨fun _ _ h => absurd h List.not_mem_nil, fun _ => ⟨rfl, rfl⟩⟩
  | cons e entries ih =>
      rw [List.forall_mem_cons, ← ih]
      constructor
      · rintro ⟨hfinite, hwhole⟩
        obtain ⟨he, hentries⟩ := Bool.and_eq_true_iff.mp hfinite
        obtain ⟨he', hentries'⟩ := Bool.and_eq_true_iff.mp hwhole
        exact ⟨⟨he, he'⟩, ⟨hentries, hentries'⟩⟩
      · rintro ⟨he, hentries⟩
        exact ⟨Bool.and_eq_true_iff.mpr ⟨he.finite, hentries.finite⟩,
          Bool.and_eq_true_iff.mpr ⟨he.whole, hentries.whole⟩⟩

theorem isSendable_map_str (entries : List (String × String)) :
    (map (entries.map (fun (key, s) => (key, .str s)))).IsSendable := by
  rw [isSendable_map_iff, List.forall_mem_map]
  exact fun e _ => isSendable_str e.2

end Value

namespace Shape

theorem isSendable_toValue (f : Fault) : f.toValue.IsSendable := by
  have hplace : (Value.list (f.place.map Step.toValue)).IsSendable := by
    rw [Value.isSendable_list_iff, List.forall_mem_map]
    intro step _
    cases step with
    | key name => exact Value.isSendable_str name
    | index i => exact Value.isSendable_int i
  rw [Fault.toValue, Value.isSendable_map_iff]
  intro e he
  simp only [List.cons_append, List.nil_append, List.mem_cons, Option.mem_toList,
    Option.map_eq_some_iff] at he
  rcases he with rfl | rfl | ⟨message, -, rfl⟩
  · exact Value.isSendable_str _
  · exact hplace
  · exact Value.isSendable_str _

theorem isSendable_faults (faults : List Fault) :
    (Value.list (faults.map Fault.toValue)).IsSendable := by
  rw [Value.isSendable_list_iff, List.forall_mem_map]
  exact fun f _ => isSendable_toValue f

end Shape

namespace Service

open Value

theorem unsendable?_eq_none_iff {v : Value} : unsendable? v = none ↔ v.IsSendable := by
  rw [unsendable?]
  constructor
  · intro h
    split at h
    · cases h
    · next hfinite =>
        split at h
        · cases h
        · next hwhole => exact ⟨by simpa using hfinite, by simpa using hwhole⟩
  · rintro ⟨hfinite, hwhole⟩
    simp [hfinite, hwhole]

theorem isSendable_failureBody {kind message details : Value} (hkind : kind.IsSendable)
    (hmessage : message.IsSendable) (hdetails : details.IsSendable) :
    (failureBody kind message details).IsSendable := by
  rw [failureBody, isSendable_map_iff, List.forall_mem_singleton, isSendable_map_iff]
  split <;> simp [hkind, hmessage, hdetails]

def Answerable (e : CallError) : Prop := ∃ f, e = .failure f ∧ f.body.IsSendable

section Failures

variable (name : String)

theorem answerable_familyNotFound : Answerable (.failure (.familyNotFound (.str name))) := by
  refine ⟨_, rfl, isSendable_failureBody (isSendable_str _) (isSendable_str _) ?_⟩
  exact isSendable_map_str [("family", name)]

theorem answerable_invalidContent (errors : List (String × String)) :
    Answerable (.failure (.invalidContent (.str name)
      (errors.map (fun (key, message) => (key, .str message))))) := by
  refine ⟨_, rfl, isSendable_failureBody (isSendable_str _) (isSendable_str _) ?_⟩
  rw [Failure.details, isSendable_map_iff, List.forall_mem_cons, List.forall_mem_singleton]
  exact ⟨isSendable_str name, isSendable_map_str errors⟩

theorem answerable_responseFormat (faults : List Shape.Fault) :
    Answerable (.failure (.responseFormat (.str name) (.list (faults.map Shape.Fault.toValue)))) := by
  refine ⟨_, rfl, isSendable_failureBody (isSendable_str _) (isSendable_str _) ?_⟩
  rw [Failure.details, isSendable_map_iff, List.forall_mem_cons, List.forall_mem_singleton]
  exact ⟨isSendable_str name, Shape.isSendable_faults faults⟩

end Failures

theorem answerable_gradeChecked {f : Family} {text : String} {response : Value}
    {preset : Option TablePreset} {e : CallError}
    (h : (gradeChecked f text response preset).result = .error e) : Answerable e := by
  cases hshape : Shape.answers f response with
  | error faults =>
      rw [gradeChecked_of_malformed hshape] at h
      exact Except.error.inj h ▸ answerable_responseFormat f.name faults
  | ok answers =>
      rcases Exercise.gradeAs_cases (Exercise.family_read f text) hshape preset with
        ⟨g, hg⟩ | ⟨p, hp⟩
      · rw [gradeChecked_of_gradeAs hshape hg] at h
        cases h
      · rw [← Exercise.gradeAs_responseValue (Exercise.family_read f text) hshape] at hp
        simp only [gradeChecked, hshape, hp] at h
        exact Except.error.inj h ▸ answerable_invalidContent f.name
          [("preset.unsupported", (Refusal.ungradable p).message)]

namespace ContentService

variable {s : ContentService} {name text : String} {e : CallError}

theorem answerable_parse (h : (s.parse (.str name) text).result = .error e) : Answerable e := by
  cases hname : Family.ofName? name with
  | none =>
      rw [parse, findFamily, familyNamed, hname] at h
      exact Except.error.inj h ▸ answerable_familyNotFound name
  | some f =>
      rw [parse, findFamily_of_ofName? hname] at h
      cases h

theorem answerable_validate {given : Option TablePreset}
    (h : (s.validate (.str name) text (presetValue given)).result = .error e) : Answerable e := by
  cases hname : Family.ofName? name with
  | none =>
      rw [validate, resolve_of_unknown hname] at h
      exact Except.error.inj h ▸ answerable_familyNotFound name
  | some f =>
      rw [validate, resolve_of_ofName? hname] at h
      cases h

theorem answerable_grade {response : Value} {given : Option TablePreset}
    (h : (s.grade (.str name) text response (presetValue given)).result = .error e) :
    Answerable e := by
  cases hname : Family.ofName? name with
  | none =>
      rw [result_grade_of_unknown hname] at h
      exact Except.error.inj h ▸ answerable_familyNotFound name
  | some f =>
      rw [result_grade_of_ofName? hname] at h
      simp only at h
      split at h
      · exact answerable_gradeChecked h
      · exact Except.error.inj h ▸ answerable_invalidContent f.name _

end ContentService

end Service

end Worksheet
