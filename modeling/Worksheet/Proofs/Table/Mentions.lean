import Worksheet.Proofs.Table.Reading
import Worksheet.Table.Validation

namespace Worksheet.Table

open OrderedMap

variable {t : Table} {row col : String}

def listed (t : Table) : List String := t.answerKey.entries.flatMap (·.2)

theorem length_mentions (t : Table) (row : String) :
    (t.mentions row).length = t.listed.count row := by
  unfold mentions listed
  induction t.answerKey.entries with
  | nil => rfl
  | cons entry rest ih =>
      rw [List.flatMap_cons, List.flatMap_cons, List.length_append, List.count_append, ih,
        List.length_map, List.filter_eq, List.length_replicate]

theorem mem_mentions : col ∈ t.mentions row ↔ t.Lists row col := by
  simp only [mentions, Lists, List.mem_flatMap, List.mem_map, List.mem_filter, decide_eq_true_eq]
  constructor
  · rintro ⟨⟨k, items⟩, he, item, ⟨hi, rfl⟩, rfl⟩
    exact ⟨items, find?_eq_some_iff.mpr he, hi⟩
  · rintro ⟨items, hfind, hr⟩
    exact ⟨(col, items), find?_eq_some_iff.mp hfind, row, ⟨hr, rfl⟩, rfl⟩

theorem mentions_eq_columnsOf (h : ∀ entry ∈ t.answerKey.entries, entry.2.count row ≤ 1) :
    t.mentions row = t.columnsOf row := by
  unfold mentions columnsOf
  revert h
  generalize t.answerKey.entries = entries
  intro h
  induction entries with
  | nil => rfl
  | cons entry rest ih =>
      have hcount := h entry List.mem_cons_self
      have hrest := ih (fun e he => h e (List.mem_cons_of_mem _ he))
      rw [List.flatMap_cons, hrest, List.filter_eq]
      by_cases hrow : row ∈ entry.2
      · have hone : entry.2.count row = 1 :=
          Nat.le_antisymm hcount (List.one_le_count_iff.mpr hrow)
        simp [hone, hrow]
      · simp [List.count_eq_zero_of_not_mem hrow, hrow]

theorem columnsOf_eq_nil_iff : t.columnsOf row = [] ↔ t.listed.count row = 0 := by
  simp only [← length_mentions, List.length_eq_zero_iff, List.eq_nil_iff_forall_not_mem,
    mem_columnsOf, mem_mentions]

def ListsAgain (t : Table) (row col : String) : Prop :=
  ∃ items, t.answerKey.find? col = some items ∧ 2 ≤ items.count row

theorem ListsAgain.two_le_count (h : t.ListsAgain row col) : 2 ≤ t.listed.count row := by
  obtain ⟨items, hfind, hcount⟩ := h
  have hsub : items.Sublist t.listed :=
    List.sublist_flatten_of_mem (List.mem_map_of_mem (find?_eq_some_iff.mp hfind))
  exact Nat.le_trans hcount (hsub.count_le row)

theorem two_le_count_listed_iff :
    2 ≤ t.listed.count row ↔ 2 ≤ (t.columnsOf row).length ∨
      ∃ col, t.columnsOf row = [col] ∧ t.ListsAgain row col := by
  by_cases hagain : ∃ col, t.ListsAgain row col
  · obtain ⟨col, h⟩ := hagain
    refine iff_of_true h.two_le_count ?_
    have hcol : col ∈ t.columnsOf row := by
      obtain ⟨items, hfind, hcount⟩ := h
      exact mem_columnsOf.mpr ⟨items, hfind, List.count_pos_iff.mp (by omega)⟩
    match hcols : t.columnsOf row with
    | [] => simp [hcols] at hcol
    | [only] =>
        rw [hcols, List.mem_singleton] at hcol
        exact Or.inr ⟨only, rfl, hcol ▸ h⟩
    | _ :: _ :: _ => exact Or.inl (by simp)
  · have honce : ∀ entry ∈ t.answerKey.entries, entry.2.count row ≤ 1 := by
      intro entry he
      refine Nat.not_lt.mp (fun hcount => ?_)
      exact hagain ⟨entry.1, entry.2, find?_eq_some_iff.mpr he, hcount⟩
    rw [← length_mentions, mentions_eq_columnsOf honce]
    exact (or_iff_left (fun ⟨col, _, h⟩ => hagain ⟨col, h⟩)).symm

end Worksheet.Table
