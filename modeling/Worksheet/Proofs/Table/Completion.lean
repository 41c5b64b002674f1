import Mathlib.Data.List.Forall2
import Worksheet.Proofs.Table.Run
import Worksheet.Table.Overrides

namespace Worksheet

theorem exists_mapM_ok {ε α β : Type} {f : α → Except ε β} {P : α → β → Prop} :
    ∀ {l : List α}, (∀ a ∈ l, ∃ b, f a = .ok b ∧ P a b) →
      ∃ bs, l.mapM f = .ok bs ∧ List.Forall₂ P l bs := by
  intro l
  induction l with
  | nil => intro _; exact ⟨[], rfl, .nil⟩
  | cons a l ih =>
      intro h
      obtain ⟨b, hb, hP⟩ := h a List.mem_cons_self
      obtain ⟨bs, hbs, hall⟩ := ih (fun c hc => h c (List.mem_cons_of_mem _ hc))
      refine ⟨b :: bs, ?_, .cons hP hall⟩
      rw [List.mapM_cons, hb, hbs]
      rfl

namespace Shape

theorem exists_every_ok {α : Type} :
    ∀ {rs : List (Result α)}, (∀ r ∈ rs, ∃ x, r = .ok x) → ∃ xs, every rs = .ok xs := by
  intro rs
  induction rs with
  | nil => intro _; exact ⟨[], rfl⟩
  | cons r rs ih =>
      intro h
      obtain ⟨x, rfl⟩ := h r List.mem_cons_self
      obtain ⟨xs, hxs⟩ := ih (fun q hq => h q (List.mem_cons_of_mem _ hq))
      exact ⟨x :: xs, by rw [every, hxs]; rfl⟩

theorem exists_mapOf_ok {α : Type} {read : Reader α} {entries : List (String × Value)}
    (h : ∀ e ∈ entries, ∃ x, read e.2 = .ok x) : ∃ m, mapOf read (.map entries) = .ok m := by
  have hall : ∀ r ∈ entries.map (fun e =>
      below (.key e.1) ((read e.2).map (fun x => (e.1, x)))), ∃ x, r = .ok x := by
    intro r hr
    obtain ⟨e, he, rfl⟩ := List.mem_map.mp hr
    obtain ⟨x, hx⟩ := h e he
    exact ⟨(e.1, x), by rw [hx]; rfl⟩
  obtain ⟨xs, hxs⟩ := exists_every_ok hall
  exact ⟨OrderedMap.ofList xs, by rw [mapOf, hxs]; rfl⟩

theorem cell_toValue (x : CellValue) : cell x.toValue = .ok x := by
  cases x <;> rfl

end Shape

namespace TableState

open OrderedMap

def Legal (s : TableState) : Prop :=
  ∀ row col v, s.get? row col = some v → ∃ x : CellValue, v = x.toValue

theorem legal_start (c : TableConfiguration) : (start c).Legal := by
  intro row col v h
  rw [get?_start] at h
  split at h
  · rw [Option.some.injEq] at h
    subst h
    cases c.cellKind with
    | radio => exact ⟨.bool false, rfl⟩
    | checkbox => exact ⟨.bool false, rfl⟩
    | text => exact ⟨.blank, rfl⟩
    | number => exact ⟨.blank, rfl⟩
    | select => exact ⟨.blank, rfl⟩
  · cases h

theorem Legal.write {s : TableState} (h : s.Legal) {w : Write}
    (hw : ∃ x : CellValue, w.value = x.toValue) : (s.write w.row w.col w.value).2.Legal := by
  intro row col v hv
  cases ht : s.configuration.takes w with
  | false =>
      rw [get?_write_of_not_takes ht] at hv
      exact h row col v hv
  | true =>
      rw [get?_write_of_takes ht] at hv
      split at hv
      · rw [← Option.some.inj hv]
        exact hw
      · split at hv
        · exact ⟨.bool false, (Option.some.inj hv).symm⟩
        · exact h row col v hv

theorem legal_run {c : TableConfiguration} {ws : List Write}
    (h : ∀ w ∈ ws, ∃ x : CellValue, w.value = x.toValue) : ((start c).run ws).2.Legal :=
  run_induction (P := Legal) (fun _ w hw hs => hs.write (h w hw)) (legal_start c)

theorem exists_row_ok {s : TableState} (h : s.Legal) (row : String) :
    ∃ values, Shape.below (.key "values")
      (Shape.mapOf Shape.cell (.map (s.rowCells row).entries)) = .ok values := by
  have hall : ∀ e ∈ (s.rowCells row).entries, ∃ x, Shape.cell e.2 = .ok x := by
    rintro ⟨col, v⟩ he
    obtain ⟨x, rfl⟩ := h row col v (find?_eq_some_iff.mpr he)
    exact ⟨x, Shape.cell_toValue x⟩
  obtain ⟨values, hvalues⟩ := Shape.exists_mapOf_ok hall
  exact ⟨values, by rw [hvalues]; rfl⟩

theorem find?_ofList_of_forall₂ {rows : List String} {bs : List (String × RowValues)}
    {f : String → List String}
    (h : List.Forall₂ (fun row b => b.1 = row ∧ b.2.selected = f row) rows bs) {row : String}
    (hr : row ∈ rows) :
    ∃ values, (OrderedMap.ofList bs).find? row = some values ∧ values.selected = f row := by
  have hkeys : bs.map Prod.fst = rows := by
    clear hr
    induction h with
    | nil => rfl
    | cons hb _ ih => rw [List.map_cons, hb.1, ih]
  have hsel : ∀ b ∈ bs, b.2.selected = f b.1 := by
    clear hkeys hr
    induction h with
    | nil => simp
    | cons hb _ ih =>
        intro b hm
        rcases List.mem_cons.mp hm with rfl | hm
        · rw [hb.1, hb.2]
        · exact ih b hm
  have hfound : row ∈ (OrderedMap.ofList bs).keys := by
    rw [mem_keys_ofList, hkeys]
    exact hr
  obtain ⟨values, hvalues⟩ := Option.isSome_iff_exists.mp (find?_isSome_iff.mpr hfound)
  have hmem : (row, values) ∈ bs := mem_of_find?_ofList hvalues
  exact ⟨values, hvalues, hsel _ hmem⟩

theorem exists_completion {s : TableState} (h : s.Legal) :
    ∃ completion : Completion, s.completion = .ok completion ∧
      ∀ row ∈ s.configuration.rows, Table.selectedIn completion row =
        (s.selected row).map normalizeLabel := by
  obtain ⟨bs, hbs, hall⟩ := exists_mapM_ok
    (P := fun row (b : String × RowValues) => b.1 = row ∧ b.2.selected = s.selected row)
    (f := fun row => do
      let values ← Shape.below (.key "values")
        (Shape.mapOf Shape.cell (.map (s.rowCells row).entries))
      return (row, RowValues.mk (s.selected row) values))
    (l := s.configuration.rows) (by
      intro row _
      obtain ⟨values, hvalues⟩ := exists_row_ok h row
      exact ⟨(row, ⟨s.selected row, values⟩), by rw [hvalues]; rfl, rfl, rfl⟩)
  refine ⟨OrderedMap.ofList bs, by rw [completion, hbs]; rfl, ?_⟩
  intro row hr
  obtain ⟨values, hfind, hsel⟩ := find?_ofList_of_forall₂ hall hr
  rw [Table.selectedIn, hfind]
  exact congrArg _ hsel

end TableState

end Worksheet
