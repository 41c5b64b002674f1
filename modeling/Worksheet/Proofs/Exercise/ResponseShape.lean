import Worksheet.Exercise.ResponseShape
import Worksheet.Grade.Record
import Worksheet.Proofs.OrderedMap
import Worksheet.Proofs.Table.Completion

namespace Worksheet

namespace Shape

variable {α β : Type}

theorem every_map_ok {f : α → Result β} {g : α → β} (h : ∀ a, f a = .ok (g a)) :
    ∀ l : List α, every (l.map f) = .ok (l.map g) := by
  intro l
  induction l with
  | nil => rfl
  | cons a l ih =>
      rw [List.map_cons, List.map_cons, every, h a, ih]
      rfl

theorem listOf_map_ok {read : Reader β} {write : α → Value} {f : α → β}
    (h : ∀ x, read (write x) = .ok (f x)) (l : List α) :
    listOf read (.list (l.map write)) = .ok (l.map f) := by
  have hread : ∀ p : α × Nat, below (.index p.2) (read (write p.1)) = .ok (f p.1) := by
    intro p
    rw [h]
    rfl
  calc listOf read (.list (l.map write))
      = every (l.zipIdx.map (fun p => below (.index p.2) (read (write p.1)))) := by
        rw [listOf, List.zipIdx_map, List.map_map]
        rfl
    _ = .ok (l.zipIdx.map (fun p => f p.1)) := every_map_ok hread l.zipIdx
    _ = .ok (l.map f) := by
        rw [← List.zipIdx_map_fst 0 l, List.map_map, List.zipIdx_map_fst]
        rfl

variable {read : Reader α} {write : α → Value}

theorem listOf_map (h : ∀ x, read (write x) = .ok x) (l : List α) :
    listOf read (.list (l.map write)) = .ok l := by
  rw [listOf_map_ok (f := id) h, List.map_id]

theorem mapOf_map (h : ∀ x, read (write x) = .ok x) (m : OrderedMap α) :
    mapOf read (.map (m.entries.map (fun e => (e.1, write e.2)))) = .ok m := by
  have hread : ∀ e : String × α,
      below (.key e.1) ((read (write e.2)).map (fun x => (e.1, x))) = .ok e := by
    intro e
    rw [h]
    rfl
  calc mapOf read (.map (m.entries.map (fun e => (e.1, write e.2))))
      = (every (m.entries.map (fun e =>
          below (.key e.1) ((read (write e.2)).map (fun x => (e.1, x)))))).map
            OrderedMap.ofList := by
        rw [mapOf, List.map_map]
        rfl
    _ = .ok (OrderedMap.ofList (m.entries.map id)) := by
        rw [every_map_ok hread m.entries]
        rfl
    _ = .ok m := by rw [List.map_id, OrderedMap.ofList_entries]

theorem field_of_lookup {entries : List (String × Value)} {name : String} {default : Option α}
    {v : Value} {x : α} (hv : entries.lookup name = some v) (hx : read v = .ok x) :
    field entries name default read = .ok x := by
  simp only [field, hv, hx]
  rfl

theorem string_str (s : String) : string (.str s) = .ok s := rfl

theorem optional_string (label : Option String) :
    optional string (match label with | some label => .str label | none => .null) = .ok label := by
  cases label <;> rfl

theorem listOf_textList (items : List String) : listOf string (Grade.textList items) = .ok items :=
  listOf_map string_str items

theorem rowValues_rowValue (row : RowValues) : rowValues (Grade.rowValue row) = .ok row := by
  have hselected : listOf string (Grade.textList row.selected) = .ok row.selected :=
    listOf_textList row.selected
  have hvalues : mapOf cell (.map (row.values.entries.map (fun e => (e.1, e.2.toValue)))) =
      .ok row.values := mapOf_map cell_toValue row.values
  rw [Grade.rowValue, rowValues, field_of_lookup rfl hselected, field_of_lookup rfl hvalues]
  rfl

theorem answers_responseValue :
    ∀ (f : Family) (a : f.Answers), answers f (Grade.responseValue (f.response a)) = .ok a := by
  intro f
  cases f with
  | classification => intro labels; exact mapOf_map optional_string labels
  | table => intro rows; exact mapOf_map rowValues_rowValue rows
  | recognition => intro options; exact mapOf_map listOf_textList options
  | seriation => intro items; exact listOf_textList items
  | association => intro rights; exact mapOf_map string_str rights

end Shape

end Worksheet
