import Worksheet.Proofs.Text.Trim

namespace Worksheet

namespace Text

structure IsListed (s : String) : Prop where
  isItem : IsItem s
  pipe_not_mem : '|' ∉ s.toList

instance (s : String) : Decidable (IsListed s) :=
  decidable_of_iff (IsItem s ∧ '|' ∉ s.toList)
    ⟨fun h => ⟨h.1, h.2⟩, fun h => ⟨h.isItem, h.pipe_not_mem⟩⟩

structure IsPlain (s : String) : Prop where
  isItem : IsItem s
  unmarked : ∀ c ∈ s.toList, c ∉ ['|', ';', '[', ']']

instance (s : String) : Decidable (IsPlain s) :=
  decidable_of_iff (IsItem s ∧ s.toList.all (fun c => c ∉ ['|', ';', '[', ']']) = true) <| by
    rw [List.all_eq_true]
    exact ⟨fun h => ⟨h.1, fun c hc => of_decide_eq_true (h.2 c hc)⟩,
      fun h => ⟨h.isItem, fun c hc => decide_eq_true (h.unmarked c hc)⟩⟩

theorem IsPlain.isListed {s : String} (h : IsPlain s) : IsListed s :=
  ⟨h.isItem, fun hmem => h.unmarked '|' hmem (by decide)⟩

theorem IsPlain.not_mem {s : String} (h : IsPlain s) {c : Char} (hc : c ∈ s.toList) :
    c ∉ ['\n', ';', '[', ']'] := by
  have hplain := h.unmarked c hc
  have hline := newline_not_mem_of_collapse_eq h.isItem.2
  simp only [List.mem_cons, List.not_mem_nil, or_false, not_or] at hplain ⊢
  exact ⟨fun heq => hline (heq ▸ hc), hplain.2⟩

end Text

namespace Chars

open Text

def joinPipes (items : List String) : List Char :=
  " | ".toList.intercalate (items.map String.toList)

theorem joinPipes_cons_cons (a b : String) (items : List String) :
    joinPipes (a :: b :: items) = (a.toList ++ [' ']) ++ '|' :: ([' '] ++ joinPipes (b :: items)) := by
  rw [joinPipes, List.map_cons, List.map_cons, List.intercalate_cons_cons, List.append_assoc,
    List.append_assoc]
  rfl

theorem not_mem_of_mem_separator {c : Char} (hc : c ∈ " | ".toList) :
    c ∉ ['\n', ';', '[', ']'] := by
  have hseparator : " | ".toList = [' ', '|', ' '] := rfl
  simp only [hseparator, List.mem_cons, List.not_mem_nil, or_false] at hc
  rcases hc with rfl | rfl | rfl <;> decide

theorem mem_joinPipes {items : List String} (h : ∀ item ∈ items, IsPlain item) {c : Char}
    (hc : c ∈ joinPipes items) : c ∉ ['\n', ';', '[', ']'] := by
  rcases mem_intercalate hc with hc | ⟨cs, hcs, hmem⟩
  · exact not_mem_of_mem_separator hc
  · obtain ⟨item, hitem, rfl⟩ := List.mem_map.mp hcs
    exact (h item hitem).not_mem hmem

theorem isBlank_of_mem_space : ∀ c ∈ [' '], isBlank c = true :=
  fun _ hc => List.mem_singleton.mp hc ▸ rfl

theorem splitPipes_toList {item : String} (h : IsListed item) : splitPipes item.toList = [item] := by
  rw [splitPipes_of_not_mem h.pipe_not_mem, toList_of_collapse_eq h.isItem.2, String.ofList_toList,
    List.filter_cons_of_pos (by simpa using h.isItem.1), List.filter_nil]

theorem splitPipes_joinPipes_of_isListed {items : List String} (h : ∀ item ∈ items, IsListed item) :
    splitPipes (joinPipes items) = items := by
  induction items with
  | nil => rfl
  | cons a items ih =>
      have ha := h a List.mem_cons_self
      cases items with
      | nil =>
          rw [joinPipes, List.map_singleton, List.intercalate_singleton, splitPipes_toList ha]
      | cons b items =>
          rw [joinPipes_cons_cons, splitPipes_append_pipe,
            splitPipes_append_of_blank_right isBlank_of_mem_space,
            splitPipes_append_of_blank_left isBlank_of_mem_space, splitPipes_toList ha,
            ih (fun item hi => h item (List.mem_cons_of_mem _ hi))]
          rfl

theorem splitPipes_joinPipes {items : List String} (h : ∀ item ∈ items, IsPlain item) :
    splitPipes (joinPipes items) = items :=
  splitPipes_joinPipes_of_isListed (fun item hi => (h item hi).isListed)

def barred (items : List String) : List Char :=
  items.flatMap (fun item => " | ".toList ++ item.toList)

theorem joinPipes_cons (a : String) (items : List String) :
    joinPipes (a :: items) = a.toList ++ barred items := by
  induction items generalizing a with
  | nil => simp [joinPipes, barred]
  | cons b items ih =>
      have hb : barred (b :: items) = " | ".toList ++ (b.toList ++ barred items) := by
        rw [barred, List.flatMap_cons, List.append_assoc, barred]
      rw [joinPipes_cons_cons, ih, hb, List.append_assoc]
      rfl

theorem splitPipes_barred {items : List String} (h : ∀ item ∈ items, IsPlain item) :
    splitPipes (barred items) = items := by
  cases items with
  | nil => rfl
  | cons a items =>
      have hbarred : barred (a :: items) = [' '] ++ '|' :: ([' '] ++ joinPipes (a :: items)) := by
        rw [joinPipes_cons, barred, List.flatMap_cons, List.append_assoc, barred]
        rfl
      rw [hbarred, splitPipes_append_pipe, splitPipes_append_of_blank_left isBlank_of_mem_space,
        splitPipes_joinPipes h]
      rfl

theorem mem_barred {items : List String} (h : ∀ item ∈ items, IsPlain item) {c : Char}
    (hc : c ∈ barred items) : c ∉ ['\n', ';', '[', ']'] := by
  obtain ⟨item, hitem, hmem⟩ := List.mem_flatMap.mp hc
  rcases List.mem_append.mp hmem with hmem | hmem
  · exact not_mem_of_mem_separator hmem
  · exact (h item hitem).not_mem hmem

end Chars

end Worksheet
