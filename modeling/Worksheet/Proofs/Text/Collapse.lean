import Worksheet.Proofs.Sequence
import Worksheet.Text.Blank

namespace Worksheet

namespace Chars

def IsWord (w : List Char) : Prop := w ≠ [] ∧ ∀ c ∈ w, isBlank c = false

theorem isWord_of_mem_words {cs w : List Char} (h : w ∈ words cs) : IsWord w := by
  simp only [words, List.mem_filter, decide_eq_true_eq] at h
  exact ⟨h.2, fun c hc => (mem_of_mem_pieces h.1 hc).2⟩

theorem mem_of_mem_words {cs w : List Char} {c : Char} (h : w ∈ words cs) (hc : c ∈ w) : c ∈ cs := by
  simp only [words, List.mem_filter] at h
  exact (mem_of_mem_pieces h.1 hc).1

theorem flatten_words (cs : List Char) : (words cs).flatten = cs.filter (fun c => !isBlank c) := by
  rw [← flatten_pieces, words]
  induction pieces isBlank cs with
  | nil => rfl
  | cons piece rest ih =>
      cases piece with
      | nil => simpa using ih
      | cons c piece => simpa using ih

theorem words_eq_nil_iff {cs : List Char} : words cs = [] ↔ ∀ c ∈ cs, isBlank c = true := by
  constructor
  · intro h c hc
    have hfilter := flatten_words cs
    rw [h, List.flatten_nil, eq_comm, List.filter_eq_nil_iff] at hfilter
    simpa using hfilter c hc
  · intro h
    rw [List.eq_nil_iff_forall_not_mem]
    intro w hw
    obtain ⟨hne, hblank⟩ := isWord_of_mem_words hw
    obtain ⟨c, rest, rfl⟩ := List.exists_cons_of_ne_nil hne
    have hc := h c (mem_of_mem_words hw List.mem_cons_self)
    rw [hblank c List.mem_cons_self] at hc
    cases hc

theorem words_append_cons {c : Char} (hc : isBlank c = true) (s t : List Char) :
    words (s ++ c :: t) = words s ++ words t := by
  rw [words, pieces_append_of_pos hc, List.filter_append]
  rfl

theorem words_cons_of_blank {c : Char} (hc : isBlank c = true) (cs : List Char) :
    words (c :: cs) = words cs :=
  words_append_cons hc [] cs

theorem words_append_of_blank_left {s : List Char} (h : ∀ c ∈ s, isBlank c = true) (t : List Char) :
    words (s ++ t) = words t := by
  induction s with
  | nil => rfl
  | cons c s ih =>
      rw [List.cons_append, words_cons_of_blank (h c List.mem_cons_self),
        ih (fun d hd => h d (List.mem_cons_of_mem _ hd))]

theorem words_append_of_blank_right (s : List Char) {t : List Char}
    (h : ∀ c ∈ t, isBlank c = true) : words (s ++ t) = words s := by
  cases t with
  | nil => rw [List.append_nil]
  | cons c t =>
      rw [words_append_cons (h c List.mem_cons_self),
        words_eq_nil_iff.mpr (fun d hd => h d (List.mem_cons_of_mem _ hd)), List.append_nil]

theorem words_intercalate {ws : List (List Char)} (h : ∀ w ∈ ws, IsWord w) :
    words ([' '].intercalate ws) = ws := by
  cases ws with
  | nil => rfl
  | cons w ws =>
      rw [words, pieces_intercalate (by decide) (List.cons_ne_nil w ws) (fun v hv => (h v hv).2)]
      exact List.filter_eq_self.mpr (fun v hv => decide_eq_true (h v hv).1)

theorem words_collapse (cs : List Char) : words (collapse cs) = words cs :=
  words_intercalate (fun _ hw => isWord_of_mem_words hw)

theorem collapse_collapse (cs : List Char) : collapse (collapse cs) = collapse cs := by
  rw [collapse, words_collapse]
  rfl

theorem mem_intercalate {sep : List Char} {c : Char} :
    ∀ {ws : List (List Char)}, c ∈ sep.intercalate ws → c ∈ sep ∨ ∃ w ∈ ws, c ∈ w := by
  intro ws
  induction ws with
  | nil => intro h; simp [List.intercalate] at h
  | cons w ws ih =>
      intro h
      cases ws with
      | nil => exact Or.inr ⟨w, List.mem_cons_self, by simpa using h⟩
      | cons v ws =>
          rw [List.intercalate_cons_cons, List.mem_append, List.mem_append] at h
          rcases h with (h | h) | h
          · exact Or.inr ⟨w, List.mem_cons_self, h⟩
          · exact Or.inl h
          · rcases ih h with h | ⟨u, hu, hc⟩
            · exact Or.inl h
            · exact Or.inr ⟨u, List.mem_cons_of_mem _ hu, hc⟩

theorem mem_collapse {cs : List Char} {c : Char} (h : c ∈ collapse cs) : c = ' ' ∨ c ∈ cs := by
  rcases mem_intercalate h with hs | ⟨w, hw, hc⟩
  · exact Or.inl (List.mem_singleton.mp hs)
  · exact Or.inr (mem_of_mem_words hw hc)

theorem eq_space_or_not_isBlank_of_mem_collapse {cs : List Char} {c : Char} (h : c ∈ collapse cs) :
    c = ' ' ∨ isBlank c = false := by
  rcases mem_intercalate h with hs | ⟨w, hw, hc⟩
  · exact Or.inl (List.mem_singleton.mp hs)
  · exact Or.inr ((isWord_of_mem_words hw).2 c hc)

theorem collapse_eq_nil_iff {cs : List Char} : collapse cs = [] ↔ ∀ c ∈ cs, isBlank c = true := by
  rw [← words_eq_nil_iff]
  constructor
  · intro h
    rw [← words_collapse, h]
    rfl
  · intro h
    rw [collapse, h]
    rfl

theorem exists_not_isBlank_of_collapse_ne_nil {cs : List Char} (h : collapse cs ≠ []) :
    ∃ c ∈ collapse cs, isBlank c = false := by
  cases hw : words cs with
  | nil => simp [collapse, hw, List.intercalate] at h
  | cons w ws =>
      have hword : IsWord w := isWord_of_mem_words (hw ▸ List.mem_cons_self)
      obtain ⟨c, rest, rfl⟩ := List.exists_cons_of_ne_nil hword.1
      refine ⟨c, ?_, hword.2 c List.mem_cons_self⟩
      cases ws <;> simp [collapse, hw, List.intercalate]

end Chars

namespace Text

theorem toList_of_collapse_eq {s : String} (h : collapse s = s) :
    Chars.collapse s.toList = s.toList := by
  rw [← String.toList_ofList (l := Chars.collapse s.toList)]
  exact congrArg String.toList h

theorem newline_not_mem_of_collapse_eq {s : String} (h : collapse s = s) : '\n' ∉ s.toList := by
  intro hn
  rw [← toList_of_collapse_eq h] at hn
  rcases Chars.eq_space_or_not_isBlank_of_mem_collapse hn with hn | hn
  · exact absurd hn (by decide)
  · exact absurd hn (by decide)

def IsItem (s : String) : Prop := s ≠ "" ∧ collapse s = s

instance (s : String) : Decidable (IsItem s) := inferInstanceAs (Decidable (_ ∧ _))

theorem isItem_collapse {cs : List Char} (h : String.ofList (Chars.collapse cs) ≠ "") :
    IsItem (.ofList (Chars.collapse cs)) := by
  refine ⟨h, ?_⟩
  rw [collapse, String.toList_ofList, Chars.collapse_collapse]

theorem IsItem.isBlank_eq_false {s : String} (h : IsItem s) : isBlank s = false := by
  obtain ⟨hne, hs⟩ := h
  have hcs : Chars.collapse s.toList ≠ [] := by
    intro hnil
    rw [collapse, hnil] at hs
    exact hne hs.symm
  obtain ⟨c, hc, hb⟩ := Chars.exists_not_isBlank_of_collapse_ne_nil hcs
  have hmem : c ∈ s.toList := by
    rw [← hs, collapse, String.toList_ofList]
    exact hc
  rw [isBlank, List.all_eq_false]
  exact ⟨c, hmem, by simp [hb]⟩

theorem mem_blankPositions {n : Nat} :
    ∀ {items : List String} {position : Nat}, n ∈ blankPositions position items ↔
      ∃ item, (item, n) ∈ items.zipIdx position ∧ isBlank item = true := by
  intro items
  induction items with
  | nil => intro _; simp [blankPositions]
  | cons item items ih =>
      intro position
      simp only [List.zipIdx_cons, List.mem_cons, Prod.mk.injEq, or_and_right, exists_or, and_assoc,
        exists_eq_left, blankPositions]
      cases hitem : isBlank item with
      | true => simp [ih]
      | false => simp [ih]

theorem blankPositions_eq_nil_iff :
    ∀ {items : List String} {position : Nat},
      blankPositions position items = [] ↔ ∀ item ∈ items, isBlank item = false := by
  intro items
  induction items with
  | nil => intro _; simp [blankPositions]
  | cons item items ih =>
      intro position
      rw [blankPositions, List.forall_mem_cons]
      cases isBlank item with
      | true => simp
      | false => simp [ih]

theorem blankPositions_eq_nil {items : List String} {position : Nat}
    (h : ∀ item ∈ items, IsItem item) : blankPositions position items = [] :=
  blankPositions_eq_nil_iff.mpr fun item hi => (h item hi).isBlank_eq_false

end Text

end Worksheet
