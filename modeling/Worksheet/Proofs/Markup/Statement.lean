import Worksheet.Markup.DistractorLine
import Worksheet.Markup.Statement
import Worksheet.Proofs.Text.Collapse

namespace Worksheet

namespace Chars

theorem isItem_of_mem_splitPipes {cs : List Char} {item : String} (h : item ∈ splitPipes cs) :
    Text.IsItem item := by
  simp only [splitPipes, List.mem_filter, List.mem_map, decide_eq_true_eq] at h
  obtain ⟨⟨piece, -, rfl⟩, hne⟩ := h
  exact Text.isItem_collapse hne

end Chars

namespace Markup

open Text

theorem isItem_sliceText {source : List Char} {ts : List Token} (h : sliceText source ts ≠ "") :
    IsItem (sliceText source ts) := by
  unfold sliceText at h ⊢
  split at h
  · exact isItem_collapse h
  · exact absurd rfl h

theorem isItem_value_of_mem_tokensFrom {t : Token} :
    ∀ {segs : List Segment} {line start : Nat},
      t ∈ tokensFrom line start segs → t.kind = .text → IsItem t.value := by
  intro segs
  induction segs with
  | nil => intro _ _ h; simp [tokensFrom] at h
  | cons seg segs ih =>
      intro line start h hk
      cases seg with
      | comment cs => exact ih h hk
      | newline =>
          rcases List.mem_cons.mp h with rfl | h
          · cases hk
          · exact ih h hk
      | mark m =>
          rcases List.mem_cons.mp h with rfl | h
          · cases hk
          · exact ih h hk
      | text cs =>
          simp only [tokensFrom] at h
          split at h
          · exact ih h hk
          · next hne =>
              rcases List.mem_cons.mp h with rfl | h
              · exact isItem_collapse (fun he => hne (String.ofList_eq_empty_iff.mp he))
              · exact ih h hk

theorem isItem_value_of_mem_scan {source : List Char} {t : Token} (h : t ∈ scan source)
    (hk : t.kind = .text) : IsItem t.value :=
  isItem_value_of_mem_tokensFrom h hk

theorem mem_of_mem_groups :
    ∀ (ts : List Token) (depth : Nat),
      (∀ group ∈ (groups depth ts).1, ∀ t ∈ group, t ∈ ts) ∧ ∀ t ∈ (groups depth ts).2, t ∈ ts := by
  intro ts
  induction ts with
  | nil => intro depth; simp [groups]
  | cons a ts ih =>
      intro depth
      obtain ⟨hclosed, hleft⟩ := ih (bracketDepth depth a)
      simp only [groups]
      split
      · refine ⟨?_, fun t ht => List.mem_cons_of_mem _ (hleft t ht)⟩
        intro group hg t ht
        rcases List.mem_cons.mp hg with rfl | hg
        · simp at ht
        · exact List.mem_cons_of_mem _ (hclosed group hg t ht)
      · split
        · next left hgroups =>
            simp only [hgroups] at hleft
            refine ⟨by simp, fun t ht => ?_⟩
            rcases List.mem_cons.mp ht with rfl | ht
            · exact List.mem_cons_self
            · exact List.mem_cons_of_mem _ (hleft t ht)
        · next first closed left hgroups =>
            simp only [hgroups] at hclosed hleft
            refine ⟨?_, fun t ht => List.mem_cons_of_mem _ (hleft t ht)⟩
            intro group hg t ht
            rcases List.mem_cons.mp hg with rfl | hg
            · rcases List.mem_cons.mp ht with rfl | ht
              · exact List.mem_cons_self
              · exact List.mem_cons_of_mem _ (hclosed first List.mem_cons_self t ht)
            · exact List.mem_cons_of_mem _ (hclosed group (List.mem_cons_of_mem _ hg) t ht)

theorem mem_of_mem_tokenLines {ts line : List Token} {t : Token} (h : line ∈ tokenLines ts)
    (ht : t ∈ line) : t ∈ ts := by
  simp only [tokenLines, List.mem_filter] at h
  exact (mem_of_mem_pieces h.1 ht).1

theorem isItem_of_mem_itemTexts {source : List Char} {body : List Token} {item : String}
    (h : item ∈ itemTexts source body) : IsItem item := by
  simp only [itemTexts, List.mem_filter, List.mem_map, decide_eq_true_eq] at h
  obtain ⟨⟨piece, -, rfl⟩, hne⟩ := h
  exact isItem_sliceText hne

theorem isItem_headerLabel {header : List Token} {label : String}
    (h : headerLabel header = some label)
    (htext : ∀ t ∈ header, t.kind = .text → IsItem t.value) : IsItem label := by
  simp only [headerLabel, Option.map_eq_some_iff, Option.filter_eq_some_iff,
    decide_eq_true_eq] at h
  obtain ⟨t, ⟨ht, hk⟩, rfl⟩ := h
  exact htext t (List.mem_of_head? ht) hk

structure Statement.Sound (rule : LabelRule) (s : Statement) : Prop where
  admits : ∀ label, s.label = some label → rule.admits label = true
  isItem_label : ∀ label, s.label = some label → IsItem label
  isItem_items : ∀ item ∈ s.items, IsItem item

theorem sound_of_mem_readGroup {rule : LabelRule} {source : List Char} {group : List Token}
    {s : Statement} (htext : ∀ t ∈ group, t.kind = .text → IsItem t.value)
    (h : s ∈ (readGroup rule source group).statements) : s.Sound rule := by
  unfold readGroup at h
  cases hsplit : splitAtLast isHeader (tokenLines group) with
  | none => simp [hsplit] at h
  | some parts =>
      obtain ⟨before, header, after⟩ := parts
      have hheader : header ∈ tokenLines group := by
        rw [append_of_splitAtLast hsplit]
        simp
      simp only [hsplit] at h
      split at h
      · next hadmits =>
          rw [List.mem_singleton] at h
          subst h
          refine ⟨?_, ?_, fun item hi => isItem_of_mem_itemTexts hi⟩
          · intro label hl
            change headerLabel header = some label at hl
            rw [hl] at hadmits
            exact hadmits
          · intro label hl
            exact isItem_headerLabel hl (fun t ht => htext t (mem_of_mem_tokenLines hheader ht))
      · simp at h

theorem sound_of_mem_readDocument {rule : LabelRule} {source : List Char} {s : Statement}
    (h : s ∈ (readDocument rule source).statements) : s.Sound rule := by
  simp only [readDocument, List.mem_flatMap, List.mem_map] at h
  obtain ⟨_, ⟨group, hg, rfl⟩, hs⟩ := h
  refine sound_of_mem_readGroup (fun t ht hk => ?_) hs
  exact isItem_value_of_mem_scan ((mem_of_mem_groups (scan source) 0).1 group hg t ht) hk

theorem isItem_of_mem_extractDistractors {source : List Char} {item : String}
    (h : item ∈ (extractDistractors source).items) : IsItem item := by
  simp only [extractDistractors, mem_distinct, List.mem_flatMap] at h
  obtain ⟨body, -, hi⟩ := h
  exact Chars.isItem_of_mem_splitPipes hi

end Markup

end Worksheet
