import Worksheet.Proofs.Table.Run

namespace Worksheet

namespace TableConfiguration

theorem offers_iff {c : TableConfiguration} {row col : String} {value : Value} :
    c.offers row col value = true ↔
      ∀ choices, c.allowedValues row col = some choices →
        ∃ choice ∈ choices, choice.text = value.text := by
  unfold offers
  cases c.allowedValues row col with
  | none => simp
  | some choices => simp [List.any_eq_true]

theorem isDisabled_of_takes {c : TableConfiguration} {w : Write} (h : c.takes w = true) :
    c.isDisabled w.row w.col = false := by
  unfold takes accepts at h
  split at h
  · cases h
  · next hd => exact Bool.eq_false_iff.mpr hd

theorem offers_of_takes {c : TableConfiguration} (hk : c.cellKind = .select) {w : Write}
    (h : c.takes w = true) : w.value = .null ∨ c.offers w.row w.col w.value = true := by
  unfold takes accepts at h
  rw [if_neg (by simp [isDisabled_of_takes h]), hk] at h
  split at h
  · next hv => exact Or.inl hv
  · exact Or.inr h
  · next hselect _ => exact absurd rfl hselect

end TableConfiguration

namespace TableState

open OrderedMap TableConfiguration

structure Safe (s : TableState) : Prop where
  disabled : ∀ row ∈ s.configuration.rows, ∀ col ∈ s.configuration.cols,
    s.configuration.isDisabled row col = true →
      s.get? row col = some s.configuration.cellKind.initial
  offered : s.configuration.cellKind = .select → ∀ row col value,
    s.get? row col = some value → value = .null ∨ s.configuration.offers row col value = true

theorem safe_start (c : TableConfiguration) : (start c).Safe where
  disabled := by
    intro row hr col hc _
    rw [get?_start, if_pos ⟨hr, hc⟩]
    rfl
  offered := by
    intro hk row col value h
    have hk' : c.cellKind = .select := hk
    rw [get?_start, hk'] at h
    split at h
    · exact Or.inl (Option.some.inj h).symm
    · cases h

theorem Safe.write {s : TableState} (h : s.Safe) (w : Write) :
    (s.write w.row w.col w.value).2.Safe where
  disabled := by
    intro row hr col hc hd
    rw [configuration_write] at hr hc hd ⊢
    rw [get?_write hc]
    split
    · next hw =>
        rw [Bool.and_eq_true, decides, Bool.and_eq_true, Bool.or_eq_true, decide_eq_true_eq,
          decide_eq_true_eq] at hw
        obtain ⟨htake, hrow, hcell⟩ := hw
        by_cases hcol : w.col = col
        · -- an accepted write is not into a disabled cell
          have henabled := isDisabled_of_takes htake
          rw [hrow, hcol, hd] at henabled
          cases henabled
        · -- clearing a row of radio cells puts back what the cell began with
          have hclear := clears_iff.mp (hcell.resolve_left hcol)
          rw [if_neg hcol, hclear.1]
          rfl
    · exact h.disabled row hr col hc hd
  offered := by
    intro hk row col value hv
    rw [configuration_write] at hk ⊢
    cases ht : s.configuration.takes w with
    | false =>
        rw [get?_write_of_not_takes ht] at hv
        exact h.offered hk row col value hv
    | true =>
        rw [get?_write_of_takes ht] at hv
        split at hv
        · next hcell =>
            obtain ⟨rfl, rfl⟩ := hcell
            rw [← Option.some.inj hv]
            exact offers_of_takes hk ht
        · split at hv
          · next hclear =>
              have hradio := (clears_iff.mp hclear.2.1).1
              rw [hk] at hradio
              cases hradio
          · exact h.offered hk row col value hv

theorem safe_run (c : TableConfiguration) (ws : List Write) : ((start c).run ws).2.Safe :=
  run_induction (P := Safe) (fun _ w _ hs => hs.write w) (safe_start c)

theorem write_of_not_takes {s : TableState} {w : Write} (h : s.configuration.takes w = false) :
    (s.write w.row w.col w.value).2 = s := by
  have hw : s.configuration.accepts w.row w.col w.value = false := h
  simp [write, hw]

theorem without_cells_write {s : TableState} {w : Write} (h : s.configuration.takes w = true) :
    (s.write w.row w.col w.value).2.cells.without w.row = s.cells.without w.row := by
  have hw : s.configuration.accepts w.row w.col w.value = true := h
  simp only [write, hw, if_true]
  exact without_put_self _ _ _

theorem without_rowCells_write {s : TableState} {w : Write} (h : s.configuration.takes w = true)
    (hclear : s.configuration.clears w = false) :
    ((s.write w.row w.col w.value).2.rowCells w.row).without w.col =
      (s.rowCells w.row).without w.col := by
  rw [rowCells_write_of_takes h, if_pos rfl, written, if_neg]
  · exact without_put_self _ _ _
  · intro hradio
    simp [clears, hradio] at hclear

theorem run_keeps_cells (c : TableConfiguration) (ws : List Write) :
    let s := ((start c).run ws).2
    (∀ row ∈ c.rows, ∀ col ∈ c.cols, c.isDisabled row col = true →
        s.get? row col = some c.cellKind.initial) ∧
      (c.cellKind = .select → ∀ row col value, s.get? row col = some value →
        value = .null ∨ ∀ choices, c.allowedValues row col = some choices →
          ∃ choice ∈ choices, choice.text = value.text) ∧
      ∀ row col value,
        let written := s.write row col value
        (written.1 = false → written.2 = s) ∧
          (written.1 = true →
            written.2.cells.without row = s.cells.without row ∧
              (¬ (c.cellKind = .radio ∧ value = .bool true) →
                (written.2.rowCells row).without col = (s.rowCells row).without col)) := by
  intro s
  have hsafe : s.Safe := safe_run c ws
  have hconf : s.configuration = c := configuration_run ws (start c)
  refine ⟨?_, ?_, ?_⟩
  · have h := hsafe.disabled
    rwa [hconf] at h
  · have h := hsafe.offered
    simp only [hconf, offers_iff] at h
    exact h
  · intro row col value
    let w : Write := ⟨row, col, value⟩
    have hfst : (s.write row col value).1 = s.configuration.takes w := fst_write s row col value
    refine ⟨fun h => ?_, fun h => ?_⟩
    · exact write_of_not_takes (w := w) (hfst.symm.trans h)
    · have htakes : s.configuration.takes w = true := hfst.symm.trans h
      refine ⟨without_cells_write htakes, fun hradio => without_rowCells_write htakes ?_⟩
      rw [hconf]
      exact Bool.eq_false_iff.mpr (mt clears_iff.mp hradio)

def choiceSample : TableConfiguration where
  rows := ["tea", "soil"]
  cols := ["acidity", "colour"]
  answerKey := ∅
  cellKind := .select
  preset := .lookup
  disabled := some (fun row col => row == "soil" && col == "colour")
  allowed := some (fun _ col => if col = "acidity" then some [.int 5, .int 7] else none)
  shuffle := false

def choiceWrites : List Write :=
  [⟨"tea", "acidity", .str "5"⟩, ⟨"tea", "acidity", .int 9⟩, ⟨"soil", "colour", .str "red"⟩,
    ⟨"sand", "colour", .str "grey"⟩]

theorem run_keeps_cells_choiceSample :
    let s := ((start choiceSample).run choiceWrites).2
    ("soil" ∈ choiceSample.rows ∧ "colour" ∈ choiceSample.cols ∧
        choiceSample.isDisabled "soil" "colour" = true ∧ s.get? "soil" "colour" = some .null) ∧
      (choiceSample.cellKind = .select ∧ s.get? "tea" "acidity" = some (.str "5") ∧
        ∃ choice ∈ [Value.int 5, .int 7], choice.text = (Value.str "5").text) ∧
      ((s.write "tea" "acidity" (.int 9)).1 = false ∧ (s.write "tea" "acidity" (.int 9)).2 = s) ∧
      (s.write "tea" "colour" (.bool true)).1 = true ∧
        (s.write "tea" "colour" (.bool true)).2.cells.without "tea" = s.cells.without "tea" ∧
        ((s.write "tea" "colour" (.bool true)).2.rowCells "tea").without "colour" =
          (s.rowCells "tea").without "colour" := by
  intro s
  obtain ⟨hdisabled, hoffered, hframe⟩ := run_keeps_cells choiceSample choiceWrites
  have hget : s.get? "tea" "acidity" = some (.str "5") := rfl
  have hrefused : (s.write "tea" "acidity" (.int 9)).1 = false := by decide
  have htaken : (s.write "tea" "colour" (.bool true)).1 = true := by decide
  have hkind : ¬ (choiceSample.cellKind = .radio ∧ Value.bool true = .bool true) :=
    fun h => absurd h.1 (by decide)
  obtain ⟨hothers, hrow⟩ := (hframe "tea" "colour" (.bool true)).2 htaken
  refine ⟨⟨by decide, by decide, rfl, hdisabled _ (by decide) _ (by decide) rfl⟩, ⟨rfl, hget, ?_⟩,
    ⟨hrefused, (hframe "tea" "acidity" (.int 9)).1 hrefused⟩, htaken, hothers, hrow hkind⟩
  rcases hoffered rfl _ _ _ hget with h | h
  · cases h
  · exact h _ rfl

end TableState

end Worksheet
