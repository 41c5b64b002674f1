import Worksheet.Proofs.Table.Run

namespace Worksheet

namespace TableConfiguration

def lastInto (c : TableConfiguration) (ws : List Write) (row col : String) : Option Write :=
  (ws.filter (fun w => c.takes w && decide (w.row = row ∧ w.col = col))).getLast?

theorem mem_of_lastInto {c : TableConfiguration} {ws : List Write} {row col : String} {w : Write}
    (h : c.lastInto ws row col = some w) :
    w ∈ ws ∧ c.takes w = true ∧ w.row = row ∧ w.col = col := by
  have hmem := List.mem_filter.mp (List.mem_of_getLast? h)
  rwa [Bool.and_eq_true, decide_eq_true_eq] at hmem

end TableConfiguration

namespace TableState

open OrderedMap TableConfiguration

theorem get?_write_outside {s : TableState} {col : String} (hc : col ∉ s.configuration.cols)
    (w : Write) (row : String) :
    (s.write w.row w.col w.value).2.get? row col =
      if s.configuration.takes w && decide (w.row = row ∧ w.col = col) then some w.value
      else s.get? row col := by
  cases ht : s.configuration.takes w with
  | false => simp [get?_write_of_not_takes ht]
  | true =>
      rw [get?_write_of_takes ht]
      by_cases hr : w.row = row
      · by_cases hw : w.col = col
        · simp [hr, hw]
        · simp [hr, hw, Ne.symm hw, hc]
      · simp [hr, Ne.symm hr]

theorem get?_run_outside (row : String) (ws : List Write) (s : TableState) {col : String}
    (hc : col ∉ s.configuration.cols) :
    (s.run ws).2.get? row col =
      ((s.configuration.lastInto ws row col).map (·.value)).or (s.get? row col) := by
  have hwrite : ∀ t : TableState, t.configuration = s.configuration → ∀ w : Write,
      (t.write w.row w.col w.value).2.get? row col =
        if s.configuration.takes w && decide (w.row = row ∧ w.col = col) then some w.value
        else t.get? row col := by
    intro t ht w
    rw [get?_write_outside (ht ▸ hc), ht]
  exact get?_run_of_write hwrite ws s rfl

def ticked (s : TableState) (row : String) : List String :=
  ((s.rowCells row).entries.filter (fun e => isTrue e.2)).map Prod.fst

theorem nodup_ticked (s : TableState) (row : String) : (s.ticked row).Nodup :=
  (s.rowCells row).nodup.sublist (List.filter_sublist.map Prod.fst)

theorem isTrue_iff {v : Value} : isTrue v = true ↔ v = .bool true := by
  cases v <;> simp [isTrue]

theorem mem_ticked {s : TableState} {row col : String} :
    col ∈ s.ticked row ↔ s.IsTicked row col := by
  rw [IsTicked, get?, find?_eq_some_iff]
  simp [ticked, isTrue_iff]

theorem isTicked_run_outside {c : TableConfiguration} {ws : List Write} {row col : String}
    (hc : col ∉ c.cols) :
    ((start c).run ws).2.IsTicked row col ↔
      ∃ w, c.lastInto ws row col = some w ∧ w.value = .bool true := by
  rw [IsTicked, get?_run_outside row ws (start c) hc, get?_start, if_neg (fun h => hc h.2),
    Option.or_none, Option.map_eq_some_iff]
  rfl

theorem exclusive_run {c : TableConfiguration} (hk : c.cellKind = .radio) (ws : List Write)
    (row : String) :
    let s := ((start c).run ws).2
    ((s.ticked row).filter (· ∈ c.cols)).length ≤ 1 ∧
      (∀ col ∉ c.cols, col ∈ s.ticked row ↔
        ∃ w, c.lastInto ws row col = some w ∧ w.value = .bool true) ∧
      ((∀ w ∈ ws, c.takes w = true → w.row = row → w.value = .bool true → w.col ∈ c.cols) →
        (s.ticked row).length ≤ 1) := by
  intro s
  have hcols : ∀ col ∈ c.cols, col ∈ s.configuration.cols := by
    rw [configuration_run]
    exact fun _ hc => hc
  have hinside : ((s.ticked row).filter (· ∈ c.cols)).length ≤ 1 := by
    refine length_le_one_of_nodup ((nodup_ticked s row).sublist List.filter_sublist) ?_
    intro col hcol other hother
    simp only [List.mem_filter, decide_eq_true_eq, mem_ticked] at hcol hother
    exact oneTickedPerRow_run hk ws row col (hcols col hcol.2) other (hcols other hother.2)
      hcol.1 hother.1
  have houtside : ∀ col ∉ c.cols, col ∈ s.ticked row ↔
      ∃ w, c.lastInto ws row col = some w ∧ w.value = .bool true :=
    fun col hc => mem_ticked.trans (isTicked_run_outside hc)
  refine ⟨hinside, houtside, ?_⟩
  intro hticks
  have hall : ∀ col ∈ s.ticked row, col ∈ c.cols := by
    intro col hcol
    refine Decidable.byContradiction fun hc => ?_
    obtain ⟨w, hlast, hv⟩ := (houtside col hc).mp hcol
    obtain ⟨hmem, htakes, hrow, rfl⟩ := mem_of_lastInto hlast
    exact hc (hticks w hmem htakes hrow hv)
  rwa [List.filter_eq_self.mpr (fun col hcol => decide_eq_true (hall col hcol))] at hinside

theorem exclusive_run_radioSample :
    let s := ((start radioSample).run radioWrites).2
    radioSample.cellKind = .radio ∧
      ("unknown" ∉ radioSample.cols ∧ "unknown" ∈ s.ticked "left") ∧
      (∀ w ∈ radioWrites, radioSample.takes w = true → w.row = "right" → w.value = .bool true →
        w.col ∈ radioSample.cols) ∧
      (s.ticked "right").length ≤ 1 := by
  intro s
  have hunknown : "unknown" ∉ radioSample.cols := by decide
  have hticks : ∀ w ∈ radioWrites, radioSample.takes w = true → w.row = "right" →
      w.value = .bool true → w.col ∈ radioSample.cols := by
    intro w hw htakes hrow _
    simp only [radioWrites, List.mem_cons, List.not_mem_nil, or_false] at hw
    rcases hw with rfl | rfl | rfl
    · exact absurd hrow (by decide)
    · exact absurd hrow (by decide)
    · exact absurd htakes (by decide)
  have hleft := (exclusive_run rfl radioWrites "left").2.1 "unknown" hunknown
  exact ⟨rfl, ⟨hunknown, hleft.mpr ⟨_, rfl, rfl⟩⟩, hticks,
    (exclusive_run rfl radioWrites "right").2.2 hticks⟩

theorem two_ticked_in_row :
    radioSample.cellKind = .radio ∧
      ((start radioSample).run
        [⟨"left", "unknown", .bool true⟩, ⟨"left", "true", .bool true⟩]).2.ticked "left" =
          ["true", "unknown"] := by
  decide

end TableState

end Worksheet
