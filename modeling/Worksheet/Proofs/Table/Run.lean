import Worksheet.Proofs.OrderedMap
import Worksheet.Proofs.Sequence
import Worksheet.Table.State

namespace Worksheet

structure Write where
  row : String
  col : String
  value : Value

namespace TableConfiguration

def takes (c : TableConfiguration) (w : Write) : Bool := c.accepts w.row w.col w.value

def clears (c : TableConfiguration) (w : Write) : Bool :=
  decide (c.cellKind = .radio) && TableState.isTrue w.value

theorem clears_iff {c : TableConfiguration} {w : Write} :
    c.clears w = true ↔ c.cellKind = .radio ∧ w.value = .bool true := by
  rw [clears, Bool.and_eq_true, decide_eq_true_eq]
  cases w.value <;> simp [TableState.isTrue]

def decides (c : TableConfiguration) (row col : String) (w : Write) : Bool :=
  decide (w.row = row) && (decide (w.col = col) || c.clears w)

def lastDeciding (c : TableConfiguration) (ws : List Write) (row col : String) : Option Write :=
  (ws.filter (fun w => c.takes w && c.decides row col w)).getLast?

def settled (c : TableConfiguration) (ws : List Write) (row col : String) : Value :=
  match c.lastDeciding ws row col with
  | none => c.cellKind.initial
  | some w => if w.col = col then w.value else .bool false

end TableConfiguration

namespace TableState

open OrderedMap

def run (s : TableState) : List Write → List Bool × TableState
  | [] => ([], s)
  | w :: ws =>
      let (applied, next) := s.write w.row w.col w.value
      let (answers, final) := next.run ws
      (applied :: answers, final)

theorem fst_write (s : TableState) (row col : String) (value : Value) :
    (s.write row col value).1 = s.configuration.accepts row col value := by
  unfold write
  split
  · next h => exact h.symm
  · next h => exact (Bool.eq_false_iff.mpr h).symm

@[simp]
theorem configuration_write (s : TableState) (row col : String) (value : Value) :
    (s.write row col value).2.configuration = s.configuration := by
  unfold write
  split <;> rfl

@[simp]
theorem configuration_run (ws : List Write) :
    ∀ s : TableState, (s.run ws).2.configuration = s.configuration := by
  induction ws with
  | nil => intro s; rfl
  | cons w ws ih =>
      intro s
      exact (ih _).trans (configuration_write s w.row w.col w.value)

theorem fst_run (ws : List Write) :
    ∀ s : TableState, (s.run ws).1 = ws.map s.configuration.takes := by
  induction ws with
  | nil => intro s; rfl
  | cons w ws ih =>
      intro s
      have hw := fst_write s w.row w.col w.value
      have hrest := ih (s.write w.row w.col w.value).2
      rw [configuration_write] at hrest
      change (s.write w.row w.col w.value).1 :: _ = _
      rw [hw, List.map_cons]
      exact congrArg _ hrest

theorem find?_clear (col : String) (cols : List String) :
    ∀ cells : OrderedMap Value,
      (cols.foldl (·.put · (.bool false)) cells).find? col =
        if col ∈ cols then some (.bool false) else cells.find? col := by
  induction cols with
  | nil => intro cells; simp
  | cons k cols ih =>
      intro cells
      rw [List.foldl_cons, ih, find?_put]
      by_cases hc : col ∈ cols
      · simp [hc]
      · by_cases hk : col = k <;> simp [hc, hk]

theorem find?_written (c : TableConfiguration) (cells : OrderedMap Value) (w : Write)
    (col : String) :
    (written c cells w.col w.value).find? col =
      if col = w.col then some w.value
      else if c.clears w ∧ col ∈ c.cols then some (.bool false)
      else cells.find? col := by
  unfold written
  rw [find?_put]
  by_cases hc : col = w.col
  · simp [hc]
  · simp only [hc, if_false]
    by_cases hr : c.cellKind = .radio ∧ isTrue w.value = true
    · rw [if_pos hr, find?_clear]
      simp [TableConfiguration.clears, hr]
    · rw [if_neg hr]
      simp only [TableConfiguration.clears, Bool.and_eq_true, decide_eq_true_eq, hr, false_and,
        if_false]

theorem rowCells_write_of_not_takes {s : TableState} {w : Write}
    (h : s.configuration.takes w = false) (row : String) :
    (s.write w.row w.col w.value).2.rowCells row = s.rowCells row := by
  have hw : s.configuration.accepts w.row w.col w.value = false := h
  simp [write, hw]

theorem rowCells_write_of_takes {s : TableState} {w : Write}
    (h : s.configuration.takes w = true) (row : String) :
    (s.write w.row w.col w.value).2.rowCells row =
      if row = w.row then written s.configuration (s.rowCells w.row) w.col w.value
      else s.rowCells row := by
  have hw : s.configuration.accepts w.row w.col w.value = true := h
  simp only [write, hw, if_true, rowCells, find?_put]
  split <;> rfl

theorem get?_write_of_not_takes {s : TableState} {w : Write}
    (h : s.configuration.takes w = false) (row col : String) :
    (s.write w.row w.col w.value).2.get? row col = s.get? row col := by
  unfold get?
  rw [rowCells_write_of_not_takes h]

theorem get?_write_of_takes {s : TableState} {w : Write}
    (h : s.configuration.takes w = true) (row col : String) :
    (s.write w.row w.col w.value).2.get? row col =
      if row = w.row ∧ col = w.col then some w.value
      else if row = w.row ∧ s.configuration.clears w ∧ col ∈ s.configuration.cols then
        some (.bool false)
      else s.get? row col := by
  unfold get?
  rw [rowCells_write_of_takes h]
  by_cases hr : row = w.row
  · subst hr
    simp only [if_true, find?_written, true_and]
  · simp [hr]

theorem get?_start (c : TableConfiguration) (row col : String) :
    (start c).get? row col =
      if row ∈ c.rows ∧ col ∈ c.cols then some c.cellKind.initial else none := by
  simp only [get?, rowCells, start, find?_ofList_map (fun _ => initialRow c)]
  by_cases hr : row ∈ c.rows
  · simp only [hr, if_true, Option.getD_some, true_and]
    exact find?_ofList_map (fun _ => c.cellKind.initial) c.cols col
  · simp [hr]

theorem get?_write {s : TableState} {col : String} (hc : col ∈ s.configuration.cols) (w : Write)
    (row : String) :
    (s.write w.row w.col w.value).2.get? row col =
      if s.configuration.takes w && s.configuration.decides row col w then
        some (if w.col = col then w.value else .bool false)
      else s.get? row col := by
  cases ht : s.configuration.takes w with
  | false => simp [get?_write_of_not_takes ht]
  | true =>
      rw [get?_write_of_takes ht]
      by_cases hr : w.row = row
      · by_cases hw : w.col = col
        · simp [TableConfiguration.decides, hr, hw]
        · simp [TableConfiguration.decides, hr, hw, Ne.symm hw, hc]
      · simp [TableConfiguration.decides, hr, Ne.symm hr]

theorem get?_run_of_write {c : TableConfiguration} {row col : String} {p : Write → Bool}
    {entered : Write → Value}
    (hwrite : ∀ s : TableState, s.configuration = c → ∀ w : Write,
      (s.write w.row w.col w.value).2.get? row col =
        if p w then some (entered w) else s.get? row col) (ws : List Write) :
    ∀ s : TableState, s.configuration = c →
      (s.run ws).2.get? row col = ((ws.filter p).getLast?.map entered).or (s.get? row col) := by
  induction ws with
  | nil => intro s _; rfl
  | cons w ws ih =>
      intro s hs
      have hnext := ih (s.write w.row w.col w.value).2 ((configuration_write _ _ _ _).trans hs)
      rw [hwrite s hs] at hnext
      rw [getLast?_filter_cons]
      change ((s.write w.row w.col w.value).2.run ws).2.get? row col = _
      rw [hnext]
      cases (ws.filter p).getLast? with
      | some last => rfl
      | none => split <;> rfl

theorem get?_run (row col : String) (ws : List Write) (s : TableState)
    (hc : col ∈ s.configuration.cols) :
    (s.run ws).2.get? row col =
      match s.configuration.lastDeciding ws row col with
      | none => s.get? row col
      | some w => some (if w.col = col then w.value else .bool false) := by
  have hwrite : ∀ t : TableState, t.configuration = s.configuration → ∀ w : Write,
      (t.write w.row w.col w.value).2.get? row col =
        if s.configuration.takes w && s.configuration.decides row col w then
          some (if w.col = col then w.value else .bool false)
        else t.get? row col := by
    intro t ht w
    rw [get?_write (ht ▸ hc), ht]
  rw [get?_run_of_write hwrite ws s rfl, TableConfiguration.lastDeciding]
  cases (ws.filter _).getLast? <;> rfl

theorem run_refines_log (c : TableConfiguration) (ws : List Write) :
    ((start c).run ws).1 = ws.map c.takes ∧
      ∀ row ∈ c.rows, ∀ col ∈ c.cols,
        ((start c).run ws).2.get? row col = some (c.settled ws row col) := by
  refine ⟨fst_run ws (start c), ?_⟩
  intro row hr col hc
  have hlog := get?_run row col ws (start c) hc
  rw [hlog, get?_start, if_pos ⟨hr, hc⟩]
  change (match c.lastDeciding ws row col with
    | none => some c.cellKind.initial
    | some w => some (if w.col = col then w.value else .bool false)) = _
  unfold TableConfiguration.settled
  cases c.lastDeciding ws row col <;> rfl

def radioSample : TableConfiguration where
  rows := ["left", "right"]
  cols := ["true", "false"]
  answerKey := ∅
  cellKind := .radio
  preset := .nary
  disabled := some (fun row col => row == "right" && col == "true")
  allowed := none
  shuffle := false

def radioWrites : List Write :=
  [⟨"left", "true", .bool true⟩, ⟨"left", "unknown", .bool true⟩, ⟨"right", "true", .bool true⟩]

theorem run_refines_log_radioSample :
    ("left" ∈ radioSample.rows ∧ "true" ∈ radioSample.cols) ∧
      ((start radioSample).run radioWrites).1 = [true, true, false] ∧
      ((start radioSample).run radioWrites).2.get? "left" "true" = some (.bool false) := by
  have h := run_refines_log radioSample radioWrites
  refine ⟨by decide, h.1.trans (by decide), ?_⟩
  exact (h.2 "left" (by decide) "true" (by decide)).trans rfl

theorem run_induction {P : TableState → Prop} {ws : List Write}
    (hstep : ∀ s, ∀ w ∈ ws, P s → P (s.write w.row w.col w.value).2) :
    ∀ {s : TableState}, P s → P (s.run ws).2 := by
  induction ws with
  | nil => intro s h; exact h
  | cons w ws ih =>
      intro s h
      have hnext := hstep s w List.mem_cons_self h
      exact ih (fun s v hv => hstep s v (List.mem_cons_of_mem _ hv)) hnext

def IsTicked (s : TableState) (row col : String) : Prop := s.get? row col = some (.bool true)

theorem isTicked_iff {s : TableState} {row col : String} :
    s.IsTicked row col ↔ ((s.get? row col).map isTrue).getD false = true := by
  unfold IsTicked
  cases s.get? row col with
  | none => simp
  | some v => cases v <;> simp [isTrue]

theorem mem_selected {s : TableState} (h : s.configuration.cellKind.toggles = true)
    {row col : String} :
    col ∈ s.selected row ↔ col ∈ s.configuration.cols ∧ s.IsTicked row col := by
  rw [isTicked_iff]
  simp [selected, h]

theorem not_isTicked_start (c : TableConfiguration) (row col : String) :
    ¬ (start c).IsTicked row col := by
  rw [IsTicked, get?_start]
  split
  · cases c.cellKind <;> simp [CellKind.initial, CellKind.toggles]
  · simp

def OneTickedPerRow (s : TableState) : Prop :=
  ∀ row, ∀ col ∈ s.configuration.cols, ∀ other ∈ s.configuration.cols,
    s.IsTicked row col → s.IsTicked row other → col = other

theorem OneTickedPerRow.write {s : TableState} (hk : s.configuration.cellKind = .radio)
    (h : s.OneTickedPerRow) (w : Write) : (s.write w.row w.col w.value).2.OneTickedPerRow := by
  intro row col hc other ho ht ht'
  rw [configuration_write] at hc ho
  rw [IsTicked, get?_write hc] at ht
  rw [IsTicked, get?_write ho] at ht'
  cases htake : s.configuration.takes w with
  | false =>
      simp only [htake, Bool.false_and, Bool.false_eq_true, if_false] at ht ht'
      exact h row col hc other ho ht ht'
  | true =>
      -- a ticking write leaves only its own column ticked, any other write ticks nothing
      by_cases hv : isTrue w.value = true
      · simp only [htake, TableConfiguration.decides, TableConfiguration.clears, hk, hv,
          decide_true, Bool.and_true, Bool.or_true, Bool.true_and, decide_eq_true_eq] at ht ht'
        by_cases hr : w.row = row
        · simp only [hr, if_true] at ht ht'
          by_cases hw : w.col = col
          · by_cases hw' : w.col = other
            · exact hw.symm.trans hw'
            · simp [hw'] at ht'
          · simp [hw] at ht
        · simp only [hr, if_false] at ht ht'
          exact h row col hc other ho ht ht'
      · have hnot : w.value ≠ .bool true := fun he => hv (by rw [he]; rfl)
        simp only [htake, TableConfiguration.decides, TableConfiguration.clears, hv,
          Bool.and_false, Bool.or_false, Bool.true_and, Bool.and_eq_true,
          decide_eq_true_eq] at ht ht'
        split at ht
        · next hd => simp [hd.2, hnot] at ht
        · split at ht'
          · next hd => simp [hd.2, hnot] at ht'
          · exact h row col hc other ho ht ht'

theorem oneTickedPerRow_run {c : TableConfiguration} (hk : c.cellKind = .radio)
    (ws : List Write) : ((start c).run ws).2.OneTickedPerRow := by
  have hstart : (start c).configuration = c ∧ (start c).OneTickedPerRow :=
    ⟨rfl, fun row col _ _ _ ht => absurd ht (not_isTicked_start c row col)⟩
  have hstep : ∀ s : TableState, ∀ w ∈ ws, s.configuration = c ∧ s.OneTickedPerRow →
      (s.write w.row w.col w.value).2.configuration = c ∧
        (s.write w.row w.col w.value).2.OneTickedPerRow :=
    fun s w _ hs => ⟨by rw [configuration_write, hs.1], hs.2.write (hs.1 ▸ hk) w⟩
  exact (run_induction (P := fun s => s.configuration = c ∧ s.OneTickedPerRow) hstep hstart).2

end TableState

end Worksheet
