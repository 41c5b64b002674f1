import Worksheet.Proofs.Markup.Document

namespace Worksheet.Markup

def NothingOpen (ts : List Token) : Prop :=
  (∀ t ∈ ts, t.kind = .newline) ∨
    ∃ closed semicolon rest, ts = closed ++ semicolon :: rest ∧
      semicolon.kind = .mark .semicolon ∧ depthAfter 0 closed = 0 ∧ ∀ t ∈ rest, t.kind = .newline

section Groups

theorem groups_of_newlines {ts : List Token} (h : ∀ t ∈ ts, t.kind = .newline) (depth : Nat) :
    groups depth ts = ([], ts) :=
  groups_of_not_semicolon (fun t ht => by simp [h t ht]) depth

theorem depthAfter_of_newlines {ts : List Token} (h : ∀ t ∈ ts, t.kind = .newline) (depth : Nat) :
    depthAfter depth ts = depth :=
  depthAfter_of_not_bracket (fun t ht => by simp [h t ht]) depth

theorem groups_split (ts : List Token) :
    ∀ depth, groups depth ts = ([], ts) ∨
      (groups depth ts).1 ≠ [] ∧
        ∃ closed semicolon, ts = closed ++ semicolon :: (groups depth ts).2 ∧
          semicolon.kind = .mark .semicolon ∧ depthAfter depth closed = 0 := by
  induction ts with
  | nil => intro depth; exact Or.inl rfl
  | cons t ts ih =>
      intro depth
      by_cases hclose : t.kind = .mark .semicolon ∧ depth = 0
      · obtain ⟨ht, rfl⟩ := hclose
        right
        rw [groups_cons_of_close ht]
        refine ⟨List.cons_ne_nil _ _, ?_⟩
        rcases ih 0 with hnone | ⟨-, closed, semicolon, hts, hk, hd⟩
        · exact ⟨[], t, by rw [hnone]; rfl, ht, rfl⟩
        · refine ⟨t :: closed, semicolon, congrArg (t :: ·) hts, hk, ?_⟩
          rw [depthAfter, List.foldl_cons, bracketDepth_of_semicolon ht]
          exact hd
      · rw [groups_cons_of_not_close hclose]
        rcases ih (bracketDepth depth t) with hnone | ⟨hne, closed, semicolon, hts, hk, hd⟩
        · left
          rw [hnone]
          rfl
        · right
          obtain ⟨group, closed', hgroups⟩ := List.exists_cons_of_ne_nil hne
          generalize hg : groups (bracketDepth depth t) ts = g at hgroups hts
          obtain ⟨gs, left⟩ := g
          subst hgroups
          exact ⟨List.cons_ne_nil _ _, t :: closed, semicolon, congrArg (t :: ·) hts, hk, hd⟩

end Groups

theorem nothingOpen_iff {ts : List Token} :
    NothingOpen ts ↔ ∀ t ∈ (groups 0 ts).2, t.kind = .newline := by
  constructor
  · rintro (hall | ⟨closed, semicolon, rest, rfl, hk, hd, hrest⟩)
    · rw [groups_of_newlines hall]
      exact hall
    · rw [groups_append, hd, groups_cons_of_close hk, groups_of_newlines hrest]
      exact hrest
  · intro h
    rcases groups_split ts 0 with hnone | ⟨-, closed, semicolon, hts, hk, hd⟩
    · rw [hnone] at h
      exact Or.inl h
    · exact Or.inr ⟨closed, semicolon, _, hts, hk, hd, h⟩

instance (ts : List Token) : Decidable (NothingOpen ts) :=
  decidable_of_iff _ nothingOpen_iff.symm

theorem NothingOpen.depthAfter_eq_zero {ts : List Token} (h : NothingOpen ts) :
    depthAfter 0 ts = 0 := by
  rcases h with hall | ⟨closed, semicolon, rest, rfl, hk, hd, hrest⟩
  · exact depthAfter_of_newlines hall 0
  · rw [depthAfter_append, hd, depthAfter, List.foldl_cons, bracketDepth_of_semicolon hk]
    exact depthAfter_of_newlines hrest 0

theorem NothingOpen.settled {ts : List Token} (h : NothingOpen ts) : Settled ts :=
  ⟨nothingOpen_iff.mp h, h.depthAfter_eq_zero⟩

theorem NothingOpen.append_newline {ts : List Token} (h : NothingOpen ts) {t : Token}
    (ht : t.kind = .newline) : NothingOpen (ts ++ [t]) := by
  rw [nothingOpen_iff, groups_append, groups_newline ht]
  intro u hu
  rcases List.mem_append.mp hu with hu | hu
  · exact nothingOpen_iff.mp h u hu
  · exact List.mem_singleton.mp hu ▸ ht

theorem NothingOpen.scan_append_newline {s : List Char} (h : NothingOpen (scan s)) :
    NothingOpen (scan (s ++ ['\n'])) := by
  obtain ⟨t, ht, hscan⟩ := Markup.scan_append_newline s
  rw [hscan]
  exact h.append_newline ht

theorem readDocument_append_part (rule : LabelRule) {s : List Char} (h : NothingOpen (scan s))
    (t : List Char) :
    let above := readDocument rule s
    let below := readDocument rule t
    let whole := readDocument rule (s ++ '\n' :: t)
    let lines := 1 + s.count '\n'
    whole.statements =
        above.statements ++ below.statements.map (fun st => { st with line := st.line + lines }) ∧
      whole.skipped = above.skipped ++ below.skipped.map (· + lines) := by
  intro above below whole lines
  have hcount : (s ++ ['\n']).count '\n' = lines := by
    rw [List.count_append, List.count_singleton_self, Nat.add_comm]
  have happend : whole = above ++ below.shift lines := by
    have hparts := readDocument_append (Chars.endsLine_append_newline s)
      h.scan_append_newline.settled rule t
    rwa [hcount, readDocument_append_newline, List.append_assoc] at hparts
  rw [happend]
  exact ⟨rfl, rfl⟩

def beds : List Char := "] loose\n2nd = fern;\nHerb = [sage |\nmint]; // dried\n".toList

def trees : List Char := "\n// old\nTree = oak;\nleaf".toList

theorem readDocument_append_part_beds :
    NothingOpen (scan beds) ∧
      readDocument .category (beds ++ '\n' :: trees) =
        ⟨[⟨some "Herb", ["sage", "mint"], 3, true⟩, ⟨some "Tree", ["oak"], 8, false⟩],
          [1, 2, 9]⟩ := by
  obtain ⟨hopen, habove, hbelow, hcount⟩ : NothingOpen (scan beds) ∧
      readDocument .category beds = ⟨[⟨some "Herb", ["sage", "mint"], 3, true⟩], [1, 2]⟩ ∧
      readDocument .category trees = ⟨[⟨some "Tree", ["oak"], 3, false⟩], [4]⟩ ∧
      1 + beds.count '\n' = 5 := by
    decide +kernel
  have h := readDocument_append_part .category hopen trees
  refine ⟨hopen, ?_⟩
  simp only [habove, hbelow, hcount] at h
  exact (Document.mk.injEq _ _ _ _).mpr h

end Worksheet.Markup
