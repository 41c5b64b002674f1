namespace Worksheet

def pieces (p : α → Bool) (l : List α) : List (List α) :=
  l.foldr
    (fun a rest => if p a then [] :: rest else
      match rest with
      | [] => [[a]]
      | piece :: rest => (a :: piece) :: rest)
    [[]]

theorem pieces_nil (p : α → Bool) : pieces p [] = [[]] := rfl

theorem pieces_ne_nil (p : α → Bool) (l : List α) : pieces p l ≠ [] := by
  cases l with
  | nil => simp [pieces]
  | cons a l =>
      simp only [pieces, List.foldr_cons]
      split
      · simp
      · split <;> simp

theorem pieces_cons_of_pos {p : α → Bool} {a : α} (h : p a = true) (l : List α) :
    pieces p (a :: l) = [] :: pieces p l := by
  simp [pieces, h]

theorem pieces_cons_of_neg {p : α → Bool} {a : α} (h : p a = false) {l : List α}
    {piece : List α} {rest : List (List α)} (hl : pieces p l = piece :: rest) :
    pieces p (a :: l) = (a :: piece) :: rest := by
  simp only [pieces] at hl
  simp [pieces, h, hl]

def splitAtLast (p : α → Bool) : List α → Option (List α × α × List α)
  | [] => none
  | a :: l =>
      match splitAtLast p l with
      | some (before, found, after) => some (a :: before, found, after)
      | none => if p a then some ([], a, l) else none

theorem append_of_splitAtLast {p : α → Bool} :
    ∀ {l before after : List α} {found : α},
      splitAtLast p l = some (before, found, after) → l = before ++ found :: after := by
  intro l
  induction l with
  | nil => intro _ _ _ h; simp [splitAtLast] at h
  | cons a l ih =>
      intro before after found h
      simp only [splitAtLast] at h
      split at h
      · next b f s hl =>
          simp only [Option.some.injEq, Prod.mk.injEq] at h
          obtain ⟨rfl, rfl, rfl⟩ := h
          simp [ih hl]
      · split at h
        · simp only [Option.some.injEq, Prod.mk.injEq] at h
          obtain ⟨rfl, rfl, rfl⟩ := h
          rfl
        · simp at h

variable [DecidableEq α]

def distinct : List α → List α
  | [] => []
  | a :: l => a :: (distinct l).filter (· ≠ a)

theorem mem_distinct {a : α} : ∀ {l : List α}, a ∈ distinct l ↔ a ∈ l := by
  intro l
  induction l with
  | nil => simp [distinct]
  | cons b l ih =>
      by_cases h : a = b
      · simp [distinct, h]
      · simp [distinct, h, ih]

theorem nodup_distinct : ∀ (l : List α), (distinct l).Nodup := by
  intro l
  induction l with
  | nil => simp [distinct]
  | cons a l ih =>
      simp only [distinct, List.nodup_cons, List.mem_filter]
      exact ⟨by simp, ih.sublist List.filter_sublist⟩

def repeats (seen : List α) : List α → List α
  | [] => []
  | a :: l => if a ∈ seen then a :: repeats seen l else repeats (a :: seen) l

end Worksheet
