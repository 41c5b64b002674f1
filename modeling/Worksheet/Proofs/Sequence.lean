import Worksheet.Sequence

namespace Worksheet

theorem pieces_cons (p : α → Bool) (a : α) (l : List α) :
    pieces p (a :: l) = if p a then [] :: pieces p l else (pieces p l).modifyHead (a :: ·) := by
  cases h : p a with
  | true => simp [pieces_cons_of_pos h]
  | false =>
      cases hl : pieces p l with
      | nil => exact absurd hl (pieces_ne_nil p l)
      | cons piece rest => simp [pieces_cons_of_neg h hl]

theorem mem_of_mem_pieces {p : α → Bool} {piece : List α} {a : α} :
    ∀ {l : List α}, piece ∈ pieces p l → a ∈ piece → a ∈ l ∧ p a = false := by
  intro l
  induction l generalizing piece with
  | nil =>
      intro h ha
      simp only [pieces_nil, List.mem_singleton] at h
      simp [h] at ha
  | cons b l ih =>
      intro h ha
      rw [pieces_cons] at h
      cases hb : p b with
      | true =>
          simp only [hb, if_true, List.mem_cons] at h
          rcases h with rfl | h
          · simp at ha
          · exact ⟨List.mem_cons_of_mem _ (ih h ha).1, (ih h ha).2⟩
      | false =>
          cases hl : pieces p l with
          | nil => exact absurd hl (pieces_ne_nil p l)
          | cons first rest =>
              simp only [hb, hl, Bool.false_eq_true, if_false, List.modifyHead_cons,
                List.mem_cons] at h
              rcases h with rfl | h
              · rcases List.mem_cons.mp ha with rfl | ha
                · exact ⟨List.mem_cons_self, hb⟩
                · have := ih (hl ▸ List.mem_cons_self) ha
                  exact ⟨List.mem_cons_of_mem _ this.1, this.2⟩
              · have := ih (hl ▸ List.mem_cons_of_mem _ h) ha
                exact ⟨List.mem_cons_of_mem _ this.1, this.2⟩

theorem length_pieces (p : α → Bool) (l : List α) : (pieces p l).length = l.countP p + 1 := by
  induction l with
  | nil => rfl
  | cons a l ih =>
      rw [pieces_cons, List.countP_cons]
      cases p a with
      | true => simp [ih]
      | false => simp [ih]

theorem not_mem_of_forall {p : α → Bool} {l : List α} (h : ∀ a ∈ l, p a = true) {a : α}
    (ha : p a = false) : a ∉ l := by
  intro hmem
  rw [h a hmem] at ha
  cases ha

theorem pieces_of_forall_not {p : α → Bool} :
    ∀ {l : List α}, (∀ a ∈ l, p a = false) → pieces p l = [l] := by
  intro l
  induction l with
  | nil => intro _; rfl
  | cons a l ih =>
      intro h
      have hl := ih (fun b hb => h b (List.mem_cons_of_mem _ hb))
      rw [pieces_cons_of_neg (h a List.mem_cons_self) hl]

theorem flatten_pieces (p : α → Bool) :
    ∀ l : List α, (pieces p l).flatten = l.filter (fun a => !p a) := by
  intro l
  induction l with
  | nil => rfl
  | cons a l ih =>
      rw [pieces_cons]
      cases ha : p a with
      | true =>
          rw [if_pos rfl, List.flatten_cons, ih, List.nil_append,
            List.filter_cons_of_neg (by simp [ha])]
      | false =>
          rw [if_neg (by simp), List.filter_cons_of_pos (by simp [ha]), ← ih]
          cases hl : pieces p l with
          | nil => exact absurd hl (pieces_ne_nil p l)
          | cons piece rest => rfl

theorem pieces_append_of_pos {p : α → Bool} {sep : α} (hs : p sep = true) (rest : List α) :
    ∀ l : List α, pieces p (l ++ sep :: rest) = pieces p l ++ pieces p rest := by
  intro l
  induction l with
  | nil => rw [List.nil_append, pieces_cons_of_pos hs, pieces_nil, List.singleton_append]
  | cons a l ih =>
      rw [List.cons_append, pieces_cons, pieces_cons, ih]
      cases p a with
      | true => rfl
      | false =>
          cases hl : pieces p l with
          | nil => exact absurd hl (pieces_ne_nil p l)
          | cons piece others => rfl

theorem pieces_append_cons {p : α → Bool} {sep : α} (hs : p sep = true) (rest : List α)
    {l : List α} (h : ∀ a ∈ l, p a = false) : pieces p (l ++ sep :: rest) = l :: pieces p rest := by
  rw [pieces_append_of_pos hs, pieces_of_forall_not h, List.singleton_append]

theorem pieces_intercalate {p : α → Bool} {sep : α} (hs : p sep = true) :
    ∀ {ls : List (List α)}, ls ≠ [] → (∀ l ∈ ls, ∀ a ∈ l, p a = false) →
      pieces p ([sep].intercalate ls) = ls := by
  intro ls
  induction ls with
  | nil => intro h; exact absurd rfl h
  | cons l ls ih =>
      intro _ h
      have hl := h l List.mem_cons_self
      cases ls with
      | nil => rw [List.intercalate_singleton, pieces_of_forall_not hl]
      | cons m ls =>
          have hrest := ih (List.cons_ne_nil m ls) (fun k hk => h k (List.mem_cons_of_mem _ hk))
          rw [List.intercalate_cons_cons, List.append_assoc, List.singleton_append,
            pieces_append_cons hs _ hl, hrest]

theorem intercalate_pieces [DecidableEq α] (sep : α) :
    ∀ l : List α, [sep].intercalate (pieces (· == sep) l) = l := by
  intro l
  induction l with
  | nil => rfl
  | cons a l ih =>
      cases hl : pieces (· == sep) l with
      | nil => exact absurd hl (pieces_ne_nil _ l)
      | cons piece rest =>
          rw [hl] at ih
          rw [pieces_cons, hl]
          by_cases ha : a = sep
          · rw [ha, beq_self_eq_true, if_pos rfl, List.intercalate_cons_cons, ih]
            rfl
          · rw [beq_false_of_ne ha, if_neg (by simp), List.modifyHead_cons]
            cases rest with
            | nil => rw [List.intercalate_singleton, ← ih, List.intercalate_singleton]
            | cons next rest =>
                rw [List.intercalate_cons_cons, List.cons_append, List.cons_append, ← ih,
                  List.intercalate_cons_cons]

theorem induction_on_cut (p : α → Bool) {motive : List α → Prop}
    (last : ∀ l, (∀ a ∈ l, p a = false) → motive l)
    (cons : ∀ l a rest, (∀ b ∈ l, p b = false) → p a = true → motive rest → motive (l ++ a :: rest))
    (l : List α) : motive l := by
  have hrun : ∀ l pre, (∀ b ∈ pre, p b = false) → motive (pre ++ l) := by
    intro l
    induction l with
    | nil =>
        intro pre hpre
        rw [List.append_nil]
        exact last pre hpre
    | cons a l ih =>
        intro pre hpre
        cases ha : p a with
        | true => exact cons pre a l hpre ha (ih [] (fun _ hb => absurd hb List.not_mem_nil))
        | false =>
            have hmore : ∀ b ∈ pre ++ [a], p b = false := by
              intro b hb
              rcases List.mem_append.mp hb with hb | hb
              · exact hpre b hb
              · exact List.mem_singleton.mp hb ▸ ha
            have hl := ih (pre ++ [a]) hmore
            rwa [List.append_assoc, List.singleton_append] at hl
  exact hrun l [] (fun _ hb => absurd hb List.not_mem_nil)

theorem infix_of_mem_pieces {p : α → Bool} {l piece : List α} (h : piece ∈ pieces p l) :
    piece <:+: l := by
  induction l using induction_on_cut p with
  | last l hl =>
      rw [pieces_of_forall_not hl] at h
      exact List.mem_singleton.mp h ▸ List.infix_rfl
  | cons l a rest hl ha ih =>
      rw [pieces_append_cons ha rest hl] at h
      rcases List.mem_cons.mp h with rfl | h
      · exact (List.prefix_append _ _).isInfix
      · exact (ih h).trans ((List.suffix_cons a rest).trans (List.suffix_append l _)).isInfix

theorem induction_on_pieces [DecidableEq α] (sep : α) {motive : List α → Prop}
    (last : ∀ l, sep ∉ l → motive l)
    (cons : ∀ l rest, sep ∉ l → motive rest → motive (l ++ sep :: rest)) (l : List α) :
    motive l := by
  have hsep : ∀ {l : List α}, (∀ a ∈ l, (a == sep) = false) → sep ∉ l :=
    fun h hmem => absurd (h sep hmem) (by simp)
  induction l using induction_on_cut (· == sep) with
  | last l h => exact last l (hsep h)
  | cons l a rest h ha ih => exact eq_of_beq ha ▸ cons l rest (hsep h) ih

theorem pieces_map {p : α → Bool} {q : β → Bool} {f : α → β} (h : ∀ a, q (f a) = p a) :
    ∀ l : List α, pieces q (l.map f) = (pieces p l).map (List.map f) := by
  intro l
  induction l with
  | nil => rfl
  | cons a l ih =>
      rw [List.map_cons, pieces_cons, pieces_cons, h, ih]
      cases p a with
      | true => rfl
      | false => cases pieces p l <;> rfl

def places (p : α → Bool) (l : List α) : List Nat :=
  (List.range l.length).filter (fun i => l[i]?.any p)

def stretches (l : List α) (ps : List Nat) : List (List α) :=
  List.zipWith (fun start stop => l.extract start stop) (0 :: ps.map (· + 1)) (ps ++ [l.length])

theorem places_cons (p : α → Bool) (a : α) (l : List α) :
    places p (a :: l) = if p a then 0 :: (places p l).map (· + 1) else (places p l).map (· + 1) := by
  have hrest : ((List.range l.length).map Nat.succ).filter (fun i => (a :: l)[i]?.any p) =
      (places p l).map (· + 1) := by
    rw [List.filter_map]
    rfl
  rw [places, List.length_cons, List.range_succ_eq_map, List.filter_cons, hrest,
    List.getElem?_cons_zero, Option.any_some]

theorem zipWith_extract_succ (a : α) (l : List α) (starts stops : List Nat) :
    List.zipWith (fun start stop => (a :: l).extract start stop) (starts.map (· + 1))
      (stops.map (· + 1)) = List.zipWith (fun start stop => l.extract start stop) starts stops := by
  rw [List.zipWith_map]
  simp

theorem stretches_cons_zero (a : α) (l : List α) (ps : List Nat) :
    stretches (a :: l) (0 :: ps.map (· + 1)) = [] :: stretches l ps := by
  have hstops : ps.map (· + 1) ++ [(a :: l).length] = (ps ++ [l.length]).map (· + 1) := by simp
  rw [stretches, List.cons_append, List.zipWith_cons_cons, hstops, List.map_cons, Nat.zero_add]
  exact congrArg _ (zipWith_extract_succ a l (0 :: ps.map (· + 1)) _)

theorem stretches_cons_succ (a : α) (l : List α) (ps : List Nat) :
    stretches (a :: l) (ps.map (· + 1)) = (stretches l ps).modifyHead (a :: ·) := by
  cases ps with
  | nil => simp [stretches]
  | cons i ps =>
      have hstops : ps.map (· + 1) ++ [(a :: l).length] = (ps ++ [l.length]).map (· + 1) := by simp
      rw [stretches, List.map_cons, List.cons_append, hstops, List.zipWith_cons_cons,
        zipWith_extract_succ, stretches, List.cons_append, List.zipWith_cons_cons]
      rfl

theorem pieces_eq_stretches (p : α → Bool) (l : List α) : pieces p l = stretches l (places p l) := by
  induction l with
  | nil => rfl
  | cons a l ih =>
      rw [pieces_cons, places_cons, ih]
      cases p a with
      | true => exact (stretches_cons_zero a l _).symm
      | false => exact (stretches_cons_succ a l _).symm

theorem stretches_map (f : α → β) (l : List α) (ps : List Nat) :
    stretches (l.map f) ps = (stretches l ps).map (List.map f) := by
  rw [stretches, stretches, List.map_zipWith, List.length_map]
  simp only [List.extract_eq_take_drop, List.map_take, List.map_drop]

theorem map_of_forall_eq {f : α → α} {l : List α} (h : ∀ a ∈ l, f a = a) : l.map f = l :=
  (List.map_congr_left h).trans (List.map_id' l)

theorem length_append_cons (s : List α) (a : α) (t : List α) :
    (s ++ a :: t).length = s.length + 1 + t.length := by
  rw [List.length_append, List.length_cons, Nat.add_comm t.length, Nat.add_assoc]

theorem takeWhile_of_forall {p : α → Bool} {l : List α} (h : ∀ a ∈ l, p a = true) :
    l.takeWhile p = l := by
  have happend : (l ++ []).takeWhile p = l ++ [].takeWhile p := List.takeWhile_append_of_pos h
  rwa [List.takeWhile_nil, List.append_nil] at happend

theorem dropWhile_of_forall {p : α → Bool} {l : List α} (h : ∀ a ∈ l, p a = true) :
    l.dropWhile p = [] := by
  have happend : (l ++ []).dropWhile p = [].dropWhile p := List.dropWhile_append_of_pos h
  rwa [List.dropWhile_nil, List.append_nil] at happend

theorem of_dropWhile_eq_cons {p : α → Bool} {l rest : List α} {a : α}
    (h : l.dropWhile p = a :: rest) : p a = false := by
  have hhead := List.head_dropWhile_not p (by rw [h]; exact List.cons_ne_nil a rest)
  simpa only [h, List.head_cons] using hhead

theorem takeWhile_append_of_neg {p : α → Bool} {a : α} (h : p a = false) (rest : List α) :
    ∀ l : List α, (l ++ a :: rest).takeWhile p = l.takeWhile p := by
  intro l
  induction l with
  | nil => rw [List.nil_append, List.takeWhile_cons_of_neg (by simp [h]), List.takeWhile_nil]
  | cons b l ih =>
      cases hb : p b with
      | true =>
          rw [List.cons_append, List.takeWhile_cons_of_pos hb, ih, List.takeWhile_cons_of_pos hb]
      | false =>
          rw [List.cons_append, List.takeWhile_cons_of_neg (by simp [hb]),
            List.takeWhile_cons_of_neg (by simp [hb])]

theorem dropWhile_append_of_neg {p : α → Bool} {a : α} (h : p a = false) (rest : List α) :
    ∀ l : List α, (l ++ a :: rest).dropWhile p = l.dropWhile p ++ a :: rest := by
  intro l
  induction l with
  | nil =>
      rw [List.nil_append, List.dropWhile_cons_of_neg (by simp [h]), List.dropWhile_nil,
        List.nil_append]
  | cons b l ih =>
      cases hb : p b with
      | true =>
          rw [List.cons_append, List.dropWhile_cons_of_pos hb, ih, List.dropWhile_cons_of_pos hb]
      | false =>
          rw [List.cons_append, List.dropWhile_cons_of_neg (by simp [hb]),
            List.dropWhile_cons_of_neg (by simp [hb]), List.cons_append]

theorem splitAtLast_eq_none_iff {p : α → Bool} :
    ∀ {l : List α}, splitAtLast p l = none ↔ ∀ a ∈ l, p a = false := by
  intro l
  induction l with
  | nil => simp [splitAtLast]
  | cons a l ih =>
      rw [splitAtLast, List.forall_mem_cons, ← ih]
      cases splitAtLast p l with
      | some parts => simp
      | none => cases p a <;> simp

theorem splitAtLast_append {p : α → Bool} {a : α} {after : List α} (ha : p a = true)
    (h : ∀ b ∈ after, p b = false) (before : List α) :
    splitAtLast p (before ++ a :: after) = some (before, a, after) := by
  induction before with
  | nil => rw [List.nil_append, splitAtLast, splitAtLast_eq_none_iff.mpr h, ha, if_pos rfl]
  | cons b before ih => rw [List.cons_append, splitAtLast, ih]

theorem after_of_splitAtLast {p : α → Bool} {a : α} :
    ∀ {l before after : List α}, splitAtLast p l = some (before, a, after) →
      p a = true ∧ ∀ b ∈ after, p b = false := by
  intro l
  induction l with
  | nil => intro before after h; simp [splitAtLast] at h
  | cons b l ih =>
      intro before after h
      rw [splitAtLast] at h
      cases hl : splitAtLast p l with
      | some parts =>
          obtain ⟨init, c, rest⟩ := parts
          simp only [hl, Option.some.injEq, Prod.mk.injEq] at h
          obtain ⟨-, rfl, rfl⟩ := h
          exact ih hl
      | none =>
          rw [hl] at h
          cases hb : p b with
          | true =>
              simp only [hb, if_true, Option.some.injEq, Prod.mk.injEq] at h
              obtain ⟨-, rfl, rfl⟩ := h
              exact ⟨hb, splitAtLast_eq_none_iff.mp hl⟩
          | false => simp [hb] at h

theorem splitAtLast_append_right {p : α → Bool} {a : α} {l before after : List α}
    (h : splitAtLast p l = some (before, a, after)) (m : List α) :
    splitAtLast p (m ++ l) = some (m ++ before, a, after) := by
  obtain ⟨ha, hafter⟩ := after_of_splitAtLast h
  rw [append_of_splitAtLast h, ← List.append_assoc, splitAtLast_append ha hafter]

theorem splitAtLast_map {p : α → Bool} {q : β → Bool} {f : α → β} (h : ∀ a, q (f a) = p a) :
    ∀ l : List α, splitAtLast q (l.map f) =
      (splitAtLast p l).map (fun parts => (parts.1.map f, f parts.2.1, parts.2.2.map f)) := by
  intro l
  induction l with
  | nil => rfl
  | cons a l ih =>
      rw [List.map_cons, splitAtLast, ih, splitAtLast]
      cases splitAtLast p l with
      | some parts => rfl
      | none =>
          rw [Option.map_none, h]
          cases p a <;> rfl

theorem getLast?_of_cons {a b : α} {l : List α} (hne : a ≠ b) (h : (a :: l).getLast? = some b) :
    l.getLast? = some b := by
  rw [List.getLast?_cons] at h
  cases hl : l.getLast? with
  | none =>
      rw [hl] at h
      exact absurd (Option.some.inj h) hne
  | some c =>
      rw [hl] at h
      exact h

theorem getLast?_filter_cons (p : α → Bool) (a : α) (l : List α) :
    ((a :: l).filter p).getLast? = (l.filter p).getLast?.or (if p a then some a else none) := by
  rw [List.filter_cons]
  split
  · rw [List.getLast?_cons]
    cases (l.filter p).getLast? <;> rfl
  · rw [Option.or_none]

theorem filter_flatMap_of_nodup [DecidableEq γ] {f : α → List β} {key : β → γ} {label : α → γ}
    (hkey : ∀ a, ∀ b ∈ f a, key b = label a) :
    ∀ {l : List α} {a : α}, (l.map label).Nodup → a ∈ l →
      (l.flatMap f).filter (key · = label a) = f a := by
  have hself : ∀ a, (f a).filter (key · = label a) = f a := fun a =>
    List.filter_eq_self.mpr fun b hb => decide_eq_true (hkey a b hb)
  have hother : ∀ a c, label c ≠ label a → (f c).filter (key · = label a) = [] := fun a c hne =>
    List.filter_eq_nil_iff.mpr fun b hb => by simp [hkey c b hb, hne]
  intro l a
  induction l with
  | nil => intro _ h; cases h
  | cons c l ih =>
      intro hn h
      obtain ⟨hc, hl⟩ := List.nodup_cons.mp hn
      have hne : ∀ d ∈ l, label d ≠ label c := fun d hd heq =>
        hc (List.mem_map.mpr ⟨d, hd, heq⟩)
      rw [List.flatMap_cons, List.filter_append]
      rcases List.mem_cons.mp h with rfl | h
      · have hrest : (l.flatMap f).filter (key · = label a) = [] := by
          rw [List.filter_flatMap, List.flatMap_eq_nil_iff]
          exact fun d hd => hother a d (hne d hd)
        rw [hself, hrest, List.append_nil]
      · rw [hother a c (hne a h).symm, List.nil_append, ih hl h]

theorem mem_zipIdx_iff_append {a : α} {n : Nat} :
    ∀ {l : List α} {k : Nat}, (a, n) ∈ l.zipIdx k ↔
      ∃ before after, l = before ++ a :: after ∧ n = k + before.length := by
  intro l
  induction l with
  | nil => intro k; simp
  | cons b l ih =>
      intro k
      rw [List.zipIdx_cons, List.mem_cons, ih, Prod.mk.injEq]
      constructor
      · rintro (⟨rfl, rfl⟩ | ⟨before, after, rfl, rfl⟩)
        · exact ⟨[], l, rfl, rfl⟩
        · exact ⟨b :: before, after, rfl, by rw [List.length_cons]; omega⟩
      · rintro ⟨before, after, hl, rfl⟩
        cases before with
        | nil =>
            obtain ⟨rfl, rfl⟩ := List.cons.inj hl
            exact Or.inl ⟨rfl, rfl⟩
        | cons c before =>
            obtain ⟨rfl, rfl⟩ := List.cons.inj hl
            exact Or.inr ⟨before, after, rfl, by rw [List.length_cons]; omega⟩

theorem exists_lt_mem_zipIdx_iff {before after : List α} {a b : α} {k : Nat} :
    (∃ n < k + before.length, (b, n) ∈ (before ++ a :: after).zipIdx k) ↔ b ∈ before := by
  constructor
  · rintro ⟨n, hn, hmem⟩
    obtain ⟨hk, hb⟩ := List.mk_mem_zipIdx_iff_le_and_getElem?_sub.mp hmem
    rw [List.getElem?_append_left (by omega)] at hb
    exact List.mem_of_getElem? hb
  · intro hb
    obtain ⟨i, hi⟩ := List.mem_iff_getElem?.mp hb
    obtain ⟨hlt, -⟩ := List.getElem?_eq_some_iff.mp hi
    refine ⟨k + i, by omega, List.mk_mem_zipIdx_iff_le_and_getElem?_sub.mpr ⟨by omega, ?_⟩⟩
    rwa [Nat.add_sub_cancel_left, List.getElem?_append_left hlt]

theorem mem_zip_iff_of_nodup {l : List α} {ns : List β} {a : α} {b : β} {k m : Nat}
    (hn : ns.Nodup) (hb : (b, m) ∈ ns.zipIdx k) : (a, b) ∈ l.zip ns ↔ (a, m) ∈ l.zipIdx k := by
  rw [List.mk_mem_zipIdx_iff_le_and_getElem?_sub] at hb ⊢
  simp only [List.mem_iff_getElem?, List.getElem?_zip_eq_some]
  constructor
  · rintro ⟨i, ha, hi⟩
    obtain ⟨hlt, -⟩ := List.getElem?_eq_some_iff.mp hi
    obtain rfl : i = m - k := (List.getElem?_inj hlt hn).mp (hi.trans hb.2.symm)
    exact ⟨hb.1, ha⟩
  · rintro ⟨-, ha⟩
    exact ⟨m - k, ha, hb.2⟩

theorem exists_mem_zipIdx_of_length_eq {l : List α} {ns : List β} (h : ns.length = l.length) {a : α}
    {k m : Nat} (ha : (a, m) ∈ l.zipIdx k) : ∃ b, (b, m) ∈ ns.zipIdx k := by
  simp only [List.mk_mem_zipIdx_iff_le_and_getElem?_sub, List.getElem?_eq_some_iff] at ha ⊢
  obtain ⟨hk, hlt, -⟩ := ha
  exact ⟨ns[m - k], hk, by omega, rfl⟩

theorem length_le_one_of_nodup {l : List α} (hn : l.Nodup) (h : ∀ a ∈ l, ∀ b ∈ l, a = b) :
    l.length ≤ 1 := by
  match l with
  | [] => simp
  | [_] => simp
  | a :: b :: rest =>
      have hab := h a List.mem_cons_self b (List.mem_cons_of_mem _ List.mem_cons_self)
      simp [hab] at hn

variable [DecidableEq α]

theorem distinct_of_nodup : ∀ {l : List α}, l.Nodup → distinct l = l := by
  intro l
  induction l with
  | nil => intro _; rfl
  | cons a l ih =>
      intro h
      obtain ⟨ha, hl⟩ := List.nodup_cons.mp h
      rw [distinct, ih hl, List.filter_eq_self.mpr]
      intro b hb
      exact decide_eq_true (fun hba => ha (hba ▸ hb))

theorem filter_distinct (p : α → Bool) :
    ∀ l : List α, (distinct l).filter p = distinct (l.filter p) := by
  intro l
  induction l with
  | nil => rfl
  | cons a l ih =>
      rw [distinct]
      cases ha : p a with
      | true =>
          rw [List.filter_cons_of_pos ha, List.filter_cons_of_pos ha, distinct, ← ih,
            List.filter_filter, List.filter_filter]
          simp only [Bool.and_comm]
      | false =>
          -- what is left out as a repetition of `a` fails the test as well
          have hne : ∀ b ∈ distinct l, (p b && decide (b ≠ a)) = p b := by
            intro b _
            by_cases hb : b = a
            · simp [hb, ha]
            · simp [hb]
          rw [List.filter_cons_of_neg (by simp [ha]), List.filter_cons_of_neg (by simp [ha]),
            List.filter_filter, List.filter_congr hne, ih]

theorem distinct_distinct_append (l m : List α) : distinct (distinct l ++ m) = distinct (l ++ m) := by
  induction l with
  | nil => rfl
  | cons a l ih =>
      have hrest : ((distinct l).filter (· ≠ a) ++ m).filter (· ≠ a) =
          (distinct l ++ m).filter (· ≠ a) := by
        simp only [List.filter_append, List.filter_filter, Bool.and_self]
      rw [distinct, List.cons_append, distinct, filter_distinct, hrest, ← filter_distinct, ih,
        List.cons_append, distinct]

theorem distinct_append (l m : List α) :
    distinct (l ++ m) = distinct l ++ (distinct m).filter (· ∉ l) := by
  induction l with
  | nil => exact (List.filter_eq_self.mpr (fun _ _ => decide_eq_true List.not_mem_nil)).symm
  | cons a l ih =>
      have hrest : ((distinct m).filter (· ∉ l)).filter (· ≠ a) =
          (distinct m).filter (· ∉ a :: l) := by
        rw [List.filter_filter]
        refine List.filter_congr (fun b _ => ?_)
        simp
      rw [List.cons_append, distinct, ih, List.filter_append, hrest, distinct, List.cons_append]

theorem distinct_append_of_subset {l m : List α} (h : m ⊆ l) : distinct (l ++ m) = distinct l := by
  have hnone : (distinct m).filter (· ∉ l) = [] := by
    rw [List.filter_eq_nil_iff]
    intro a ha
    simpa using h (mem_distinct.mp ha)
  rw [distinct_append, hnone, List.append_nil]

def Recurs (seen l : List α) (a : α) : Prop := (if a ∈ seen then 1 else 2) ≤ l.count a

theorem not_recurs_nil (seen : List α) (a : α) : ¬ Recurs seen [] a := by
  rw [Recurs, List.count_nil]
  split <;> omega

theorem recurs_cons {seen l : List α} {a b : α} :
    Recurs seen (b :: l) a ↔ (b ∈ seen ∧ a = b) ∨ Recurs (b :: seen) l a := by
  by_cases hab : a = b
  · subst hab
    by_cases ha : a ∈ seen <;> simp [Recurs, ha]
  · simp [Recurs, hab, List.count_cons_of_ne (Ne.symm hab)]

theorem recurs_cons_of_mem {seen l : List α} {a b : α} (hb : b ∈ seen) :
    Recurs (b :: seen) l a ↔ Recurs seen l a := by
  have hmem : a ∈ b :: seen ↔ a ∈ seen := by
    rw [List.mem_cons, or_iff_right_of_imp]
    rintro rfl
    exact hb
  simp only [Recurs, hmem]

theorem recurs_nil_iff {l : List α} {a : α} : Recurs [] l a ↔ 2 ≤ l.count a := by
  rw [Recurs, if_neg List.not_mem_nil]

theorem nodup_of_not_recurs {l : List α} (h : ∀ a, ¬ Recurs [] l a) : l.Nodup := by
  rw [List.nodup_iff_count]
  intro a
  have ha := mt recurs_nil_iff.mpr (h a)
  omega

def firsts (key : β → α) (seen : List α) : List β → List β
  | [] => []
  | b :: l => if key b ∈ seen then firsts key seen l else b :: firsts key (key b :: seen) l

theorem firsts_eq_filterMap (key : β → α) :
    ∀ (l : List β) (seen : List α), firsts key seen l =
      ((distinct (l.map key)).filter (· ∉ seen)).filterMap (fun k => l.find? (key · = k)) := by
  intro l
  induction l with
  | nil => intro seen; rfl
  | cons b l ih =>
      intro seen
      -- past its first member a list is searched for the other keys only
      have hrest : ∀ ks : List α,
          (ks.filter (· ≠ key b)).filterMap (fun k => (b :: l).find? (key · = k)) =
            (ks.filter (· ≠ key b)).filterMap (fun k => l.find? (key · = k)) := by
        intro ks
        rw [List.filterMap_filter, List.filterMap_filter]
        refine congrArg (List.filterMap · ks) (funext fun k => ?_)
        by_cases hk : k = key b
        · simp [hk]
        · simp [hk, Ne.symm hk]
      have hcomm : ((distinct (l.map key)).filter (· ≠ key b)).filter (· ∉ seen) =
          ((distinct (l.map key)).filter (· ∉ seen)).filter (· ≠ key b) := by
        simp only [List.filter_filter, Bool.and_comm]
      rw [firsts, List.map_cons, distinct, List.filter_cons, hcomm]
      by_cases hb : key b ∈ seen
      · have hsame : ((distinct (l.map key)).filter (· ∉ seen)).filter (· ≠ key b) =
            (distinct (l.map key)).filter (· ∉ seen) := by
          refine List.filter_eq_self.mpr (fun k hk => decide_eq_true ?_)
          rintro rfl
          exact of_decide_eq_true (List.mem_filter.mp hk).2 hb
        rw [if_pos hb, if_neg (by simp [hb]), hrest, hsame, ih]
      · have hseen : ((distinct (l.map key)).filter (· ∉ seen)).filter (· ≠ key b) =
            (distinct (l.map key)).filter (· ∉ key b :: seen) := by
          rw [List.filter_filter]
          refine List.filter_congr (fun k _ => ?_)
          simp
        rw [if_neg hb, if_pos (by simp [hb]), List.filterMap_cons_some (b := b) (by simp), hrest,
          hseen, ih]

theorem mem_firsts {key : β → α} {l : List β} {b : β} :
    b ∈ firsts key [] l ↔ l.find? (key · = key b) = some b := by
  rw [firsts_eq_filterMap, List.mem_filterMap]
  constructor
  · rintro ⟨k, -, hfind⟩
    have hk : key b = k := by simpa using List.find?_some hfind
    rw [hk]
    exact hfind
  · intro hfind
    refine ⟨key b, ?_, hfind⟩
    have hmem : key b ∈ l.map key := List.mem_map_of_mem (List.mem_of_find?_eq_some hfind)
    simpa [mem_distinct] using hmem

theorem repeats_eq_nil_iff :
    ∀ {l seen : List α}, repeats seen l = [] ↔ l.Nodup ∧ ∀ a ∈ l, a ∉ seen := by
  intro l
  induction l with
  | nil => intro seen; simp [repeats]
  | cons a l ih =>
      intro seen
      by_cases ha : a ∈ seen
      · simp [repeats, ha]
      · simp only [repeats, ha, if_false, ih, List.nodup_cons, List.mem_cons, not_or]
        constructor
        · rintro ⟨hn, h⟩
          refine ⟨⟨fun hm => (h a hm).1 rfl, hn⟩, ?_⟩
          rintro b (rfl | hb)
          · exact ha
          · exact (h b hb).2
        · rintro ⟨⟨hal, hn⟩, h⟩
          exact ⟨hn, fun b hb => ⟨fun hba => hal (hba ▸ hb), h b (Or.inr hb)⟩⟩

theorem repeats_ne_nil_iff {l : List α} : repeats [] l ≠ [] ↔ ¬ l.Nodup := by
  simp [repeats_eq_nil_iff]

theorem exists_mem_repeats_iff {l : List α} : (∃ a, a ∈ repeats [] l) ↔ ¬ l.Nodup := by
  rw [← repeats_ne_nil_iff]
  exact ⟨fun ⟨_, ha⟩ => List.ne_nil_of_mem ha, List.exists_mem_of_ne_nil _⟩

theorem exists_head?_repeats_iff {l : List α} :
    (∃ a, (repeats [] l).head? = some a) ↔ ¬ l.Nodup := by
  rw [← Option.isSome_iff_exists, List.isSome_head?, repeats_ne_nil_iff]

end Worksheet
