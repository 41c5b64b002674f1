import Mathlib.Data.List.Infix
import Worksheet.Proofs.Text.Trim

namespace Worksheet

inductive Pattern where
  | lineStart
  | lineEnd
  | one (p : Char → Bool)
  | many (p : Char → Bool)
  | few (p : Char → Bool)
  | optional (q : Pattern)
  | group (q : Pattern)
  | next (q r : Pattern)

structure Way where
  taken : List Char
  groups : List (List Char)
  rest : List Char

structure Cut where
  found : List Way
  left : List Char

namespace Pattern

def StartsLine (before : Option Char) : Prop := before = none ∨ before = some '\n'

instance (before : Option Char) : Decidable (StartsLine before) :=
  inferInstanceAs (Decidable (before = none ∨ before = some '\n'))

def stretches (p : Char → Bool) (cs : List Char) : List Way :=
  (cs.takeWhile p).inits.map (fun taken => ⟨taken, [], cs.drop taken.length⟩)

def ways : Pattern → (before : Option Char) → (cs : List Char) → List Way
  | lineStart, before, cs => if StartsLine before then [⟨[], [], cs⟩] else []
  | lineEnd, _, cs => if StartsLine cs.head? then [⟨[], [], cs⟩] else []
  | one _, _, [] => []
  | one p, _, c :: cs => if p c then [⟨[c], [], cs⟩] else []
  | many p, _, cs => (stretches p cs).reverse
  | few p, _, cs => stretches p cs
  | optional q, before, cs => q.ways before cs ++ [⟨[], [], cs⟩]
  | group q, before, cs => (q.ways before cs).map (fun w => ⟨w.taken, w.taken :: w.groups, w.rest⟩)
  | next q r, before, cs =>
      (q.ways before cs).flatMap (fun w =>
        (r.ways (w.taken.getLast?.or before) w.rest).map (fun v =>
          ⟨w.taken ++ v.taken, w.groups ++ v.groups, v.rest⟩))

def cutFrom (q : Pattern) : (before : Option Char) → (skip : Nat) → List Char → Cut
  | _, _, [] => ⟨[], []⟩
  | _, skip + 1, c :: cs => q.cutFrom (some c) skip cs
  | before, 0, c :: cs =>
      match (q.ways before (c :: cs)).find? (·.taken ≠ []) with
      | some w =>
          let cut := q.cutFrom (some c) (w.taken.length - 1) cs
          ⟨w :: cut.found, cut.left⟩
      | none =>
          let cut := q.cutFrom (some c) 0 cs
          ⟨cut.found, c :: cut.left⟩

def cut (q : Pattern) (cs : List Char) : Cut := q.cutFrom none 0 cs

variable {p : Char → Bool} {q r : Pattern} {before : Option Char} {cs : List Char} {w : Way}

theorem mem_stretches :
    w ∈ stretches p cs ↔ ∃ s t, cs = s ++ t ∧ (∀ c ∈ s, p c = true) ∧ w = ⟨s, [], t⟩ := by
  rw [stretches, List.mem_map]
  constructor
  · rintro ⟨s, hs, rfl⟩
    have hbegins := (List.mem_inits s _).mp hs
    obtain ⟨t, rfl⟩ := hbegins.trans (List.takeWhile_prefix p)
    refine ⟨s, t, rfl, fun c hc => Chars.mem_takeWhile (hbegins.subset hc), ?_⟩
    rw [List.drop_left]
  · rintro ⟨s, t, rfl, hs, rfl⟩
    refine ⟨s, (List.mem_inits s _).mpr ?_, ?_⟩
    · rw [List.takeWhile_append_of_pos hs]
      exact List.prefix_append s _
    · rw [List.drop_left]

theorem ways_lineStart :
    lineStart.ways before cs = if StartsLine before then [⟨[], [], cs⟩] else [] := rfl

theorem ways_lineEnd :
    lineEnd.ways before cs = if StartsLine cs.head? then [⟨[], [], cs⟩] else [] := rfl

theorem ways_one_nil : (one p).ways before [] = [] := rfl

theorem ways_one_cons (c : Char) :
    (one p).ways before (c :: cs) = if p c then [⟨[c], [], cs⟩] else [] := rfl

theorem ways_many : (many p).ways before cs = (stretches p cs).reverse := rfl

theorem ways_few : (few p).ways before cs = stretches p cs := rfl

theorem ways_optional : (optional q).ways before cs = q.ways before cs ++ [⟨[], [], cs⟩] := rfl

theorem ways_group :
    (group q).ways before cs =
      (q.ways before cs).map (fun w => ⟨w.taken, w.taken :: w.groups, w.rest⟩) := rfl

theorem ways_next :
    (next q r).ways before cs =
      (q.ways before cs).flatMap (fun w =>
        (r.ways (w.taken.getLast?.or before) w.rest).map (fun v =>
          ⟨w.taken ++ v.taken, w.groups ++ v.groups, v.rest⟩)) := rfl

theorem mem_ways_many_next :
    w ∈ (next (many p) r).ways before cs ↔
      ∃ s t, cs = s ++ t ∧ (∀ c ∈ s, p c = true) ∧
        ∃ v ∈ r.ways (s.getLast?.or before) t, w = ⟨s ++ v.taken, v.groups, v.rest⟩ := by
  simp only [ways_next, ways_many, List.mem_flatMap, List.mem_reverse, List.mem_map, mem_stretches]
  constructor
  · rintro ⟨_, ⟨s, t, hcs, hs, rfl⟩, v, hv, rfl⟩
    exact ⟨s, t, hcs, hs, v, hv, rfl⟩
  · rintro ⟨s, t, hcs, hs, v, hv, rfl⟩
    exact ⟨_, ⟨s, t, hcs, hs, rfl⟩, v, hv, rfl⟩

theorem mem_ways_group_few_next :
    w ∈ (next (group (few p)) r).ways before cs ↔
      ∃ s t, cs = s ++ t ∧ (∀ c ∈ s, p c = true) ∧
        ∃ v ∈ r.ways (s.getLast?.or before) t, w = ⟨s ++ v.taken, s :: v.groups, v.rest⟩ := by
  simp only [ways_next, ways_group, ways_few, List.mem_flatMap, List.mem_map, mem_stretches]
  constructor
  · rintro ⟨_, ⟨_, ⟨s, t, hcs, hs, rfl⟩, rfl⟩, v, hv, rfl⟩
    exact ⟨s, t, hcs, hs, v, hv, rfl⟩
  · rintro ⟨s, t, hcs, hs, v, hv, rfl⟩
    exact ⟨_, ⟨_, ⟨s, t, hcs, hs, rfl⟩, rfl⟩, v, hv, rfl⟩

theorem mem_ways_one_next :
    w ∈ (next (one p) r).ways before cs ↔
      ∃ c t, cs = c :: t ∧ p c = true ∧
        ∃ v ∈ r.ways (some c) t, w = ⟨c :: v.taken, v.groups, v.rest⟩ := by
  cases cs with
  | nil => simp [ways_next, ways_one_nil]
  | cons d cs =>
      constructor
      · intro h
        by_cases hd : p d = true
        · simp only [ways_next, ways_one_cons, hd, if_true, List.flatMap_singleton,
            List.mem_map] at h
          obtain ⟨v, hv, rfl⟩ := h
          exact ⟨d, cs, rfl, hd, v, hv, rfl⟩
        · simp [ways_next, ways_one_cons, hd] at h
      · rintro ⟨c, t, heq, hc, v, hv, rfl⟩
        obtain ⟨rfl, rfl⟩ := List.cons.inj heq
        simp only [ways_next, ways_one_cons, hc, if_true, List.flatMap_singleton, List.mem_map]
        exact ⟨v, hv, rfl⟩

theorem mem_ways_optional_next :
    w ∈ (next (optional q) r).ways before cs ↔
      w ∈ (next q r).ways before cs ∨ w ∈ r.ways before cs := by
  simp [ways_next, ways_optional]

theorem mem_ways_next_next {q' : Pattern} :
    w ∈ (next (next q q') r).ways before cs ↔ w ∈ (next q (next q' r)).ways before cs := by
  simp only [ways_next, List.mem_flatMap, List.mem_map]
  constructor
  · rintro ⟨_, ⟨u, hu, v, hv, rfl⟩, x, hx, rfl⟩
    rw [List.getLast?_append, Option.or_assoc] at hx
    refine ⟨u, hu, _, ⟨v, hv, x, hx, rfl⟩, ?_⟩
    rw [List.append_assoc, List.append_assoc]
  · rintro ⟨u, hu, _, ⟨v, hv, x, hx, rfl⟩, rfl⟩
    refine ⟨_, ⟨u, hu, v, hv, rfl⟩, x, ?_, ?_⟩
    · rwa [List.getLast?_append, Option.or_assoc]
    · rw [List.append_assoc, List.append_assoc]

theorem mem_ways_lineStart_next :
    w ∈ (next lineStart r).ways before cs ↔ StartsLine before ∧ w ∈ r.ways before cs := by
  by_cases h : StartsLine before <;> simp [ways_next, ways_lineStart, h]

theorem mem_ways_lineEnd :
    w ∈ lineEnd.ways before cs ↔ StartsLine cs.head? ∧ w = ⟨[], [], cs⟩ := by
  by_cases h : StartsLine cs.head? <;> simp [ways_lineEnd, h]

theorem getLast?_cons_or (c : Char) (s : List Char) (before : Option Char) :
    (c :: s).getLast?.or before = s.getLast?.or (some c) := by
  rw [List.getLast?_cons]
  cases s.getLast? <;> rfl

theorem cutFrom_append_length (s t : List Char) :
    q.cutFrom before s.length (s ++ t) = q.cutFrom (s.getLast?.or before) 0 t := by
  induction s generalizing before with
  | nil => rfl
  | cons c s ih => rw [List.length_cons, List.cons_append, cutFrom, ih, getLast?_cons_or]

theorem cutFrom_of_find? (h : (q.ways before cs).find? (·.taken ≠ []) = some w)
    (hcs : cs = w.taken ++ w.rest) :
    q.cutFrom before 0 cs =
      ⟨w :: (q.cutFrom (w.taken.getLast?.or before) 0 w.rest).found,
        (q.cutFrom (w.taken.getLast?.or before) 0 w.rest).left⟩ := by
  have hne : w.taken ≠ [] := by simpa using List.find?_some h
  obtain ⟨c, s, hs⟩ := List.exists_cons_of_ne_nil hne
  rw [hs, List.cons_append] at hcs
  subst hcs
  rw [cutFrom, h]
  simp only [hs, List.length_cons, Nat.add_sub_cancel, cutFrom_append_length, getLast?_cons_or]

theorem cutFrom_of_ways_eq_nil {c : Char} (h : q.ways before (c :: cs) = []) :
    q.cutFrom before 0 (c :: cs) =
      ⟨(q.cutFrom (some c) 0 cs).found, c :: (q.cutFrom (some c) 0 cs).left⟩ := by
  rw [cutFrom, h]
  rfl

theorem cutFrom_append_of_not_startsLine
    (hq : ∀ before cs, ¬ StartsLine before → q.ways before cs = []) {s : List Char}
    (hs : '\n' ∉ s) (hb : ¬ StartsLine before) (t : List Char) :
    q.cutFrom before 0 (s ++ t) =
      ⟨(q.cutFrom (s.getLast?.or before) 0 t).found,
        s ++ (q.cutFrom (s.getLast?.or before) 0 t).left⟩ := by
  induction s generalizing before with
  | nil => rfl
  | cons c s ih =>
      rw [List.mem_cons, not_or] at hs
      have hc : ¬ StartsLine (some c) := by
        simpa [StartsLine] using Ne.symm hs.1
      rw [List.cons_append, cutFrom_of_ways_eq_nil (hq before _ hb), ih hs.2 hc, getLast?_cons_or,
        List.cons_append]

end Pattern

end Worksheet
