import Worksheet.Proofs.Text.Trim
import Worksheet.Text.Blocks

namespace Worksheet

namespace Chars

def bracketStep (c : Char) : Int :=
  if c ∈ ['(', '[', '\x7b'] then 1 else if c ∈ [')', ']', '\x7d'] then -1 else 0

def nesting (cs : List Char) : Int := cs.foldl (fun n c => max 0 (n + bracketStep c)) 0

def cuts (separator : Char) (cs : List Char) : List Nat :=
  (List.range cs.length).filter (fun i => cs[i]? = some separator ∧ nesting (cs.take (i + 1)) = 0)

theorem cast_depthAfter (depth : Nat) (c : Char) :
    (depthAfter depth c : Int) = max 0 (depth + bracketStep c) := by
  simp only [depthAfter, bracketStep, List.mem_cons, List.not_mem_nil, or_false]
  split
  · omega
  · split <;> omega

theorem nesting_eq (cs : List Char) : nesting cs = (cs.foldl depthAfter 0 : Nat) := by
  have hstep : ∀ (depth : Nat) (c : Char),
      max 0 ((depth : Int) + bracketStep c) = (depthAfter depth c : Int) :=
    fun depth c => (cast_depthAfter depth c).symm
  exact List.foldl_hom (fun depth : Nat => (depth : Int)) hstep

theorem map_fst_withDepth (depth : Nat) (cs : List Char) : (withDepth depth cs).map Prod.fst = cs := by
  induction cs generalizing depth with
  | nil => rfl
  | cons c cs ih => rw [withDepth, List.map_cons, ih]

theorem withDepth_append (depth : Nat) (s t : List Char) :
    withDepth depth (s ++ t) = withDepth depth s ++ withDepth (s.foldl depthAfter depth) t := by
  induction s generalizing depth with
  | nil => rfl
  | cons c s ih => rw [List.cons_append, withDepth, ih, withDepth, List.cons_append, List.foldl_cons]

theorem getElem?_withDepth (depth : Nat) (cs : List Char) (i : Nat) :
    (withDepth depth cs)[i]? =
      cs[i]?.map (fun c => (c, (cs.take (i + 1)).foldl depthAfter depth)) := by
  induction cs generalizing depth i with
  | nil => rfl
  | cons c cs ih =>
      cases i with
      | zero => rfl
      | succ i =>
          rw [withDepth, List.getElem?_cons_succ, ih]
          rfl

theorem depthAfter_of_isBlank {c : Char} (hc : isBlank c = true) (depth : Nat) :
    depthAfter depth c = depth := by
  rw [depthAfter, if_neg, if_neg]
  · rintro (rfl | rfl | rfl) <;> exact absurd hc (by decide)
  · rintro (rfl | rfl | rfl) <;> exact absurd hc (by decide)

theorem foldl_depthAfter_of_blank {s : List Char} (h : ∀ c ∈ s, isBlank c = true) (depth : Nat) :
    s.foldl depthAfter depth = depth := by
  induction s with
  | nil => rfl
  | cons c s ih =>
      rw [List.foldl_cons, depthAfter_of_isBlank (h c List.mem_cons_self),
        ih (fun d hd => h d (List.mem_cons_of_mem c hd))]

def isCut (isSeparator : Char → Bool) (e : Char × Nat) : Bool := isSeparator e.1 && e.2 == 0

def Uncut (isSeparator : Char → Bool) (s : List Char) : Prop :=
  ∀ e ∈ withDepth 0 s, isCut isSeparator e = false

def Closes (s : List Char) (c : Char) : Prop := depthAfter (s.foldl depthAfter 0) c = 0

variable {isSeparator : Char → Bool} {s : List Char} {c : Char}

theorem splitBlocks_def (cs : List Char) :
    splitBlocks isSeparator cs = ((pieces (isCut isSeparator) (withDepth 0 cs)).map
      (fun piece => String.ofList (trim (piece.map Prod.fst)))).filter (· ≠ "") := rfl

theorem places_withDepth (separator : Char) (cs : List Char) :
    places (isCut ([separator] == [·])) (withDepth 0 cs) = cuts separator cs := by
  have hlength : (withDepth 0 cs).length = cs.length := by
    rw [← List.length_map (f := Prod.fst), map_fst_withDepth]
  rw [places, cuts, hlength]
  refine List.filter_congr (fun i _ => ?_)
  rw [getElem?_withDepth, nesting_eq]
  cases cs[i]? with
  | none => simp
  | some c => simp [isCut, Bool.beq_eq_decide_eq, eq_comm]

theorem splitBlocks_eq (separator : Char) (cs : List Char) :
    splitBlocks ([separator] == [·]) cs =
      ((stretches cs (cuts separator cs)).map (fun s => String.ofList (trim s))).filter (· ≠ "") := by
  have hplain : stretches cs (cuts separator cs) =
      (stretches (withDepth 0 cs) (cuts separator cs)).map (List.map Prod.fst) := by
    rw [← stretches_map, map_fst_withDepth]
  rw [splitBlocks_def, pieces_eq_stretches, places_withDepth, hplain, List.map_map]
  rfl

theorem splitBlocks_of_uncut (h : Uncut isSeparator s) :
    splitBlocks isSeparator s = if trim s = [] then [] else [String.ofList (trim s)] := by
  rw [splitBlocks_def, pieces_of_forall_not h, List.map_singleton, map_fst_withDepth]
  simp [List.filter_cons, String.ofList_eq_empty_iff]

theorem splitBlocks_append_cons (hc : isSeparator c = true) (h : Closes s c) (t : List Char) :
    splitBlocks isSeparator (s ++ c :: t) =
      splitBlocks isSeparator s ++ splitBlocks isSeparator t := by
  have hcut : isCut isSeparator (c, 0) = true := by simp [isCut, hc]
  rw [splitBlocks_def, withDepth_append, withDepth, show depthAfter _ c = 0 from h,
    pieces_append_of_pos hcut, List.map_append, List.filter_append, splitBlocks_def, splitBlocks_def]

theorem exists_of_withDepth_eq_append {depth : Nat} {cs : List Char} {l rest : List (Char × Nat)}
    {e : Char × Nat} (h : withDepth depth cs = l ++ e :: rest) :
    ∃ s c t, cs = s ++ c :: t ∧ withDepth depth s = l ∧
      e = (c, depthAfter (s.foldl depthAfter depth) c) ∧ withDepth e.2 t = rest := by
  induction l generalizing depth cs with
  | nil =>
      cases cs with
      | nil => cases h
      | cons c cs =>
          obtain ⟨rfl, hrest⟩ := List.cons.inj h
          exact ⟨[], c, cs, rfl, rfl, rfl, hrest⟩
  | cons first l ih =>
      cases cs with
      | nil => cases h
      | cons d cs =>
          obtain ⟨rfl, hl⟩ := List.cons.inj h
          obtain ⟨s, c, t, rfl, rfl, he, hrest⟩ := ih hl
          exact ⟨d :: s, c, t, rfl, rfl, he, hrest⟩

theorem induction_on_blocks (isSeparator : Char → Bool) {motive : List Char → Prop}
    (last : ∀ s, Uncut isSeparator s → motive s)
    (cons : ∀ s c t, Uncut isSeparator s → isSeparator c = true → Closes s c → motive t →
      motive (s ++ c :: t)) (cs : List Char) : motive cs := by
  have hrun : ∀ l cs, withDepth 0 cs = l → motive cs := by
    intro l
    induction l using induction_on_cut (isCut isSeparator) with
    | last l hl =>
        rintro cs rfl
        exact last cs hl
    | cons l e rest hl he ih =>
        intro cs hcs
        obtain ⟨s, c, t, rfl, rfl, rfl, hrest⟩ := exists_of_withDepth_eq_append hcs
        rw [isCut, Bool.and_eq_true, beq_iff_eq] at he
        -- the separator stands at depth zero, so what follows it is read as a text of its own
        exact cons s c t hl he.1 he.2 (ih t (he.2 ▸ hrest))
  exact hrun _ cs rfl

theorem foldl_depthAfter_trim (s : List Char) :
    (trim s).foldl depthAfter 0 = s.foldl depthAfter 0 := by
  obtain ⟨lead, trail, hs, hl, ht⟩ := exists_margins s
  conv => rhs; rw [hs, List.foldl_append, foldl_depthAfter_of_blank hl, List.foldl_append,
    foldl_depthAfter_of_blank ht]

theorem withDepth_trim_subset (s : List Char) : withDepth 0 (trim s) ⊆ withDepth 0 s := by
  obtain ⟨lead, trail, hs, hl, ht⟩ := exists_margins s
  conv => rhs; rw [hs, withDepth_append, foldl_depthAfter_of_blank hl, withDepth_append]
  exact List.subset_append_of_subset_right _ (List.subset_append_left _ _)

theorem Uncut.trim (h : Uncut isSeparator s) : Uncut isSeparator (Chars.trim s) :=
  fun e he => h e (withDepth_trim_subset s he)

theorem Closes.trim (h : Closes s c) : Closes (Chars.trim s) c := by
  rwa [Closes, foldl_depthAfter_trim]

theorem splitBlocks_trim (h : Uncut isSeparator s) :
    splitBlocks isSeparator (trim s) = splitBlocks isSeparator s := by
  rw [splitBlocks_of_uncut h.trim, trim_trim, splitBlocks_of_uncut h]

def joinBlocks (separator : List Char) (blocks : List String) : List Char :=
  separator.intercalate (blocks.map String.toList)

theorem joinBlocks_singleton (separator : List Char) (block : String) :
    joinBlocks separator [block] = block.toList := by
  rw [joinBlocks, List.map_singleton, List.intercalate_singleton]

theorem joinBlocks_cons {blocks : List String} (h : blocks ≠ []) (c : Char) (block : String) :
    joinBlocks [c] (block :: blocks) = block.toList ++ c :: joinBlocks [c] blocks := by
  obtain ⟨next, rest, rfl⟩ := List.exists_cons_of_ne_nil h
  rw [joinBlocks, List.map_cons, List.map_cons, List.intercalate_cons_cons, List.append_assoc,
    List.singleton_append, joinBlocks, List.map_cons]

theorem splitBlocks_joinBlocks_of_uncut {separator : List Char} (h : Uncut (separator == [·]) s) :
    splitBlocks (separator == [·]) (joinBlocks separator (splitBlocks (separator == [·]) s)) =
      splitBlocks (separator == [·]) s := by
  by_cases hblank : trim s = []
  · rw [splitBlocks_of_uncut h, if_pos hblank]
    rfl
  · conv => lhs; rw [splitBlocks_of_uncut h, if_neg hblank, joinBlocks_singleton, String.toList_ofList,
      splitBlocks_trim h]

theorem splitBlocks_joinBlocks (separator cs : List Char) :
    splitBlocks (separator == [·]) (joinBlocks separator (splitBlocks (separator == [·]) cs)) =
      splitBlocks (separator == [·]) cs := by
  induction cs using induction_on_blocks (separator == [·]) with
  | last s hs => exact splitBlocks_joinBlocks_of_uncut hs
  | cons s c t hs hc hcloses ih =>
      obtain rfl : separator = [c] := eq_of_beq hc
      have hfirst := splitBlocks_of_uncut hs
      rw [splitBlocks_append_cons hc hcloses]
      by_cases hblank : trim s = []
      · rw [hfirst, if_pos hblank, List.nil_append, ih]
      by_cases ht : splitBlocks ([c] == [·]) t = []
      · rw [ht, List.append_nil, splitBlocks_joinBlocks_of_uncut hs]
      -- the trimmed block closes where the block did, so the separator after it cuts again
      rw [if_neg hblank] at hfirst
      rw [hfirst, List.singleton_append, joinBlocks_cons ht, String.toList_ofList,
        splitBlocks_append_cons hc hcloses.trim, ih, splitBlocks_trim hs, hfirst,
        List.singleton_append]

theorem uncut_of_length_ne {separator : List Char} (h : separator.length ≠ 1) (cs : List Char) :
    Uncut (separator == [·]) cs := by
  intro e _
  have hne : separator ≠ [e.1] := fun heq => h (heq ▸ rfl)
  rw [isCut, beq_false_of_ne hne, Bool.false_and]

end Chars

namespace Text

open Chars

theorem splitBlocks_of_length_ne {separator : String} (h : separator.length ≠ 1) (source : String) :
    splitBlocks source separator = if isBlank source then [] else [trim source] := by
  have hblank : Chars.trim source.toList = [] ↔ isBlank source = true := by
    rw [trim_eq_nil_iff, isBlank, List.all_eq_true]
  rw [splitBlocks, splitBlocks_of_uncut (uncut_of_length_ne h _)]
  simp only [hblank]
  rfl

theorem blocks_split_and_joined (source : String) :
    (∀ separator : Char, splitBlocks source (String.singleton separator) =
      ((stretches source.toList (cuts separator source.toList)).map
        (fun s => String.ofList (Chars.trim s))).filter (· ≠ "")) ∧
      (∀ separator : String, separator.length ≠ 1 →
        splitBlocks source separator = if isBlank source then [] else [trim source]) ∧
      ∀ separator : String,
        splitBlocks (separator.intercalate (splitBlocks source separator)) separator =
          splitBlocks source separator := by
  refine ⟨fun separator => ?_, fun separator h => splitBlocks_of_length_ne h source,
    fun separator => ?_⟩
  · rw [splitBlocks, String.toList_singleton, splitBlocks_eq]
  · rw [splitBlocks, String.toList_intercalate]
    exact splitBlocks_joinBlocks _ _

theorem blocks_split_and_joined_hedge :
    splitBlocks "plum)); (fig; oak) ;; elm [ash; " ";" = ["plum))", "(fig; oak)", "elm [ash;"] ∧
      "; ".length ≠ 1 ∧ splitBlocks " plum; fig " "; " = ["plum; fig"] ∧
      splitBlocks " ((fig) oak) ) elm) ash" ")" = ["((fig) oak", "elm", "ash"] ∧
      splitBlocks "((fig) oak)elm)ash" ")" = ["((fig) oak", "elm", "ash"] := by
  obtain ⟨hcut, -, -⟩ := blocks_split_and_joined "plum)); (fig; oak) ;; elm [ash; "
  obtain ⟨-, hwhole, -⟩ := blocks_split_and_joined " plum; fig "
  obtain ⟨-, -, hjoined⟩ := blocks_split_and_joined " ((fig) oak) ) elm) ash"
  have hblocks : splitBlocks " ((fig) oak) ) elm) ash" ")" = ["((fig) oak", "elm", "ash"] := by
    decide +kernel
  have hagain := hjoined ")"
  rw [hblocks] at hagain
  exact ⟨(hcut ';').trans (by decide +kernel), by decide,
    (hwhole "; " (by decide)).trans (by decide +kernel), hblocks, hagain⟩

end Text

end Worksheet
