import Worksheet.Markup.DistractorLine
import Worksheet.Proofs.Markup.Plain

namespace Worksheet.Markup

open Chars

variable {cs : List Char} {line start : Nat}

theorem map_sliceText_flatTokens (cs pre post : List Char) (line : Nat) :
    (pieces (·.kind = .mark .pipe) (flatTokens line pre.length cs)).map
        (sliceText (pre ++ (cs ++ post))) =
      (pieces (· == '|') cs).map (fun item => .ofList (collapse item)) := by
  have hkind : ∀ {l : List Char} {start : Nat}, '|' ∉ l → ∀ t ∈ flatTokens line start l,
      decide (t.kind = .mark .pipe) = false :=
    fun hl _ ht => decide_eq_false (kind_ne_of_mem_flatTokens hl ht)
  have hchar : ∀ {l : List Char}, '|' ∉ l → ∀ c ∈ l, (c == '|') = false :=
    fun hl c hc => beq_false_of_ne (fun heq => hl (heq ▸ hc))
  induction cs using induction_on_pieces '|' generalizing pre with
  | last l hl =>
      rw [pieces_of_forall_not (hkind hl), pieces_of_forall_not (hchar hl), List.map_singleton,
        List.map_singleton, sliceText_flatTokens]
  | cons l rest hl ih =>
      -- what precedes the rest of the text is all of it up to the bar
      have hrest := ih (pre ++ (l ++ ['|']))
      have hmark := flatTokens_append_mark line pre.length l .pipe rest
      have hsource : pre ++ (l ++ ['|']) ++ (rest ++ post) = pre ++ (l ++ ('|' :: rest ++ post)) := by
        simp only [List.append_assoc, List.cons_append, List.nil_append]
      have hlength : (pre ++ (l ++ ['|'])).length = pre.length + l.length + 1 := by
        simp only [List.length_append, List.length_singleton, Nat.add_assoc]
      rw [hsource, hlength] at hrest
      rw [Mark.char] at hmark
      rw [hmark, pieces_append_cons (by rfl) _ (hkind hl), pieces_append_cons (by rfl) _ (hchar hl),
        List.append_assoc, List.map_cons, List.map_cons, hrest, sliceText_flatTokens]

def Enclosed (body : List Char) : Prop :=
  ∃ lead mid trail, body = lead ++ '[' :: (mid ++ ']' :: trail) ∧
    (∀ c ∈ lead, isBlank c = true) ∧ ∀ c ∈ trail, isBlank c = true

theorem flatTokens_enclosed {lead mid trail : List Char} (hl : ∀ c ∈ lead, isBlank c = true)
    (ht : ∀ c ∈ trail, isBlank c = true) (line start : Nat) :
    flatTokens line start (lead ++ '[' :: (mid ++ ']' :: trail)) =
      Mark.openBracket.token line (start + lead.length) ::
        (flatTokens line (start + lead.length + 1) mid ++
          [Mark.closeBracket.token line (start + lead.length + 1 + mid.length)]) := by
  rw [flatTokens_append_open, flatTokens_of_blank hl, flatTokens_append_close, flatTokens_of_blank ht]
  rfl

theorem isBracketed_flatTokens_iff : isBracketed (flatTokens line start cs) = true ↔ Enclosed cs := by
  constructor
  · intro h
    simp only [isBracketed, Bool.and_eq_true, decide_eq_true_eq, Option.map_eq_some_iff] at h
    obtain ⟨⟨-, first, hfirst, hopen⟩, last, hlast, hclose⟩ := h
    obtain ⟨lead, rest, hbody, hlead, -, hrest⟩ :=
      before_head_tokensFrom (uncommented_plainSegments cs).map_flat hfirst
    rw [chars_map_flat, chars_plainSegments] at hbody
    obtain ⟨rest, rfl⟩ := List.head?_eq_some_iff.mp (hrest '[' (by rw [hopen]; rfl))
    subst hbody
    rw [flatTokens_append_open, flatTokens_of_blank hlead, List.nil_append] at hlast
    -- the opening bracket is not the closing one, so the rest of the text ends in it
    have hne : Mark.openBracket.token line (start + lead.length) ≠ last := by
      rintro rfl
      cases hclose
    obtain ⟨init, trail, htrail, hblank, -, hinit⟩ :=
      after_last_tokensFrom (uncommented_plainSegments rest).map_flat (getLast?_of_cons hne hlast)
    rw [chars_map_flat, chars_plainSegments] at htrail
    obtain ⟨mid, rfl⟩ := List.getLast?_eq_some_iff.mp (hinit ']' (by rw [hclose]; rfl))
    refine ⟨lead, mid, trail, ?_, hlead, hblank⟩
    rw [htrail, List.append_assoc, List.singleton_append]
  · rintro ⟨lead, mid, trail, rfl, hl, ht⟩
    rw [flatTokens_enclosed hl ht]
    rw [isBracketed, ← List.cons_append, List.getLast?_concat]
    simp [Mark.token]

theorem unbracket_trim_enclosed {lead mid trail : List Char} (hl : ∀ c ∈ lead, isBlank c = true)
    (ht : ∀ c ∈ trail, isBlank c = true) :
    unbracket (trim (lead ++ '[' :: (mid ++ ']' :: trail))) = mid := by
  rw [trim_append_append hl ht (by decide) (by decide), unbracket, if_pos]
  · rw [List.drop_one, List.tail_cons, List.dropLast_concat]
  · rw [← List.cons_append, List.getLast?_concat]
    exact ⟨rfl, rfl⟩

theorem enclosed_iff : Enclosed cs ↔ (trim cs).head? = some '[' ∧ (trim cs).getLast? = some ']' := by
  constructor
  · rintro ⟨lead, mid, trail, rfl, hl, ht⟩
    rw [trim_append_append hl ht (by decide) (by decide), ← List.cons_append, List.getLast?_concat]
    exact ⟨rfl, rfl⟩
  · rintro ⟨hhead, hlast⟩
    obtain ⟨lead, trail, hcs, hl, ht⟩ := exists_margins cs
    obtain ⟨rest, hrest⟩ := List.head?_eq_some_iff.mp hhead
    rw [hrest] at hlast
    obtain ⟨mid, rfl⟩ := List.getLast?_eq_some_iff.mp (getLast?_of_cons (by decide) hlast)
    refine ⟨lead, mid, trail, ?_, hl, ht⟩
    rw [hcs, hrest, List.cons_append, List.append_assoc, List.singleton_append]

theorem unbracket_trim_of_not_enclosed (h : ¬ Enclosed cs) : unbracket (trim cs) = trim cs := by
  rw [unbracket, if_neg (mt enclosed_iff.mpr h)]

theorem itemTexts_flatTokens (cs pre post : List Char) (line : Nat) :
    itemTexts (pre ++ (cs ++ post)) (flatTokens line pre.length cs) = bodyItems cs := by
  rw [itemTexts_eq, itemRuns, bodyItems]
  by_cases h : Enclosed cs
  · rw [if_pos (isBracketed_flatTokens_iff.mpr h)]
    obtain ⟨lead, mid, trail, rfl, hl, ht⟩ := h
    have hsource : pre ++ (lead ++ '[' :: (mid ++ ']' :: trail) ++ post) =
        pre ++ (lead ++ ['[']) ++ (mid ++ (']' :: trail ++ post)) := by
      simp only [List.append_assoc, List.cons_append, List.nil_append]
    have hlength : pre.length + lead.length + 1 = (pre ++ (lead ++ ['['])).length := by
      simp only [List.length_append, List.length_singleton, Nat.add_assoc]
    rw [flatTokens_enclosed hl ht, unbracket_trim_enclosed hl ht, List.drop_one, List.tail_cons,
      List.dropLast_concat, hsource, hlength, map_sliceText_flatTokens, splitPipes]
  · rw [if_neg (fun hb => h (isBracketed_flatTokens_iff.mp hb)),
      unbracket_trim_of_not_enclosed h, splitPipes_trim, map_sliceText_flatTokens, splitPipes]

theorem sliceText_map_onLine (source : List Char) (n : Nat) (ts : List Token) :
    sliceText source (ts.map (Token.onLine n)) = sliceText source ts := by
  rw [sliceText, sliceText, List.head?_map, List.getLast?_map]
  cases ts.head? <;> cases ts.getLast? <;> rfl

theorem itemTexts_map_onLine (source : List Char) (n : Nat) (ts : List Token) :
    itemTexts source (ts.map (Token.onLine n)) = itemTexts source ts := by
  rw [itemTexts_eq, itemTexts_eq, itemRuns_map (moves_onLine n), List.map_map]
  congr 2
  funext run
  exact sliceText_map_onLine source n run

theorem itemTexts_plainTokens (cs pre post : List Char) (line : Nat) :
    itemTexts (pre ++ (cs ++ post)) ((plainTokens line pre.length cs).filter (·.kind ≠ .newline)) =
      bodyItems cs := by
  rw [← itemTexts_map_onLine _ 1, map_onLine_plainTokens, itemTexts_flatTokens]

theorem isBracketed_plainTokens_iff :
    isBracketed ((plainTokens line start cs).filter (·.kind ≠ .newline)) = true ↔ Enclosed cs := by
  rw [← isBracketed_map (moves_onLine 1), map_onLine_plainTokens, isBracketed_flatTokens_iff]

end Worksheet.Markup
