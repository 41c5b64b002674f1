import Worksheet.Proofs.Markup.Body
import Worksheet.Proofs.Markup.OptionLine
import Worksheet.Proofs.Text.Pipes

namespace Worksheet.Markup

open Chars

def Flat (s : List Char) : Prop := ∃ n, brackets s = (List.replicate n ['[', ']']).flatten

inductive FirstOffence : List Char → BracketFault → Prop
  | unexpected {pre : List Char} (h : Flat pre) (post : List Char) :
      FirstOffence (pre ++ ']' :: post) (.unexpected (Mark.closeBracket.token 1 pre.length))
  | nested {pre mid : List Char} (h : Flat pre) (hmid : brackets mid = []) (post : List Char) :
      FirstOffence (pre ++ '[' :: (mid ++ '[' :: post))
        (.nested (Mark.openBracket.token 1 (pre.length + 1 + mid.length)))
  | unclosed {pre post : List Char} (h : Flat pre) (hpost : brackets post = []) :
      FirstOffence (pre ++ '[' :: post) (.unclosed (Mark.openBracket.token 1 pre.length))

def stretches (inside : Bool) : List Char → List (Bool × List Char)
  | [] => [(inside, [])]
  | c :: cs =>
      if c = '|' then (inside, []) :: stretches inside cs
      else if c = '[' then (inside, []) :: stretches true cs
      else if c = ']' then (inside, []) :: stretches false cs
      else (stretches inside cs).modifyHead (fun piece => (piece.1, c :: piece.2))

def stretchItems (inside : Bool) (pieces : List (Bool × List Char)) : List String :=
  ((pieces.filter (·.1 = inside)).map (fun piece => String.ofList (collapse piece.2))).filter (· ≠ "")

def withoutTerminator (line : List Char) : List Char :=
  match splitAtLast (fun c => !isBlank c) line with
  | some (before, ';', after) => before ++ after
  | _ => line

section Brackets

variable {s t l : List Char}

theorem brackets_append (s t : List Char) : brackets (s ++ t) = brackets s ++ brackets t :=
  List.filter_append ..

theorem brackets_open (s : List Char) : brackets ('[' :: s) = '[' :: brackets s := rfl

theorem brackets_close (s : List Char) : brackets (']' :: s) = ']' :: brackets s := rfl

theorem brackets_of_blank (h : ∀ c ∈ s, isBlank c = true) : brackets s = [] := by
  rw [brackets_eq_nil_iff]
  intro c hc
  constructor
  · rintro rfl
    exact not_mem_of_forall h (by decide) hc
  · rintro rfl
    exact not_mem_of_forall h (by decide) hc

theorem exists_of_brackets_eq_cons {c : Char} {rest : List Char} (h : brackets s = c :: rest) :
    ∃ l t, s = l ++ c :: t ∧ brackets l = [] ∧ brackets t = rest := by
  obtain ⟨l, t, hs, hl, -, ht⟩ := List.filter_eq_cons_iff.mp h
  exact ⟨l, t, hs, List.filter_eq_nil_iff.mpr hl, ht⟩

theorem flat_of_brackets_eq_nil (h : brackets s = []) : Flat s := ⟨0, h⟩

theorem Flat.pair (hs : brackets s = []) (ht : brackets t = []) (hl : Flat l) :
    Flat (s ++ '[' :: (t ++ ']' :: l)) := by
  obtain ⟨n, hn⟩ := hl
  refine ⟨n + 1, ?_⟩
  rw [brackets_append, hs, brackets_open, brackets_append, ht, brackets_close, hn,
    List.replicate_succ, List.flatten_cons]
  rfl

theorem flat_append_iff (ht : brackets t = []) : Flat (s ++ t) ↔ Flat s := by
  rw [Flat, Flat, brackets_append, ht, List.append_nil]

@[elab_as_elim]
theorem Flat.induction {motive : ∀ s, Flat s → Prop}
    (unbracketed : ∀ l (hl : brackets l = []), motive l (flat_of_brackets_eq_nil hl))
    (pair : ∀ l m rest (hl : brackets l = []) (hm : brackets m = []) (h : Flat rest),
      motive rest h → motive (l ++ '[' :: (m ++ ']' :: rest)) (Flat.pair hl hm h))
    {s : List Char} (h : Flat s) : motive s h := by
  obtain ⟨n, hn⟩ := h
  induction n generalizing s with
  | zero => exact unbracketed s hn
  | succ n ih =>
      rw [List.replicate_succ, List.flatten_cons, List.cons_append, List.cons_append,
        List.nil_append] at hn
      obtain ⟨l, t, rfl, hl, ht⟩ := exists_of_brackets_eq_cons hn
      obtain ⟨m, rest, rfl, hm, hrest⟩ := exists_of_brackets_eq_cons ht
      exact pair l m rest hl hm ⟨n, hrest⟩ (ih hrest)

theorem FirstOffence.append_unbracketed {fault : BracketFault} (h : FirstOffence s fault)
    (ht : brackets t = []) : FirstOffence (s ++ t) fault := by
  cases h with
  | unexpected hpre post =>
      rw [List.append_assoc]
      exact .unexpected hpre (post ++ t)
  | nested hpre hmid post =>
      rw [List.append_assoc, List.cons_append, List.append_assoc]
      exact .nested hpre hmid (post ++ t)
  | @unclosed pre post hpre hpost =>
      have hrest : brackets (post ++ t) = [] := by
        rw [brackets_append, hpost, ht, List.append_nil]
      rw [List.append_assoc]
      exact .unclosed hpre hrest

theorem FirstOffence.pair (hs : brackets s = []) (ht : brackets t = []) {rest : List Char}
    (h : ∃ fault, FirstOffence rest fault) :
    ∃ fault, FirstOffence (s ++ '[' :: (t ++ ']' :: rest)) fault := by
  have hassoc : ∀ u v : List Char,
      s ++ '[' :: (t ++ ']' :: (u ++ v)) = (s ++ '[' :: (t ++ ']' :: u)) ++ v := by
    intro u v
    simp only [List.append_assoc, List.cons_append]
  obtain ⟨fault, h⟩ := h
  cases h with
  | unexpected hpre post =>
      rw [hassoc]
      exact ⟨_, .unexpected (Flat.pair hs ht hpre) post⟩
  | nested hpre hmid post =>
      rw [hassoc]
      exact ⟨_, .nested (Flat.pair hs ht hpre) hmid post⟩
  | unclosed hpre hpost =>
      rw [hassoc]
      exact ⟨_, .unclosed (Flat.pair hs ht hpre) hpost⟩

theorem flat_or_firstOffence (s : List Char) : Flat s ∨ ∃ fault, FirstOffence s fault := by
  have hbracket : ∀ {t rest : List Char} {c : Char}, brackets t = c :: rest → c = '[' ∨ c = ']' := by
    intro t rest c ht
    have hc : c ∈ brackets t := ht ▸ List.mem_cons_self
    exact of_decide_eq_true (List.mem_filter.mp hc).2
  induction hn : s.length using Nat.strongRecOn generalizing s with
  | ind n ih =>
      cases hs : brackets s with
      | nil => exact Or.inl (flat_of_brackets_eq_nil hs)
      | cons c rest =>
          obtain ⟨l, t, rfl, hl, -⟩ := exists_of_brackets_eq_cons hs
          have hflat := flat_of_brackets_eq_nil hl
          rcases hbracket hs with rfl | rfl
          · cases ht : brackets t with
            | nil => exact Or.inr ⟨_, .unclosed hflat ht⟩
            | cons d rest =>
                obtain ⟨m, u, rfl, hm, -⟩ := exists_of_brackets_eq_cons ht
                rcases hbracket ht with rfl | rfl
                · exact Or.inr ⟨_, .nested hflat hm u⟩
                · -- the line is as good as what stands after its first pair
                  have hlength : u.length < n := by
                    rw [← hn]
                    simp only [List.length_append, List.length_cons]
                    omega
                  rcases ih u.length hlength u rfl with hu | hu
                  · exact Or.inl (hu.pair hl hm)
                  · exact Or.inr (FirstOffence.pair hl hm hu)
          · exact Or.inr ⟨_, .unexpected hflat t⟩

end Brackets

section Stretches

variable {l : List Char} {inside : Bool}

theorem stretchItems_append (b : Bool) (ps qs : List (Bool × List Char)) :
    stretchItems b (ps ++ qs) = stretchItems b ps ++ stretchItems b qs := by
  simp only [stretchItems, List.filter_append, List.map_append]

theorem stretchItems_map_pieces (b inside : Bool) (l : List Char) :
    stretchItems b ((pieces (· == '|') l).map (inside, ·)) =
      if inside = b then splitPipes l else [] := by
  have hinside : ∀ piece ∈ (pieces (· == '|') l).map (inside, ·), piece.1 = inside := by
    intro piece hp
    obtain ⟨cs, -, rfl⟩ := List.mem_map.mp hp
    rfl
  by_cases h : inside = b
  · rw [if_pos h, stretchItems,
      List.filter_eq_self.mpr (fun piece hp => decide_eq_true ((hinside piece hp).trans h)),
      List.map_map]
    rfl
  · have hnone : ∀ piece ∈ (pieces (· == '|') l).map (inside, ·), ¬ decide (piece.1 = b) = true := by
      intro piece hp
      rw [hinside piece hp]
      simpa using h
    rw [if_neg h, stretchItems, List.filter_eq_nil_iff.mpr hnone]
    rfl

theorem stretches_append {rest : List Char} {after : List (Bool × List Char)}
    (hrest : stretches inside rest = (inside, []) :: after) (hl : brackets l = []) :
    stretches inside (l ++ rest) = (pieces (· == '|') l).map (inside, ·) ++ after := by
  rw [brackets_eq_nil_iff] at hl
  induction l with
  | nil => exact hrest
  | cons c l ih =>
      have htail := ih (fun d hd => hl d (List.mem_cons_of_mem _ hd))
      obtain ⟨hopen, hclose⟩ := hl c List.mem_cons_self
      rw [List.cons_append, stretches, htail, pieces_cons]
      by_cases hc : c = '|'
      · simp [hc]
      · rw [if_neg hc, if_neg hopen, if_neg hclose, if_neg (by simpa using hc)]
        cases hpieces : pieces (· == '|') l with
        | nil => exact absurd hpieces (pieces_ne_nil _ l)
        | cons piece others => rfl

theorem stretches_of_unbracketed (hl : brackets l = []) (inside : Bool) :
    stretches inside l = (pieces (· == '|') l).map (inside, ·) := by
  have happend : stretches inside (l ++ []) = (pieces (· == '|') l).map (inside, ·) ++ [] :=
    stretches_append rfl hl
  rwa [List.append_nil, List.append_nil] at happend

theorem stretches_append_open (hl : brackets l = []) (inside : Bool) (rest : List Char) :
    stretches inside (l ++ '[' :: rest) =
      (pieces (· == '|') l).map (inside, ·) ++ stretches true rest :=
  stretches_append rfl hl

theorem stretches_append_close (hl : brackets l = []) (inside : Bool) (rest : List Char) :
    stretches inside (l ++ ']' :: rest) =
      (pieces (· == '|') l).map (inside, ·) ++ stretches false rest :=
  stretches_append rfl hl

theorem stretchItems_append_blank {s trail : List Char} (h : Flat s)
    (ht : ∀ c ∈ trail, isBlank c = true) (b : Bool) :
    stretchItems b (stretches false (s ++ trail)) = stretchItems b (stretches false s) := by
  induction h using Flat.induction with
  | unbracketed l hl =>
      have happend : brackets (l ++ trail) = [] := by
        rw [brackets_append, hl, brackets_of_blank ht, List.append_nil]
      rw [stretches_of_unbracketed happend, stretches_of_unbracketed hl, stretchItems_map_pieces,
        stretchItems_map_pieces, splitPipes_append_of_blank_right ht]
  | pair l m rest hl hm _ ih =>
      rw [List.append_assoc, List.cons_append, List.append_assoc, List.cons_append,
        stretches_append_open hl, stretches_append_open hl, stretches_append_close hm,
        stretches_append_close hm]
      simp only [stretchItems_append, ih]

end Stretches

section Reading

variable {s : List Char} {line : Nat}

theorem readOptions_pair {l m : List Char} (hl : brackets l = []) (hm : brackets m = [])
    (pre rest post : List Char) (line : Nat) :
    readOptions (pre ++ (l ++ '[' :: (m ++ ']' :: rest) ++ post)) none []
        (flatTokens line pre.length (l ++ '[' :: (m ++ ']' :: rest))) =
      (readOptions (pre ++ (l ++ '[' :: (m ++ [']'])) ++ (rest ++ post)) none []
        (flatTokens line (pre ++ (l ++ '[' :: (m ++ [']']))).length rest)).map
          (fun o => ⟨splitPipes m ++ o.correct, splitPipes l ++ o.incorrect⟩) := by
  obtain ⟨source, hsource⟩ :
    ∃ source, source = pre ++ (l ++ '[' :: (m ++ ']' :: rest) ++ post) := ⟨_, rfl⟩
  have houtside : source = pre ++ (l ++ ('[' :: (m ++ ']' :: rest) ++ post)) := by
    rw [hsource, List.append_assoc]
  have hinside : source = pre ++ (l ++ ['[']) ++ (m ++ (']' :: rest ++ post)) := by
    simp [hsource]
  have hafter : source = pre ++ (l ++ '[' :: (m ++ [']'])) ++ (rest ++ post) := by
    simp [hsource]
  have hstart : pre.length + l.length + 1 = (pre ++ (l ++ ['['])).length := by
    simp [Nat.add_assoc]
  have hrest : pre.length + l.length + 1 + m.length + 1 =
      (pre ++ (l ++ '[' :: (m ++ [']']))).length := by
    simp only [List.length_append, List.length_cons, List.length_nil]
    omega
  have hpair : ∀ bracket : Token,
      readOptions source (some bracket) [] (flatTokens line (pre.length + l.length + 1)
        (m ++ ']' :: rest)) =
      (readOptions source none [] (flatTokens line (pre.length + l.length + 1 + m.length + 1)
        rest)).map (OptionLine.addAll true (splitPipes m)) := by
    intro bracket
    rw [flatTokens_append_close, hinside, hstart]
    exact readOptions_flatTokens hm
      (readOptions_cons_of_close rfl bracket · _)
  have hline : readOptions source none [] (flatTokens line pre.length
        (l ++ '[' :: (m ++ ']' :: rest))) =
      (readOptions source (some (Mark.openBracket.token line (pre.length + l.length))) []
        (flatTokens line (pre.length + l.length + 1) (m ++ ']' :: rest))).map
        (OptionLine.addAll false (splitPipes l)) := by
    rw [flatTokens_append_open, houtside]
    exact readOptions_flatTokens hl (readOptions_cons_of_open rfl · _)
  rw [← hsource, ← hafter, ← hrest, hline, hpair]
  cases readOptions source none [] (flatTokens line (pre.length + l.length + 1 + m.length + 1) rest) with
  | error fault => rfl
  | ok o =>
      simp only [Except.map, OptionLine.addAll_true (empty_not_mem_splitPipes m),
        OptionLine.addAll_false (empty_not_mem_splitPipes l)]

theorem readOptions_of_flat (h : Flat s) (pre post : List Char) (line : Nat) :
    readOptions (pre ++ (s ++ post)) none [] (flatTokens line pre.length s) =
      .ok ⟨stretchItems true (stretches false s), stretchItems false (stretches false s)⟩ := by
  induction h using Flat.induction generalizing pre with
  | unbracketed l hl =>
      have hread : readOptions (pre ++ (l ++ post)) none [] (flatTokens line pre.length l ++ []) =
          .ok (OptionLine.addAll false (splitPipes l) ⟨[], []⟩) :=
        readOptions_flatTokens (r := .ok ⟨[], []⟩) hl (fun _ => rfl)
      rw [List.append_nil, OptionLine.addAll_false (empty_not_mem_splitPipes l),
        List.append_nil] at hread
      rw [hread, stretches_of_unbracketed hl, stretchItems_map_pieces, stretchItems_map_pieces]
      rfl
  | pair l m rest hl hm _ ih =>
      rw [readOptions_pair hl hm, ih, stretches_append_open hl, stretches_append_close hm]
      simp only [stretchItems_append, stretchItems_map_pieces]
      rfl

theorem readOptions_append_of_flat (h : Flat s) {source : List Char} {fault : BracketFault}
    {rest : List Token} (hrest : ∀ pending, readOptions source none pending rest = .error fault)
    (line start : Nat) :
    readOptions source none [] (flatTokens line start s ++ rest) = .error fault := by
  induction h using Flat.induction generalizing start with
  | unbracketed l hl =>
      exact readOptions_append_of_error hrest (kind_of_mem_unbracketed hl)
  | pair l m u hl hm _ ih =>
      rw [flatTokens_append_open, flatTokens_append_close, List.append_assoc, List.cons_append,
        List.append_assoc, List.cons_append]
      apply readOptions_append_of_error _ (kind_of_mem_unbracketed hl)
      intro pending
      rw [readOptions_cons_of_open rfl, readOptions_append_of_error _
        (kind_of_mem_unbracketed hm)]
      · rfl
      · intro pending
        rw [readOptions_cons_of_close rfl, ih]
        rfl

theorem readOptions_of_firstOffence {fault : BracketFault} (h : FirstOffence s fault)
    (source : List Char) : readOptions source none [] (flatTokens 1 0 s) = .error fault := by
  cases h with
  | @unexpected pre hpre post =>
      rw [flatTokens_append_close, Nat.zero_add]
      exact readOptions_append_of_flat hpre (fun _ => rfl) 1 0
  | @nested pre mid hpre hmid post =>
      rw [flatTokens_append_open, flatTokens_append_open, Nat.zero_add]
      apply readOptions_append_of_flat hpre
      intro pending
      rw [readOptions_cons_of_open rfl, readOptions_append_of_error (fun _ => rfl)
        (kind_of_mem_unbracketed hmid)]
      rfl
  | @unclosed pre post hpre hpost =>
      rw [flatTokens_append_open, Nat.zero_add]
      apply readOptions_append_of_flat hpre
      intro pending
      rw [readOptions_cons_of_open rfl, ← List.append_nil (flatTokens _ _ post),
        readOptions_append_of_error (fun _ => rfl)
          (kind_of_mem_unbracketed hpost)]
      rfl

theorem FirstOffence.unique {fault other : BracketFault} (h : FirstOffence s fault)
    (h' : FirstOffence s other) : fault = other := by
  have hread := readOptions_of_firstOffence h s
  rw [readOptions_of_firstOffence h'] at hread
  exact (Except.error.inj hread).symm

theorem FirstOffence.not_flat {fault : BracketFault} (h : FirstOffence s fault) : ¬ Flat s := by
  intro hflat
  have hread := readOptions_of_flat hflat [] [] 1
  rw [List.length_nil, readOptions_of_firstOffence h] at hread
  cases hread

end Reading

section Line

variable {line : List Char}

theorem scan_of_uncommented (hn : '\n' ∉ line) (hu : Uncommented (segments true line)) :
    (scan line).filter (·.kind ≠ .newline) = flatTokens 1 0 line := by
  rw [scan_eq_plainTokens hu, filter_plainTokens_of_line hn, plainTokens_eq_flatTokens hn]

theorem exists_dropTerminator (hn : '\n' ∉ line) (hu : Uncommented (segments true line)) :
    ∃ body trail post, withoutTerminator line = body ++ trail ∧ line = body ++ post ∧
      (∀ c ∈ trail, isBlank c = true) ∧
      dropTerminator ((scan line).filter (·.kind ≠ .newline)) = flatTokens 1 0 body := by
  have hlast : ∀ {before after : List Char}, (∀ c ∈ after, isBlank c = true) →
      flatTokens 1 0 (before ++ ';' :: after) =
        flatTokens 1 0 before ++ [Mark.semicolon.token 1 (0 + before.length)] := by
    intro before after h
    have hmark := flatTokens_append_mark 1 0 before .semicolon after
    rwa [flatTokens_of_blank h] at hmark
  rw [scan_of_uncommented hn hu, dropTerminator]
  split
  · next hsemicolon =>
      obtain ⟨t, ht, hkind⟩ := Option.map_eq_some_iff.mp hsemicolon
      obtain ⟨init, trail, hline, htrail, -, hinit⟩ :=
        after_last_tokensFrom (uncommented_plainSegments line).map_flat ht
      obtain ⟨before, rfl⟩ := List.getLast?_eq_some_iff.mp (hinit ';' (by rw [hkind]; rfl))
      rw [chars_map_flat, chars_plainSegments, List.append_assoc, List.singleton_append] at hline
      have hsplit : splitAtLast (fun c => !isBlank c) line = some (before, ';', trail) := by
        rw [hline]
        exact splitAtLast_append (by decide) (fun c hc => by simp [htrail c hc]) before
      refine ⟨before, trail, ';' :: trail, ?_, hline, htrail, ?_⟩
      · rw [withoutTerminator, hsplit]
        rfl
      · rw [hline, hlast htrail, List.dropLast_concat]
  · next hsemicolon =>
      refine ⟨line, [], [], ?_, (List.append_nil line).symm,
        fun _ hc => absurd hc List.not_mem_nil, rfl⟩
      rw [List.append_nil, withoutTerminator]
      split
      · next before after hsplit =>
          have hafter : ∀ c ∈ after, isBlank c = true := by
            intro c hc
            simpa using (after_of_splitAtLast hsplit).2 c hc
          rw [append_of_splitAtLast hsplit, hlast hafter, List.getLast?_concat] at hsemicolon
          exact absurd rfl hsemicolon
      · rfl

theorem readOptionLine_of_flat (hn : '\n' ∉ line) (hu : Uncommented (segments true line))
    (h : Flat (withoutTerminator line)) :
    readOptionLine line = .ok ⟨stretchItems true (stretches false (withoutTerminator line)),
      stretchItems false (stretches false (withoutTerminator line))⟩ := by
  obtain ⟨body, trail, post, hbody, hline, htrail, htokens⟩ := exists_dropTerminator hn hu
  rw [hbody, flat_append_iff (brackets_of_blank htrail)] at h
  have hread := readOptions_of_flat h [] post 1
  rw [List.nil_append, ← hline, List.length_nil, ← htokens, ← readOptionLine] at hread
  rw [hread, hbody, stretchItems_append_blank h htrail, stretchItems_append_blank h htrail]

theorem readOptionLine_of_firstOffence (hn : '\n' ∉ line) (hu : Uncommented (segments true line))
    {fault : BracketFault} (h : FirstOffence (withoutTerminator line) fault) :
    readOptionLine line = .error fault := by
  obtain ⟨body, trail, post, hbody, -, htrail, htokens⟩ := exists_dropTerminator hn hu
  have hblank := brackets_of_blank htrail
  rw [hbody] at h
  rcases flat_or_firstOffence body with hflat | ⟨other, hother⟩
  · exact absurd ((flat_append_iff hblank).mpr hflat) h.not_flat
  · rw [h.unique (hother.append_unbracketed hblank), readOptionLine, htokens]
    exact readOptions_of_firstOffence hother line

theorem readOptionLine_by_brackets (hn : '\n' ∉ line) (hu : Uncommented (segments true line)) :
    let s := withoutTerminator line
    ((∃ fault, readOptionLine line = .error fault) ↔ ¬ Flat s) ∧
      (∀ fault, readOptionLine line = .error fault ↔ FirstOffence s fault) ∧
      (Flat s → readOptionLine line =
        .ok ⟨stretchItems true (stretches false s), stretchItems false (stretches false s)⟩) := by
  intro s
  have hok : Flat s → readOptionLine line =
      .ok ⟨stretchItems true (stretches false s), stretchItems false (stretches false s)⟩ :=
    readOptionLine_of_flat hn hu
  have herror : ∀ fault, FirstOffence s fault → readOptionLine line = .error fault :=
    fun _ h => readOptionLine_of_firstOffence hn hu h
  have hnot : ∀ fault, readOptionLine line = .error fault → ¬ Flat s := by
    intro fault h hflat
    rw [hok hflat] at h
    cases h
  refine ⟨⟨fun ⟨fault, h⟩ => hnot fault h, fun h => ?_⟩, fun fault => ⟨fun h => ?_, herror fault⟩, hok⟩
  · obtain ⟨fault, hoffence⟩ := (flat_or_firstOffence s).resolve_left h
    exact ⟨fault, herror fault hoffence⟩
  · obtain ⟨other, hoffence⟩ := (flat_or_firstOffence s).resolve_left (hnot fault h)
    rw [herror other hoffence] at h
    exact Except.error.inj h ▸ hoffence

theorem readOptionLine_by_brackets_sky :
    let line := "[sky | sea] grass; = x | [sun] ; ".toList
    '\n' ∉ line ∧ Uncommented (segments true line) ∧ Flat (withoutTerminator line) ∧
      readOptionLine line = .ok ⟨["sky", "sea", "sun"], ["grass; = x"]⟩ := by
  intro line
  have hn : '\n' ∉ line := by decide
  have hu : Uncommented (segments true line) := uncommented_of_slash_not_mem (by decide)
  have hflat : Flat (withoutTerminator line) := ⟨2, by decide⟩
  refine ⟨hn, hu, hflat, ((readOptionLine_by_brackets hn hu).2.2 hflat).trans ?_⟩
  exact congrArg Except.ok (by decide)

end Line

section Pair

variable {body tail : List Char} (hb : IsBody body) (ht : IsBody tail)

include hb ht

theorem uncommented_pairLine : Uncommented (segments true ('[' :: (body ++ ']' :: (tail ++ [';'])))) := by
  have hopen := segments_of_mark (c := '[') (m := .openBracket) rfl true
    (body ++ ']' :: (tail ++ [';']))
  have hclose := segments_append_mark (hb.uncommented rfl) .closeBracket (tail ++ [';'])
  have hend := segments_append_mark (ht.uncommented rfl) .semicolon []
  simp only [Mark.char] at hclose hend
  intro note hmem
  rw [hopen, beq_false_of_ne (by decide), hclose, beq_false_of_ne (by decide), hend, segments_nil] at hmem
  simp only [List.mem_cons, List.mem_append, List.not_mem_nil, or_false, reduceCtorEq, false_or] at hmem
  rcases hmem with hmem | hmem
  · exact hb.uncommented rfl note hmem
  · exact ht.uncommented rfl note hmem

theorem readOptionLine_brackets (hbody : '[' ∉ body ∧ ']' ∉ body) (htail : '[' ∉ tail ∧ ']' ∉ tail) :
    readOptionLine ('[' :: (body ++ ']' :: (tail ++ [';']))) =
      .ok ⟨splitPipes body, splitPipes tail⟩ := by
  have hunbracketed : ∀ {cs : List Char}, '[' ∉ cs ∧ ']' ∉ cs → brackets cs = [] := by
    intro cs h
    rw [brackets_eq_nil_iff]
    exact fun c hc => ⟨fun heq => h.1 (heq ▸ hc), fun heq => h.2 (heq ▸ hc)⟩
  have hline : '\n' ∉ '[' :: (body ++ ']' :: (tail ++ [';'])) := by
    simp only [List.mem_cons, List.mem_append, not_or]
    exact ⟨by decide, hb.newline_not_mem, by decide, ht.newline_not_mem, by decide, List.not_mem_nil⟩
  have hterminator : withoutTerminator ('[' :: (body ++ ']' :: (tail ++ [';']))) =
      [] ++ '[' :: (body ++ ']' :: tail) := by
    have hsplit : splitAtLast (fun c => !isBlank c) ('[' :: (body ++ ']' :: tail) ++ [';']) =
        some ('[' :: (body ++ ']' :: tail), ';', []) :=
      splitAtLast_append (by decide) (fun _ hc => absurd hc List.not_mem_nil) _
    rw [List.cons_append, List.append_assoc, List.cons_append] at hsplit
    rw [withoutTerminator, hsplit]
    exact List.append_nil _
  have hnil : brackets [] = [] := rfl
  have hflat : Flat ([] ++ '[' :: (body ++ ']' :: tail)) :=
    Flat.pair hnil (hunbracketed hbody) (flat_of_brackets_eq_nil (hunbracketed htail))
  rw [readOptionLine_of_flat hline (uncommented_pairLine hb ht) (by rwa [hterminator]), hterminator,
    stretches_append_open hnil, stretches_append_close (hunbracketed hbody),
    stretches_of_unbracketed (hunbracketed htail)]
  simp only [stretchItems_append, stretchItems_map_pieces]
  have hempty : splitPipes [] = [] := rfl
  simp [hempty]

end Pair

end Worksheet.Markup
