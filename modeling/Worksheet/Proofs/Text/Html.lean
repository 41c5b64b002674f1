import Worksheet.Text.Html

namespace Worksheet

namespace Chars

def specials : List Char := ['&', '<', '>', '"', '\'']

def entities : List (List Char) :=
  ["&amp;".toList, "&lt;".toList, "&gt;".toList, "&quot;".toList, "&#39;".toList]

def unescapeHtml : List Char → List Char
  | '&' :: 'a' :: 'm' :: 'p' :: ';' :: cs => '&' :: unescapeHtml cs
  | '&' :: 'l' :: 't' :: ';' :: cs => '<' :: unescapeHtml cs
  | '&' :: 'g' :: 't' :: ';' :: cs => '>' :: unescapeHtml cs
  | '&' :: 'q' :: 'u' :: 'o' :: 't' :: ';' :: cs => '"' :: unescapeHtml cs
  | '&' :: '#' :: '3' :: '9' :: ';' :: cs => '\'' :: unescapeHtml cs
  | c :: cs => c :: unescapeHtml cs
  | [] => []

theorem unescapeHtml_cons {c : Char} (h : c ≠ '&') (cs : List Char) :
    unescapeHtml (c :: cs) = c :: unescapeHtml cs := by
  conv => lhs; unfold unescapeHtml
  split <;> simp_all

theorem entity_of_mem {c : Char} (h : c ∈ specials) :
    entity c ∈ entities ∧ ∀ cs, unescapeHtml (entity c ++ cs) = c :: unescapeHtml cs := by
  simp only [specials, List.mem_cons, List.not_mem_nil, or_false] at h
  rcases h with rfl | rfl | rfl | rfl | rfl <;> exact ⟨by decide, fun _ => rfl⟩

theorem entity_of_not_mem {c : Char} (h : c ∉ specials) : entity c = [c] := by
  simp only [specials, List.mem_cons, List.not_mem_nil, or_false, not_or] at h
  obtain ⟨hamp, hlt, hgt, hquot, hapos⟩ := h
  rw [entity, if_neg hamp, if_neg hlt, if_neg hgt, if_neg hquot, if_neg hapos]

theorem exists_name_of_mem {e : List Char} (h : e ∈ entities) :
    ∃ name, e = '&' :: name ∧ ∀ c ∈ name, c ∉ specials := by
  have hchecked : entities.all (fun e => e.head? = some '&' && e.tail.all (· ∉ specials)) = true := by
    decide
  have he := List.all_eq_true.mp hchecked e h
  rw [Bool.and_eq_true, decide_eq_true_eq, List.head?_eq_some_iff] at he
  obtain ⟨⟨name, rfl⟩, hplain⟩ := he
  exact ⟨name, rfl, fun c hc => of_decide_eq_true (List.all_eq_true.mp hplain c hc)⟩

theorem unescapeHtml_entity_append (c : Char) (cs : List Char) :
    unescapeHtml (entity c ++ cs) = c :: unescapeHtml cs := by
  by_cases hc : c ∈ specials
  · exact (entity_of_mem hc).2 cs
  · have hamp : c ≠ '&' := fun heq => hc (heq ▸ List.mem_cons_self)
    rw [entity_of_not_mem hc, List.singleton_append, unescapeHtml_cons hamp]

theorem escapeHtml_cons (c : Char) (cs : List Char) :
    escapeHtml (c :: cs) = entity c ++ escapeHtml cs := List.flatMap_cons

theorem unescapeHtml_escapeHtml (cs : List Char) : unescapeHtml (escapeHtml cs) = cs := by
  induction cs with
  | nil => rfl
  | cons c cs ih => rw [escapeHtml_cons, unescapeHtml_entity_append, ih]

theorem eq_ampersand_of_mem_entity {c x : Char} (hx : x ∈ entity c) (hspecial : x ∈ specials) :
    x = '&' := by
  by_cases hc : c ∈ specials
  · obtain ⟨name, hname, hplain⟩ := exists_name_of_mem (entity_of_mem hc).1
    rw [hname] at hx
    rcases List.mem_cons.mp hx with rfl | hx
    · rfl
    · exact absurd hspecial (hplain x hx)
  · rw [entity_of_not_mem hc, List.mem_singleton] at hx
    exact absurd (hx ▸ hspecial) hc

theorem entity_eq_append {c : Char} {before after : List Char}
    (h : entity c = before ++ '&' :: after) :
    before = [] ∧ entity c ∈ entities := by
  have hmem : '&' ∈ before ++ '&' :: after := List.mem_append_right before List.mem_cons_self
  by_cases hc : c ∈ specials
  · have he := (entity_of_mem hc).1
    obtain ⟨name, hname, hplain⟩ := exists_name_of_mem he
    cases before with
    | nil => exact ⟨rfl, he⟩
    | cons b before =>
        rw [hname, List.cons_append, List.cons.injEq] at h
        have hin : '&' ∈ name := h.2 ▸ List.mem_append_right before List.mem_cons_self
        exact absurd List.mem_cons_self (hplain '&' hin)
  · rw [← h, entity_of_not_mem hc, List.mem_singleton] at hmem
    exact absurd (hmem ▸ List.mem_cons_self) hc

theorem entity_prefix_of_escapeHtml {cs before after : List Char}
    (h : escapeHtml cs = before ++ '&' :: after) :
    ∃ e ∈ entities, e <+: '&' :: after := by
  induction cs generalizing before with
  | nil => cases before <;> cases h
  | cons c cs ih =>
      rw [escapeHtml_cons] at h
      rcases List.append_eq_append_iff.mp h with ⟨later, -, hrest⟩ | ⟨found, hentity, hrest⟩
      · exact ih hrest
      · cases found with
        | nil => exact ih (show escapeHtml cs = [] ++ '&' :: after from hrest.symm)
        | cons x found =>
            obtain rfl : '&' = x := (List.cons.inj hrest).1
            obtain ⟨rfl, he⟩ := entity_eq_append hentity
            exact ⟨entity c, he, hentity ▸ hrest ▸ List.prefix_append _ _⟩

end Chars

namespace Text

open Chars

def unescapeHtml (s : String) : String := .ofList (Chars.unescapeHtml s.toList)

theorem unescapeHtml_escapeHtml (s : String) : unescapeHtml (escapeHtml s) = s := by
  rw [unescapeHtml, escapeHtml, String.toList_ofList, Chars.unescapeHtml_escapeHtml,
    String.ofList_toList]

theorem escape_reversible :
    (∀ s, (∀ c ∈ ['<', '>', '"', '\''], c ∉ (escapeHtml s).toList) ∧
      (∀ before after, (escapeHtml s).toList = before ++ '&' :: after →
        ∃ e ∈ entities, e <+: '&' :: after) ∧
      unescapeHtml (escapeHtml s) = s) ∧
    Function.Injective escapeHtml := by
  refine ⟨fun s => ⟨?_, ?_, unescapeHtml_escapeHtml s⟩,
    Function.LeftInverse.injective unescapeHtml_escapeHtml⟩
  · intro c hc hmem
    rw [escapeHtml, String.toList_ofList] at hmem
    obtain ⟨d, -, hd⟩ := List.mem_flatMap.mp hmem
    have hamp := eq_ampersand_of_mem_entity hd (List.mem_cons_of_mem '&' hc)
    exact absurd (hamp ▸ hc) (by decide)
  · intro before after h
    rw [escapeHtml, String.toList_ofList] at h
    exact entity_prefix_of_escapeHtml h

theorem escape_reversible_markup :
    escapeHtml "<a>'&lt;" = "&lt;a&gt;&#39;&amp;lt;" ∧
      '<' ∉ (escapeHtml "<a>'&lt;").toList ∧
      (∃ e ∈ entities, e <+: '&' :: "amp;lt;".toList) ∧
      unescapeHtml "&lt;a&gt;&#39;&amp;lt;" = "<a>'&lt;" ∧
      escapeHtml "&lt;" ≠ escapeHtml "<" := by
  obtain ⟨hplain, hentity, hback⟩ := escape_reversible.1 "<a>'&lt;"
  have hescaped : escapeHtml "<a>'&lt;" = "&lt;a&gt;&#39;&amp;lt;" := by decide +kernel
  refine ⟨hescaped, hplain '<' (by decide), ?_, hescaped ▸ hback, ?_⟩
  · exact hentity "&lt;a&gt;&#39;".toList "amp;lt;".toList (by rw [hescaped]; rfl)
  · exact fun h => absurd (escape_reversible.2 h) (by decide)

end Text

end Worksheet
