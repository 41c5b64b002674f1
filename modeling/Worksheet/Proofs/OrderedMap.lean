import Mathlib.Data.List.Forall2
import Worksheet.OrderedMap
import Worksheet.Proofs.Sequence

namespace Worksheet.OrderedMap

variable {α : Type u} {β : Type v}

@[simp]
theorem find?_empty (key : String) : (∅ : OrderedMap α).find? key = none := rfl

theorem mem_keys_of_mem_entries {m : OrderedMap α} {key : String} {value : α}
    (h : (key, value) ∈ m.entries) : key ∈ m.keys :=
  List.mem_map.mpr ⟨(key, value), h, rfl⟩

theorem lookup_eq_some_iff {key : String} {value : α} :
    ∀ {l : List (String × α)}, (l.map Prod.fst).Nodup →
      (l.lookup key = some value ↔ (key, value) ∈ l) := by
  intro l
  induction l with
  | nil => intro _; simp
  | cons e l ih =>
      intro h
      obtain ⟨k, v⟩ := e
      simp only [List.map_cons, List.nodup_cons] at h
      by_cases hk : key = k
      · subst hk
        have hl : (key, value) ∉ l := fun hm => h.1 (List.mem_map.mpr ⟨_, hm, rfl⟩)
        simp [hl, eq_comm]
      · simp [List.lookup_cons, beq_false_of_ne hk, hk, ih h.2]

theorem find?_eq_some_iff {m : OrderedMap α} {key : String} {value : α} :
    m.find? key = some value ↔ (key, value) ∈ m.entries :=
  lookup_eq_some_iff m.nodup

theorem find?_isSome_iff {m : OrderedMap α} {key : String} :
    (m.find? key).isSome ↔ key ∈ m.keys := by
  rw [Option.isSome_iff_exists]
  constructor
  · rintro ⟨value, h⟩
    exact mem_keys_of_mem_entries (find?_eq_some_iff.mp h)
  · intro h
    obtain ⟨⟨k, value⟩, he, rfl⟩ := List.mem_map.mp h
    exact ⟨value, find?_eq_some_iff.mpr he⟩

theorem find?_eq_none_iff {m : OrderedMap α} {key : String} :
    m.find? key = none ↔ key ∉ m.keys := by
  rw [← find?_isSome_iff, Option.not_isSome_iff_eq_none]

theorem contains_eq_decide (m : OrderedMap α) (key : String) :
    m.contains key = decide (key ∈ m.keys) := by
  rw [Bool.eq_iff_iff, contains, find?_isSome_iff, decide_eq_true_eq]

theorem find?_foldl_put (key : String) (l : List (String × α)) :
    ∀ m : OrderedMap α,
      (l.foldl (fun m e => m.put e.1 e.2) m).find? key =
        (l.reverse.lookup key).or (m.find? key) := by
  induction l with
  | nil => intro m; simp
  | cons e l ih =>
      intro m
      obtain ⟨k, v⟩ := e
      rw [List.foldl_cons, ih, find?_put, List.reverse_cons, List.lookup_append]
      by_cases h : key = k
      · simp [h]
      · simp [List.lookup_cons, h, beq_false_of_ne h]

theorem find?_ofList (l : List (String × α)) (key : String) :
    (ofList l).find? key = l.reverse.lookup key := by
  rw [ofList, find?_foldl_put]
  exact Option.or_none

theorem mem_of_find?_ofList {l : List (String × α)} {key : String} {value : α}
    (h : (ofList l).find? key = some value) : (key, value) ∈ l := by
  rw [find?_ofList, List.lookup_eq_some_iff] at h
  obtain ⟨before, after, hl, -⟩ := h
  have hmem : (key, value) ∈ l.reverse := by
    rw [hl]
    simp
  exact List.mem_reverse.mp hmem

theorem find?_putNew (m : OrderedMap α) (key k : String) (value : α) :
    (m.putNew key value).find? k = (m.find? k).or (if k = key then some value else none) := by
  unfold putNew contains
  split
  · next h =>
      by_cases hk : k = key
      · subst hk
        obtain ⟨v, hv⟩ := Option.isSome_iff_exists.mp h
        simp [hv]
      · simp [hk]
  · next h =>
      rw [find?_put]
      by_cases hk : k = key
      · subst hk
        have hnone : m.find? k = none := Option.not_isSome_iff_eq_none.mp h
        simp [hnone]
      · simp [hk]

theorem find?_foldl_putNew (key : String) (l : List (String × α)) :
    ∀ m : OrderedMap α,
      (l.foldl (fun m e => m.putNew e.1 e.2) m).find? key = (m.find? key).or (l.lookup key) := by
  induction l with
  | nil => intro m; simp
  | cons e l ih =>
      intro m
      obtain ⟨k, v⟩ := e
      rw [List.foldl_cons, ih, find?_putNew, Option.or_assoc]
      by_cases h : key = k
      · simp [h]
      · simp [List.lookup_cons, h, beq_false_of_ne h]

theorem find?_ofListFirst (l : List (String × α)) (key : String) :
    (ofListFirst l).find? key = l.lookup key :=
  find?_foldl_putNew key l empty

theorem mem_keys_foldl_put (key : String) (l : List (String × α)) :
    ∀ m : OrderedMap α,
      key ∈ (l.foldl (fun m e => m.put e.1 e.2) m).keys ↔ key ∈ l.map Prod.fst ∨ key ∈ m.keys := by
  induction l with
  | nil => intro m; simp
  | cons e l ih =>
      intro m
      rw [List.foldl_cons, ih, mem_keys_put, List.map_cons, List.mem_cons]
      constructor
      · rintro (h | h | h) <;> simp [h]
      · rintro ((h | h) | h) <;> simp [h]

theorem mem_keys_ofList {l : List (String × α)} {key : String} :
    key ∈ (ofList l).keys ↔ key ∈ l.map Prod.fst := by
  rw [ofList, mem_keys_foldl_put]
  simp [keys, empty]

theorem mem_keys_merge {m n : OrderedMap α} {key : String} :
    key ∈ (m.merge n).keys ↔ key ∈ n.keys ∨ key ∈ m.keys :=
  mem_keys_foldl_put key n.entries m

theorem isEmpty_iff {m : OrderedMap α} : m.isEmpty = true ↔ ∀ key, key ∉ m.keys := by
  rw [isEmpty, List.isEmpty_iff, keys]
  constructor
  · intro h; simp [h]
  · intro h
    exact List.map_eq_nil_iff.mp (List.eq_nil_iff_forall_not_mem.mpr h)

theorem putEntry_of_not_mem {key : String} {value : α} :
    ∀ {l : List (String × α)}, key ∉ l.map Prod.fst → putEntry key value l = l ++ [(key, value)] := by
  intro l
  induction l with
  | nil => intro _; rfl
  | cons e l ih =>
      intro h
      simp only [List.map_cons, List.mem_cons, not_or] at h
      simp [putEntry, Ne.symm h.1, ih h.2]

theorem keys_put_of_not_mem {m : OrderedMap α} {key : String} {value : α} (h : key ∉ m.keys) :
    (m.put key value).keys = m.keys ++ [key] := by
  have hentries : (m.put key value).entries = m.entries ++ [(key, value)] := putEntry_of_not_mem h
  rw [keys, hentries, List.map_append, keys, List.map_singleton]

theorem keys_putEntry_of_mem {key : String} {value : α} :
    ∀ {l : List (String × α)}, key ∈ l.map Prod.fst →
      (putEntry key value l).map Prod.fst = l.map Prod.fst := by
  intro l
  induction l with
  | nil => intro h; cases h
  | cons e l ih =>
      intro h
      rw [putEntry]
      split
      · next he => rw [List.map_cons, List.map_cons, he]
      · next he =>
          have hl : key ∈ l.map Prod.fst := (List.mem_cons.mp h).resolve_left (Ne.symm he)
          rw [List.map_cons, List.map_cons, ih hl]

theorem keys_put (m : OrderedMap α) (key : String) (value : α) :
    (m.put key value).keys = if key ∈ m.keys then m.keys else m.keys ++ [key] := by
  split
  · next h => exact keys_putEntry_of_mem h
  · next h => exact keys_put_of_not_mem h

theorem keys_putNew (m : OrderedMap α) (key : String) (value : α) :
    (m.putNew key value).keys = if key ∈ m.keys then m.keys else m.keys ++ [key] := by
  unfold putNew contains
  by_cases h : key ∈ m.keys
  · rw [if_pos (find?_isSome_iff.mpr h), if_pos h]
  · rw [if_neg (mt find?_isSome_iff.mp h), if_neg h, keys_put_of_not_mem h]

theorem keys_foldl {enter : OrderedMap α → String × α → OrderedMap α}
    (henter : ∀ m e, (enter m e).keys = if e.1 ∈ m.keys then m.keys else m.keys ++ [e.1])
    (l : List (String × α)) :
    ∀ m : OrderedMap α, (l.foldl enter m).keys =
      m.keys ++ (distinct (l.map Prod.fst)).filter (· ∉ m.keys) := by
  induction l with
  | nil => intro m; simp [distinct]
  | cons e l ih =>
      intro m
      rw [List.foldl_cons, ih, henter, List.map_cons, distinct, List.filter_cons,
        List.filter_filter]
      by_cases he : e.1 ∈ m.keys
      · have hrest : ∀ key ∈ distinct (l.map Prod.fst),
            decide (key ∉ m.keys) = (decide (key ∉ m.keys) && decide (key ≠ e.1)) := by
          intro key _
          by_cases hkey : key = e.1
          · simp [hkey, he]
          · simp [hkey]
        simp only [he, if_true, not_true_eq_false, decide_false, Bool.false_eq_true, if_false]
        rw [List.filter_congr hrest]
      · simp only [he, if_false, not_false_eq_true, decide_true, if_true, List.mem_append,
          List.mem_singleton, not_or, Bool.decide_and, List.append_assoc, List.singleton_append]

theorem keys_foldl_empty {enter : OrderedMap α → String × α → OrderedMap α}
    (henter : ∀ m e, (enter m e).keys = if e.1 ∈ m.keys then m.keys else m.keys ++ [e.1])
    (l : List (String × α)) : (l.foldl enter empty).keys = distinct (l.map Prod.fst) := by
  rw [keys_foldl henter]
  exact List.filter_eq_self.mpr fun key _ => by simp [keys, empty]

theorem keys_ofListFirst (l : List (String × α)) :
    (ofListFirst l).keys = distinct (l.map Prod.fst) :=
  keys_foldl_empty (fun m e => keys_putNew m e.1 e.2) l

theorem keys_ofList (l : List (String × α)) : (ofList l).keys = distinct (l.map Prod.fst) :=
  keys_foldl_empty (fun m e => keys_put m e.1 e.2) l

theorem eq_of_find?_eq {m n : OrderedMap α} (hkeys : m.keys = n.keys)
    (hfind : ∀ key, m.find? key = n.find? key) : m = n := by
  have hshown : ∀ m : OrderedMap α,
      m.entries.map (fun e => (e.1, some e.2)) = m.keys.map (fun key => (key, m.find? key)) := by
    intro m
    rw [keys, List.map_map]
    refine List.map_congr_left (fun e he => ?_)
    rw [Function.comp_apply, find?_eq_some_iff.mpr he]
  have hinjective : ∀ e e' : String × α, (e.1, some e.2) = (e'.1, some e'.2) → e = e' := by
    rintro ⟨key, value⟩ ⟨other, value'⟩ h
    cases h
    rfl
  have hentries : m.entries = n.entries := by
    rw [← List.map_inj_right hinjective, hshown, hshown, hkeys]
    exact List.map_congr_left (fun key _ => congrArg (key, ·) (hfind key))
  cases m
  exact OrderedMap.mk.injEq _ _ _ _ ▸ hentries

theorem ofList_eq_ofListFirst_iff (l : List (String × α)) :
    ofList l = ofListFirst l ↔ ∀ key, l.reverse.lookup key = l.lookup key := by
  constructor
  · intro h key
    rw [← find?_ofList, h, find?_ofListFirst]
  · intro h
    apply eq_of_find?_eq (by rw [keys_ofList, keys_ofListFirst])
    intro key
    rw [find?_ofList, find?_ofListFirst, h key]

def without (m : OrderedMap α) (key : String) : List (String × α) := m.entries.filter (·.1 ≠ key)

theorem filter_putEntry (key : String) (value : α) :
    ∀ l : List (String × α), (putEntry key value l).filter (·.1 ≠ key) = l.filter (·.1 ≠ key) := by
  intro l
  induction l with
  | nil => simp [putEntry]
  | cons e l ih =>
      simp only [putEntry]
      split
      · next he => simp [he]
      · next he => simpa [List.filter_cons, he] using ih

theorem without_put_self (m : OrderedMap α) (key : String) (value : α) :
    (m.put key value).without key = m.without key :=
  filter_putEntry key value m.entries

theorem entries_foldl_put (l : List (String × α)) :
    ∀ m : OrderedMap α, (m.keys ++ l.map Prod.fst).Nodup →
      (l.foldl (fun m e => m.put e.1 e.2) m).entries = m.entries ++ l := by
  induction l with
  | nil => intro m _; simp
  | cons e l ih =>
      intro m h
      have hsplit := h
      simp only [List.map_cons, List.nodup_append, List.nodup_cons] at hsplit
      have he : e.1 ∉ m.entries.map Prod.fst := fun hm => hsplit.2.2 _ hm _ (by simp) rfl
      have hput : (m.put e.1 e.2).entries = m.entries ++ [e] := putEntry_of_not_mem he
      rw [List.foldl_cons, ih, hput]
      · simp
      · simpa [keys, hput] using h

theorem entries_ofList {l : List (String × α)} (h : (l.map Prod.fst).Nodup) :
    (ofList l).entries = l :=
  entries_foldl_put l empty (by simpa [keys, empty] using h)

theorem ofList_entries (m : OrderedMap α) : ofList m.entries = m := by
  have h : (ofList m.entries).entries = m.entries := entries_ofList m.nodup
  cases m
  exact OrderedMap.mk.injEq _ _ _ _ ▸ h

theorem foldl_putNew_eq_foldl_put (l : List (String × α)) :
    ∀ m : OrderedMap α, (m.keys ++ l.map Prod.fst).Nodup →
      l.foldl (fun m e => m.putNew e.1 e.2) m = l.foldl (fun m e => m.put e.1 e.2) m := by
  induction l with
  | nil => intro m _; rfl
  | cons e l ih =>
      intro m h
      have hsplit := h
      rw [List.map_cons, List.nodup_append] at hsplit
      have he : e.1 ∉ m.keys := fun hm => hsplit.2.2 _ hm _ List.mem_cons_self rfl
      have hnew : m.putNew e.1 e.2 = m.put e.1 e.2 := by
        rw [putNew, contains, find?_eq_none_iff.mpr he]
        rfl
      rw [List.foldl_cons, List.foldl_cons, hnew, ih]
      rw [keys_put_of_not_mem he, List.append_assoc, List.singleton_append]
      exact h

theorem ofListFirst_eq_ofList {l : List (String × α)} (h : (l.map Prod.fst).Nodup) :
    ofListFirst l = ofList l :=
  foldl_putNew_eq_foldl_put l empty h

theorem find?_merge (m n : OrderedMap α) (key : String) :
    (m.merge n).find? key = (n.find? key).or (m.find? key) := by
  rw [merge, find?_foldl_put, ← find?_ofList, ofList_entries]

def Agree (m n : OrderedMap α) : Prop :=
  ∀ key value other, (key, value) ∈ m.entries → (key, other) ∈ n.entries → value = other

theorem mem_entries_merge {m n : OrderedMap α} (h : m.Agree n) {key : String} {value : α} :
    (key, value) ∈ (m.merge n).entries ↔ (key, value) ∈ m.entries ∨ (key, value) ∈ n.entries := by
  rw [← find?_eq_some_iff, find?_merge, Option.or_eq_some_iff]
  constructor
  · rintro (hn | ⟨-, hm⟩)
    · exact .inr (find?_eq_some_iff.mp hn)
    · exact .inl (find?_eq_some_iff.mp hm)
  · rintro (hm | hn)
    · cases hother : n.find? key with
      | none => exact .inr ⟨rfl, find?_eq_some_iff.mpr hm⟩
      | some other =>
          have hvalue : value = other := h key value other hm (find?_eq_some_iff.mp hother)
          exact .inl (congrArg some hvalue.symm)
    · exact .inl (find?_eq_some_iff.mpr hn)

theorem isEmpty_merge {m n : OrderedMap α} :
    (m.merge n).isEmpty = true ↔ m.isEmpty = true ∧ n.isEmpty = true := by
  simp only [isEmpty_iff, mem_keys_merge, not_or, forall_and]
  exact and_comm

theorem lookup_map (f : β → String) (g : β → α) (key : String) (l : List β) :
    (l.map (fun b => (f b, g b))).lookup key = (l.find? (f · = key)).map g := by
  induction l with
  | nil => rfl
  | cons b l ih =>
      rw [List.map_cons, List.lookup_cons, List.find?_cons]
      by_cases h : f b = key
      · simp [h]
      · simp [h, beq_false_of_ne (Ne.symm h), ih]

theorem lookup_map_pair (f : String → α) (key : String) :
    ∀ l : List String, (l.map (fun k => (k, f k))).lookup key = if key ∈ l then some (f key) else none := by
  intro l
  induction l with
  | nil => simp
  | cons k l ih =>
      by_cases h : key = k
      · subst h; simp
      · simp [List.lookup_cons, beq_false_of_ne h, h, ih]

theorem find?_ofList_map (f : String → α) (l : List String) (key : String) :
    (ofList (l.map (fun k => (k, f k)))).find? key = if key ∈ l then some (f key) else none := by
  rw [find?_ofList, ← List.map_reverse, lookup_map_pair]
  simp

def Rearranged (R : α → α → Prop) (m n : OrderedMap α) : Prop :=
  ∃ entries, m.entries.Perm entries ∧
    List.Forall₂ (fun e e' => e.1 = e'.1 ∧ R e.2 e'.2) entries n.entries

theorem lookup_perm {l l' : List (String × α)} (h : l.Perm l') (hn : (l.map Prod.fst).Nodup)
    (key : String) : l.lookup key = l'.lookup key := by
  have hn' : (l'.map Prod.fst).Nodup := (h.map Prod.fst).nodup_iff.mp hn
  ext value
  rw [lookup_eq_some_iff hn, lookup_eq_some_iff hn', h.mem_iff]

theorem rel_lookup {R : α → α → Prop} {l l' : List (String × α)}
    (h : List.Forall₂ (fun e e' => e.1 = e'.1 ∧ R e.2 e'.2) l l') (key : String) :
    Option.Rel R (l.lookup key) (l'.lookup key) := by
  induction h with
  | nil => exact .none
  | @cons e e' _ _ he _ ih =>
      obtain ⟨k, v⟩ := e
      obtain ⟨k', v'⟩ := e'
      obtain ⟨rfl, hv⟩ := he
      by_cases hk : key = k
      · simpa only [List.lookup_cons, hk, beq_self_eq_true] using Option.Rel.some hv
      · simpa only [List.lookup_cons, beq_false_of_ne hk] using ih

theorem Rearranged.find?_cases {R : α → α → Prop} {m n : OrderedMap α} (h : m.Rearranged R n)
    (key : String) :
    (m.find? key = none ∧ n.find? key = none) ∨
      ∃ value other, m.find? key = some value ∧ n.find? key = some other ∧ R value other := by
  obtain ⟨entries, hperm, hentries⟩ := h
  have hrel := rel_lookup hentries key
  rw [← lookup_perm hperm m.nodup] at hrel
  unfold find?
  generalize m.entries.lookup key = found, n.entries.lookup key = found' at hrel ⊢
  cases hrel with
  | none => exact Or.inl ⟨rfl, rfl⟩
  | some hvalue => exact Or.inr ⟨_, _, rfl, rfl, hvalue⟩

end Worksheet.OrderedMap
