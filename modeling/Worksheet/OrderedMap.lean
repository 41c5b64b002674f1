namespace Worksheet

-- Entries with pairwise distinct keys, in the order of first insertion.
structure OrderedMap (α : Type u) where
  entries : List (String × α)
  nodup : (entries.map Prod.fst).Nodup
  deriving DecidableEq, Repr

namespace OrderedMap

variable {α : Type u} {β : Type v}

def empty : OrderedMap α := ⟨[], List.nodup_nil⟩

instance : EmptyCollection (OrderedMap α) := ⟨empty⟩

instance : Inhabited (OrderedMap α) := ⟨empty⟩

def keys (m : OrderedMap α) : List String := m.entries.map Prod.fst

def find? (m : OrderedMap α) (key : String) : Option α := m.entries.lookup key

def contains (m : OrderedMap α) (key : String) : Bool := (m.find? key).isSome

def size (m : OrderedMap α) : Nat := m.entries.length

def isEmpty (m : OrderedMap α) : Bool := m.entries.isEmpty

def putEntry (key : String) (value : α) : List (String × α) → List (String × α)
  | [] => [(key, value)]
  | e :: l => if e.1 = key then (key, value) :: l else e :: putEntry key value l

theorem mem_keys_putEntry {key k : String} {value : α} :
    ∀ {l : List (String × α)},
      k ∈ (putEntry key value l).map Prod.fst ↔ k = key ∨ k ∈ l.map Prod.fst := by
  intro l
  induction l with
  | nil => simp [putEntry]
  | cons e l ih =>
      simp only [putEntry]
      split
      · next h => simp [h]
      · simp only [List.map_cons, List.mem_cons, ih]
        constructor
        · rintro (h | h | h) <;> simp [h]
        · rintro (h | h | h) <;> simp [h]

theorem nodup_putEntry (key : String) (value : α) :
    ∀ {l : List (String × α)},
      (l.map Prod.fst).Nodup → ((putEntry key value l).map Prod.fst).Nodup := by
  intro l
  induction l with
  | nil => intro _; simp [putEntry]
  | cons e l ih =>
      intro h
      simp only [List.map_cons, List.nodup_cons] at h
      simp only [putEntry]
      split
      · next he => simpa [← he] using h
      · next he =>
          simp only [List.map_cons, List.nodup_cons, mem_keys_putEntry]
          exact ⟨fun hk => hk.elim he h.1, ih h.2⟩

def put (m : OrderedMap α) (key : String) (value : α) : OrderedMap α :=
  ⟨putEntry key value m.entries, nodup_putEntry key value m.nodup⟩

-- A key that is present keeps its value.
def putNew (m : OrderedMap α) (key : String) (value : α) : OrderedMap α :=
  if m.contains key then m else m.put key value

-- Puts the entries in turn, so the last value of a repeated key counts.
def ofList (l : List (String × α)) : OrderedMap α :=
  l.foldl (fun m e => m.put e.1 e.2) empty

-- Puts the entries in turn, so the first value of a repeated key counts.
def ofListFirst (l : List (String × α)) : OrderedMap α :=
  l.foldl (fun m e => m.putNew e.1 e.2) empty

def merge (m n : OrderedMap α) : OrderedMap α :=
  n.entries.foldl (fun m e => m.put e.1 e.2) m

theorem mem_keys_put {m : OrderedMap α} {key k : String} {value : α} :
    k ∈ (m.put key value).keys ↔ k = key ∨ k ∈ m.keys :=
  mem_keys_putEntry

theorem lookup_putEntry (key k : String) (value : α) :
    ∀ (l : List (String × α)),
      (putEntry key value l).lookup k = if k = key then some value else l.lookup k := by
  intro l
  induction l with
  | nil =>
      by_cases h : k = key
      · simp [putEntry, h]
      · simp [putEntry, List.lookup_cons, h, beq_false_of_ne h]
  | cons e l ih =>
      obtain ⟨k', v⟩ := e
      simp only [putEntry]
      by_cases h' : k' = key
      · by_cases h : k = key
        · simp [h', h]
        · simp [h', h, List.lookup_cons, beq_false_of_ne h]
      · by_cases h : k = k'
        · subst h; simp [h']
        · simp [h', List.lookup_cons, beq_false_of_ne h, ih]

theorem find?_put (m : OrderedMap α) (key k : String) (value : α) :
    (m.put key value).find? k = if k = key then some value else m.find? k :=
  lookup_putEntry key k value m.entries

end OrderedMap

end Worksheet
