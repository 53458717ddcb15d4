namespace Gatehouse

/-- A map from names, in the order in which the names were first given. -/
structure Keyed (α : Type) where
  entries : List (String × α)
  distinct : (entries.map Prod.fst).Nodup

namespace Keyed

variable {α β : Type}

def empty : Keyed α := ⟨[], List.nodup_nil⟩

instance : Inhabited (Keyed α) := ⟨empty⟩

def keys (m : Keyed α) : List String := m.entries.map Prod.fst

def size (m : Keyed α) : Nat := m.entries.length

def get? (m : Keyed α) (name : String) : Option α := m.entries.lookup name

def contains (m : Keyed α) (name : String) : Bool := m.keys.contains name

section

variable {κ : Type} [DecidableEq κ]

/-- Replaces the value of a key that is there, and puts a new key at the end. -/
def insertEntry (name : κ) (a : α) : List (κ × α) → List (κ × α)
  | [] => [(name, a)]
  | (n, b) :: rest => if n = name then (n, a) :: rest else (n, b) :: insertEntry name a rest

theorem keys_insertEntry (name : κ) (a : α) (entries : List (κ × α)) :
    (insertEntry name a entries).map Prod.fst =
      if name ∈ entries.map Prod.fst then entries.map Prod.fst
      else entries.map Prod.fst ++ [name] := by
  induction entries with
  | nil => simp [insertEntry]
  | cons e rest ih =>
    obtain ⟨n, b⟩ := e
    by_cases h : n = name
    · simp [insertEntry, h]
    · have h' : ¬name = n := fun eq => h eq.symm
      by_cases hm : name ∈ rest.map Prod.fst
      · simp only [insertEntry, h, if_false, List.map_cons, List.mem_cons, h', hm, or_true,
          if_true] at ih ⊢
        rw [ih]
      · simp only [insertEntry, h, if_false, List.map_cons, List.mem_cons, h', hm, or_false,
          List.cons_append] at ih ⊢
        rw [ih]

/-- A new key goes to the end. -/
theorem insertEntry_of_new (name : κ) (a : α) {entries : List (κ × α)}
    (new : name ∉ entries.map Prod.fst) : insertEntry name a entries = entries ++ [(name, a)] := by
  induction entries with
  | nil => rfl
  | cons e rest ih =>
    obtain ⟨n, b⟩ := e
    have hn : ¬n = name := fun eq => new (by simp [eq])
    have hrest : name ∉ rest.map Prod.fst := fun hm => new (List.mem_cons_of_mem _ hm)
    simp [insertEntry, hn, ih hrest]

theorem nodup_insertEntry (name : κ) (a : α) {entries : List (κ × α)}
    (h : (entries.map Prod.fst).Nodup) : ((insertEntry name a entries).map Prod.fst).Nodup := by
  rw [keys_insertEntry]
  split
  next => exact h
  next hm =>
    rw [List.nodup_append]
    refine ⟨h, by simp, ?_⟩
    intro x hx y hy eq
    exact hm (List.mem_singleton.mp hy ▸ eq ▸ hx)

theorem lookup_insertEntry [BEq κ] [LawfulBEq κ] (name other : κ) (a : α)
    (entries : List (κ × α)) :
    (insertEntry name a entries).lookup other =
      if other = name then some a else entries.lookup other := by
  induction entries with
  | nil =>
    by_cases h : other = name
    · simp [insertEntry, h]
    · simp [insertEntry, List.lookup_cons, h, beq_eq_false_iff_ne.mpr h]
  | cons e rest ih =>
    obtain ⟨n, b⟩ := e
    by_cases hn : n = name
    · subst hn
      by_cases h : other = n
      · simp [insertEntry, h]
      · simp [insertEntry, List.lookup_cons, h, beq_eq_false_iff_ne.mpr h]
    · by_cases ho : other = n
      · subst ho
        simp [insertEntry, hn]
      · simp [insertEntry, List.lookup_cons, hn, beq_eq_false_iff_ne.mpr ho, ih]

end

def insert (m : Keyed α) (name : String) (a : α) : Keyed α :=
  ⟨insertEntry name a m.entries, nodup_insertEntry name a m.distinct⟩

def ofList (entries : List (String × α)) : Keyed α :=
  entries.foldl (fun m e => m.insert e.1 e.2) empty

theorem keys_insert (m : Keyed α) (name : String) (a : α) :
    (m.insert name a).keys = if name ∈ m.keys then m.keys else m.keys ++ [name] :=
  keys_insertEntry name a m.entries

theorem get?_insert (m : Keyed α) (name : String) (a : α) (other : String) :
    (m.insert name a).get? other = if other = name then some a else m.get? other :=
  lookup_insertEntry name other a m.entries

theorem contains_iff {m : Keyed α} {name : String} : m.contains name = true ↔ name ∈ m.keys :=
  List.contains_iff_mem

theorem get?_eq_none_iff {m : Keyed α} {name : String} : m.get? name = none ↔ name ∉ m.keys := by
  rw [get?, List.lookup_eq_none_iff]
  simp only [keys, List.mem_map, not_exists, not_and, bne_iff_ne]
  exact ⟨fun h e he eq => h e he eq.symm, fun h e he eq => h e he eq.symm⟩

theorem mem_keys_iff {m : Keyed α} {name : String} :
    name ∈ m.keys ↔ ∃ a, m.get? name = some a := by
  rw [← Option.isSome_iff_exists, Option.isSome_iff_ne_none, ne_eq, get?_eq_none_iff,
    Decidable.not_not]

/-- As the names are distinct, an entry is what its name gives. -/
theorem get?_eq_some_iff {m : Keyed α} {name : String} {a : α} :
    m.get? name = some a ↔ (name, a) ∈ m.entries := by
  obtain ⟨entries, distinct⟩ := m
  induction entries with
  | nil => simp [get?]
  | cons e rest ih =>
    obtain ⟨n, b⟩ := e
    have hd := List.nodup_cons.mp distinct
    have ih := ih hd.2
    by_cases h : name = n
    · subst h
      have fresh : (name, a) ∉ rest := fun hm => hd.1 (List.mem_map.mpr ⟨_, hm, rfl⟩)
      simp [get?, fresh, eq_comm]
    · simpa [get?, List.lookup_cons, beq_eq_false_iff_ne.mpr h, h] using ih

end Keyed

end Gatehouse
