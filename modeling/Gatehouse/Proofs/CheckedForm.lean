import Gatehouse.Workflow.Reading

namespace Gatehouse

namespace Checked

variable {α β : Type}

theorem map_eq_valid {f : α → β} {x : Checked α} {b : β} :
    x.map f = .valid b ↔ ∃ a, x = .valid a ∧ f a = b := by
  cases x with
  | valid a => simp [map]
  | faulty issues => simp [map]

theorem fmap_eq_valid {f : α → β} {x : Checked α} {b : β} :
    f <$> x = .valid b ↔ ∃ a, x = .valid a ∧ f a = b := map_eq_valid

theorem apply_eq_valid {f : Checked (α → β)} {x : Checked α} {b : β} :
    apply f x = .valid b ↔ ∃ g a, f = .valid g ∧ x = .valid a ∧ g a = b := by
  cases f with
  | valid g =>
    cases x with
    | valid a => simp [apply]
    | faulty issues => simp [apply]
  | faulty issues =>
    cases x with
    | valid a => simp [apply]
    | faulty more => simp [apply]

theorem seq_eq_valid {f : Checked (α → β)} {x : Checked α} {b : β} :
    f <*> x = .valid b ↔ ∃ g a, f = .valid g ∧ x = .valid a ∧ g a = b := apply_eq_valid

theorem within_eq_valid {x : Checked α} {place : Place} {a : α} :
    x.within place = .valid a ↔ x = .valid a := by
  cases x with
  | valid a => rfl
  | faulty issues => simp [within]

/-- The values of a list are valid if each of them is. -/
theorem sequence_eq_valid {checks : List (Checked α)} {xs : List α} :
    sequence checks = .valid xs ↔ checks = xs.map .valid := by
  induction checks generalizing xs with
  | nil => cases xs <;> simp [sequence]
  | cons c rest ih =>
    rw [sequence, apply_eq_valid]
    constructor
    · rintro ⟨g, ys, first, rest, rfl⟩
      obtain ⟨x, rfl, rfl⟩ := map_eq_valid.mp first
      rw [ih.mp rest, List.map_cons]
    · intro eq
      cases xs with
      | nil => cases eq
      | cons x xs =>
        obtain ⟨rfl, rest⟩ := List.cons.inj eq
        exact ⟨_, xs, rfl, ih.mpr rest, rfl⟩

/-- Values that are written item by item are read item by item. -/
theorem ofItems_map {check : Value → Checked α} (write : α → Value) {xs : List α}
    (read : ∀ a ∈ xs, check (write a) = .valid a) :
    ofItems check (xs.map write) = .valid xs := by
  rw [ofItems, sequence_eq_valid]
  apply List.ext_getElem
  · simp
  · intro i _ _
    simp [read, within]

theorem read_of_ofItems {check : Value → Checked α} {xs : List Value} {ys : List α}
    (h : ofItems check xs = .valid ys) {y : α} (hy : y ∈ ys) : ∃ x, check x = .valid y := by
  have listed : Checked.valid y ∈ ys.map Checked.valid := List.mem_map_of_mem hy
  rw [← sequence_eq_valid.mp h] at listed
  obtain ⟨⟨x, i⟩, -, eq⟩ := List.mem_map.mp listed
  exact ⟨x, within_eq_valid.mp eq⟩

theorem length_ofItems {check : Value → Checked α} {xs : List Value} {ys : List α}
    (h : ofItems check xs = .valid ys) : ys.length = xs.length := by
  have lengths := congrArg List.length (sequence_eq_valid.mp h)
  simpa using lengths.symm

end Checked

namespace Keyed

variable {α : Type}

/-- The value of a name is the one that it is given last. -/
theorem get?_foldl_insert {m : Keyed α} {entries : List (String × α)} {name : String} {a : α}
    (h : (entries.foldl (fun m e => m.insert e.1 e.2) m).get? name = some a) :
    m.get? name = some a ∧ name ∉ entries.map Prod.fst ∨
      ∃ before after, entries = before ++ (name, a) :: after ∧ name ∉ after.map Prod.fst := by
  induction entries generalizing m with
  | nil => exact Or.inl ⟨h, List.not_mem_nil⟩
  | cons e rest ih =>
    rcases ih h with ⟨before, last⟩ | ⟨before, after, rfl, last⟩
    · rw [get?_insert] at before
      split at before
      next same =>
        cases Option.some.inj before
        exact Or.inr ⟨[], rest, by rw [same]; rfl, last⟩
      next other => exact Or.inl ⟨before, by simp [other, last]⟩
    · exact Or.inr ⟨e :: before, after, rfl, last⟩

theorem last_of_mem_ofList {entries : List (String × α)} {e : String × α}
    (h : e ∈ (ofList entries).entries) :
    ∃ before after, entries = before ++ e :: after ∧ e.1 ∉ after.map Prod.fst := by
  rcases get?_foldl_insert (get?_eq_some_iff.mpr h) with ⟨none, -⟩ | given
  · cases none
  · exact given

theorem mem_of_mem_ofList {entries : List (String × α)} {e : String × α}
    (h : e ∈ (ofList entries).entries) : e ∈ entries := by
  obtain ⟨before, after, rfl, -⟩ := last_of_mem_ofList h
  simp

/-- A map is what its entries are read as. -/
theorem ofList_entries (m : Keyed α) : ofList m.entries = m := by
  have entries (before : Keyed α) (more : List (String × α))
      (distinct : ((before.entries ++ more).map Prod.fst).Nodup) :
      (more.foldl (fun m e => m.insert e.1 e.2) before).entries = before.entries ++ more := by
    induction more generalizing before with
    | nil => simp
    | cons e rest ih =>
      have new : e.1 ∉ before.entries.map Prod.fst := by
        rw [List.map_append, List.map_cons, List.nodup_append] at distinct
        exact fun old => distinct.2.2 _ old _ List.mem_cons_self rfl
      have inserted : (before.insert e.1 e.2).entries = before.entries ++ [e] :=
        insertEntry_of_new e.1 e.2 new
      rw [List.foldl_cons, ih _ (by simpa [inserted] using distinct), inserted, List.append_assoc]
      rfl
  obtain ⟨es, distinct⟩ := m
  have eq := entries empty es distinct
  cases h : ofList es with
  | mk es' distinct' =>
    rw [ofList] at h
    rw [h] at eq
    cases (eq : es' = es)
    rfl

end Keyed

namespace Value

/-- Only the same text is the same key as a text. -/
theorem sameKey_text_iff {k : Value} {name : String} :
    k.sameKey (text name) = true ↔ k = text name := by
  constructor
  · intro same
    cases k with
    | text s => simpa [sameKey, keyForm] using same
    | float x =>
      unfold sameKey at same
      simp only [keyForm] at same
      cases h : x.toInt? with
      | none => simp [h] at same
      | some i => simp [h] at same
    | _ => simp [sameKey, keyForm] at same
  · rintro rfl
    simp [sameKey, keyForm]

theorem field?_same (name : String) (v : Value) (rest : List (Value × Value)) :
    field? name ((text name, v) :: rest) = some v := by
  rw [field?, if_pos rfl]

theorem field?_other {name : String} {k : Value} (h : k ≠ text name) (v : Value)
    (rest : List (Value × Value)) : field? name ((k, v) :: rest) = field? name rest := by
  cases k with
  | text s => rw [field?, if_neg fun eq => h (congrArg text eq)]
  | _ => rfl

theorem exists_field?_of_mem {name : String} {v : Value} {entries : List (Value × Value)}
    (h : (text name, v) ∈ entries) : ∃ u, field? name entries = some u := by
  induction entries with
  | nil => cases h
  | cons e rest ih =>
    obtain ⟨k, u⟩ := e
    by_cases eq : k = text name
    · exact ⟨u, by rw [eq, field?_same]⟩
    · rw [field?_other eq]
      rcases List.mem_cons.mp h with first | later
      · exact absurd (Prod.mk.inj first).1.symm eq
      · exact ih later

theorem field?_setField (name key : String) (v : Value) (entries : List (Value × Value)) :
    field? name (setField key v entries) = if key = name then some v else field? name entries := by
  rw [setField]
  induction entries with
  | nil => simp [insertEntry, field?]
  | cons e rest ih =>
    obtain ⟨k, u⟩ := e
    rw [insertEntry]
    split
    next same =>
      obtain rfl := sameKey_text_iff.mp same
      by_cases eq : key = name
      · rw [eq, field?_same, if_pos rfl]
      · have other : text key ≠ text name := fun h => eq (text.inj h)
        rw [field?_other other, field?_other other, if_neg eq]
    next different =>
      by_cases eq : k = text name
      · have other : key ≠ name := fun h => different (sameKey_text_iff.mpr (h ▸ eq))
        rw [eq, field?_same, field?_same, if_neg other]
      · rw [field?_other eq, ih, field?_other eq]

/-- Giving a key a value adds no other key. -/
theorem key_of_mem_setField {name : String} {k u v : Value} {entries : List (Value × Value)}
    (h : (k, u) ∈ setField name v entries) : k = text name ∨ ∃ u', (k, u') ∈ entries := by
  rw [setField] at h
  induction entries with
  | nil =>
    rw [insertEntry, List.mem_singleton] at h
    exact Or.inl (Prod.mk.inj h).1
  | cons e rest ih =>
    obtain ⟨k', v'⟩ := e
    rw [insertEntry] at h
    split at h
    next =>
      rcases List.mem_cons.mp h with eq | later
      · exact Or.inr ⟨v', (Prod.mk.inj eq).1 ▸ List.mem_cons_self⟩
      · exact Or.inr ⟨u, List.mem_cons_of_mem _ later⟩
    next =>
      rcases List.mem_cons.mp h with eq | later
      · exact Or.inr ⟨v', (Prod.mk.inj eq).1 ▸ List.mem_cons_self⟩
      · rcases ih later with new | ⟨u', old⟩
        · exact Or.inl new
        · exact Or.inr ⟨u', List.mem_cons_of_mem _ old⟩

/-- A key that has a value may be given it once more. -/
theorem setField_of_field? {name : String} {v : Value} {entries : List (Value × Value)}
    (given : field? name entries = some v) : setField name v entries = entries := by
  rw [setField]
  induction entries with
  | nil => cases given
  | cons e rest ih =>
    obtain ⟨k, u⟩ := e
    rw [insertEntry]
    split
    next same =>
      rw [sameKey_text_iff.mp same, field?_same] at given
      rw [Option.some.inj given]
    next different =>
      rw [field?_other fun eq => different (sameKey_text_iff.mpr eq)] at given
      rw [ih given]

end Value

end Gatehouse
