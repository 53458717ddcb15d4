import Gatehouse.Proofs.CheckedForm
import Mathlib.Data.List.Basic

namespace Gatehouse

/-- A record as entries: its fields under their main names, then what is given beside them. -/
def recordEntries (fields : List (FieldName × Value)) (extra : Keyed Value) :
    List (Value × Value) :=
  fields.map (fun f => (.text f.1.main, f.2)) ++ extra.entries.map fun e => (.text e.1, e.2)

/-- The names are no main names of fields, and a record may have them. -/
structure StandsBeside (fields : List FieldName) (extra : Keyed Value) : Prop where
  other : ∀ k ∈ extra.keys, ∀ f ∈ fields, k ≠ f.main
  encodable : ∀ k ∈ extra.keys, encodingFault? k = none

/-- The fields can be told apart by their main names, and a record may have these. -/
def AreFields (fields : List FieldName) : Prop :=
  (fields.map FieldName.main).Nodup ∧ ∀ f ∈ fields, encodingFault? f.main = none

instance (fields : List FieldName) : Decidable (AreFields fields) :=
  inferInstanceAs (Decidable (_ ∧ _))

theorem FieldName.given?_of_main {f : FieldName} {entries : List (Value × Value)} {v : Value}
    (h : Value.field? f.main entries = some v) : f.given? entries = some (f.main, v) := by
  rw [given?, h]

theorem hasBrokenKey_eq_false_iff {entries : List (Value × Value)} :
    hasBrokenKey entries = false ↔ ∀ s v, (.text s, v) ∈ entries → encodingFault? s = none := by
  rw [hasBrokenKey, List.any_eq_false]
  constructor
  · intro h s v given
    simpa using h _ given
  · rintro h ⟨k, v⟩ given
    cases k with
    | text s => simp [h s v given]
    | _ => simp

theorem hasBrokenKey_setField {name : String} {entries : List (Value × Value)} (v : Value)
    (hn : encodingFault? name = none) (h : hasBrokenKey entries = false) :
    hasBrokenKey (Value.setField name v entries) = false := by
  rw [hasBrokenKey_eq_false_iff] at h ⊢
  intro s u given
  rcases Value.key_of_mem_setField given with eq | ⟨u', old⟩
  · rw [Value.text.inj eq, hn]
  · exact h s u' old

section

variable {fields : List (FieldName × Value)} {extra : Keyed Value}

theorem field?_recordEntries {f : FieldName} {v : Value} (hf : AreFields (fields.map Prod.fst))
    (h : (f, v) ∈ fields) : Value.field? f.main (recordEntries fields extra) = some v := by
  have distinct := hf.1
  clear hf
  rw [recordEntries]
  induction fields with
  | nil => cases h
  | cons g rest ih =>
    rw [List.map_cons, List.map_cons, List.nodup_cons] at distinct
    rw [List.map_cons, List.cons_append]
    rcases List.mem_cons.mp h with rfl | later
    · exact Value.field?_same ..
    · have other : Value.text g.1.main ≠ .text f.main := by
        intro eq
        refine distinct.1 ?_
        rw [Value.text.inj eq]
        exact List.mem_map_of_mem (List.mem_map_of_mem later)
      rw [Value.field?_other other]
      exact ih later distinct.2

/-- A field of a record is read as what it was written as. -/
theorem check_recordEntries {α : Type} {f : FieldName} {v : Value} {absent : Checked α}
    {reader : Value → Checked α} {a : α} (hf : AreFields (fields.map Prod.fst))
    (h : (f, v) ∈ fields) (read : reader v = .valid a) :
    f.check (recordEntries fields extra) absent reader = .valid a := by
  rw [FieldName.check, FieldName.given?_of_main (field?_recordEntries hf h)]
  exact Checked.within_eq_valid.mpr read

theorem hasBrokenKey_recordEntries (hf : AreFields (fields.map Prod.fst))
    (beside : StandsBeside (fields.map Prod.fst) extra) :
    hasBrokenKey (recordEntries fields extra) = false := by
  rw [hasBrokenKey_eq_false_iff, recordEntries]
  intro s v given
  rcases List.mem_append.mp given with field | more
  · obtain ⟨f, hmem, eq⟩ := List.mem_map.mp field
    cases eq
    exact hf.2 f.1 (List.mem_map_of_mem hmem)
  · obtain ⟨e, hmem, eq⟩ := List.mem_map.mp more
    cases eq
    exact beside.encodable e.1 (List.mem_map_of_mem hmem)

/-- What an entry of a record gives beside the fields that are used. -/
def besideFields (used : List String) : Value × Value → Checked (List (String × Value))
  | (.text s, v) => .valid (if s ∈ used then [] else [(s, v)])
  | (k, _) => .faulty [⟨[.ofKey k], .invalidKey⟩]

theorem extraEntries_eq (names : List FieldName) (entries : List (Value × Value)) :
    extraEntries names entries = (Checked.sequence (entries.map (besideFields
      (names.filterMap fun f => (f.given? entries).map Prod.fst)))).map
        fun lists => Keyed.ofList lists.flatten :=
  rfl

/-- What stands beside the fields of a record is read back. -/
theorem extraEntries_recordEntries (hf : AreFields (fields.map Prod.fst))
    (beside : StandsBeside (fields.map Prod.fst) extra) :
    extraEntries (fields.map Prod.fst) (recordEntries fields extra) = .valid extra := by
  have used : (fields.map Prod.fst).filterMap
      (fun f => (f.given? (recordEntries fields extra)).map Prod.fst) =
      fields.map fun f => f.1.main := by
    rw [List.filterMap_map, ← List.filterMap_eq_map]
    apply List.filterMap_congr
    rintro ⟨f, v⟩ hmem
    have given : Value.field? f.main (recordEntries fields extra) = some v :=
      field?_recordEntries hf hmem
    simp [FieldName.given?_of_main given]
  rw [extraEntries_eq, used]
  have lists : Checked.sequence ((recordEntries fields extra).map
      (besideFields (fields.map fun f => f.1.main))) =
      .valid (fields.map (fun _ => []) ++ extra.entries.map fun e => [e]) := by
    rw [Checked.sequence_eq_valid, recordEntries, List.map_append, List.map_append, List.map_map,
      List.map_map, List.map_map, List.map_map]
    congr 1
    · apply List.map_congr_left
      intro f hmem
      have main : f.1.main ∈ fields.map fun f => f.1.main := List.mem_map_of_mem hmem
      simp only [Function.comp_apply, besideFields, if_pos main]
    · apply List.map_congr_left
      intro e hmem
      have other : e.1 ∉ fields.map fun f => f.1.main := by
        intro same
        obtain ⟨f, hf, eq⟩ := List.mem_map.mp same
        exact beside.other e.1 (List.mem_map_of_mem hmem) f.1 (List.mem_map_of_mem hf) eq.symm
      simp only [Function.comp_apply, besideFields, if_neg other]
  rw [Checked.map_eq_valid]
  refine ⟨_, lists, ?_⟩
  have flat : (fields.map (fun _ => ([] : List (String × Value)))
      ++ extra.entries.map fun e => [e]).flatten = extra.entries := by
    rw [List.flatten_append, List.flatten_eq_nil_iff.mpr (by simp), List.nil_append,
      ← List.flatMap_def, List.flatMap_singleton']
  rw [flat, Keyed.ofList_entries]

end

/-- What is kept beside the fields of a record is given there under no main name. -/
theorem standsBeside_of_extraEntries {fields : List FieldName} {entries : List (Value × Value)}
    {extra : Keyed Value} (unbroken : hasBrokenKey entries = false)
    (h : extraEntries fields entries = .valid extra) : StandsBeside fields extra := by
  obtain ⟨lists, valid, rfl⟩ := Checked.map_eq_valid.mp h
  rw [Checked.sequence_eq_valid] at valid
  have given : ∀ k ∈ (Keyed.ofList lists.flatten).keys, ∃ v, (.text k, v) ∈ entries ∧
      k ∉ fields.filterMap fun f => (f.given? entries).map Prod.fst := by
    intro k hk
    obtain ⟨⟨_, v⟩, kept, rfl⟩ := List.mem_map.mp hk
    obtain ⟨list, hl, mem⟩ := List.mem_flatten.mp (Keyed.mem_of_mem_ofList kept)
    have listed : Checked.valid list ∈ lists.map Checked.valid := List.mem_map_of_mem hl
    rw [← valid] at listed
    obtain ⟨⟨key, u⟩, he, eq⟩ := List.mem_map.mp listed
    cases key with
    | text s =>
      simp only [Checked.valid.injEq] at eq
      rw [← eq] at mem
      split at mem
      next => cases mem
      next unused =>
        cases List.mem_singleton.mp mem
        exact ⟨v, he, unused⟩
    | _ => cases eq
  constructor
  · rintro k hk f hf rfl
    obtain ⟨v, hv, unused⟩ := given f.main hk
    obtain ⟨u, found⟩ := Value.exists_field?_of_mem hv
    exact unused (List.mem_filterMap.mpr ⟨f, hf, by rw [FieldName.given?_of_main found]; rfl⟩)
  · intro k hk
    obtain ⟨v, hv, -⟩ := given k hk
    exact hasBrokenKey_eq_false_iff.mp unbroken k v hv

end Gatehouse
