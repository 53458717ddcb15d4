import Gatehouse.Proofs.CollegeCalls

namespace Gatehouse

theorem Comparison.parse?_eq_custom_iff {s : String} : parse? s = some custom ↔ s = "custom" := by
  constructor
  · intro h
    rcases Option.or_eq_some_iff.mp h with named | ⟨-, named⟩
    · have row : ∀ row ∈ aliases, row.2 ≠ custom := by decide
      obtain ⟨before, after, rows, -⟩ := List.lookup_eq_some_iff.mp named
      exact absurd rfl (row (s, custom) (by rw [rows]; simp))
    · have same := List.find?_some named
      exact (beq_iff_eq.mp same).symm
  · rintro rfl
    decide

theorem registeredExpression?_eq_none_iff {name : String} :
    registeredExpression? name = none ↔ ∀ k : KnownCondition, name ∉ k.synonyms := by
  have every (k : KnownCondition) : k ∈ KnownCondition.all := by cases k <;> decide
  rw [registeredExpression?, Option.map_eq_none_iff, KnownCondition.ofName?, List.find?_eq_none]
  constructor
  · exact fun h k known => h k (every k) (by simpa using known)
  · exact fun h k _ known => h k (by simpa using known)

theorem methodFor_eq_none_iff {entity property : Option String} :
    methodFor entity property = none ↔ property ∈ [none, some ""] := by
  cases property with
  | none => simp [methodFor]
  | some p =>
    by_cases empty : p = ""
    · simp [methodFor, empty]
    · rw [methodFor, if_neg empty]
      split
      next => simp [empty]
      next => cases entityOf? entity <;> simp [empty]

namespace Condition

variable {c : Condition}

/-- The value is a text with more than blanks in it. -/
def HasOwnText (c : Condition) : Prop :=
  ∃ s, c.value = .text s ∧ ∃ char ∈ s.toList, isBlank char = false

/-- Neither a method nor the name nor a property tells what to call. -/
def NamesNoCall (c : Condition) : Prop :=
  c.rubyMethod ∈ [none, some "", some "custom"] ∧
    (∀ k : KnownCondition, c.name ∉ k.synonyms) ∧ c.property ∈ [none, some ""]

/-- A custom condition says what to write, and any other one what to call. -/
def LacksExpression (c : Condition) : Prop :=
  (c.comparison = some "custom" ∧ ¬c.HasOwnText) ∨ (c.comparison ≠ some "custom" ∧ c.NamesNoCall)

/-- The expression compares what a method gives with the value of the condition. -/
def ComparesValue (c : Condition) : Prop :=
  c.comparison ≠ some "custom" ∧ c.rubyMethod.any endsWithMark = false ∧
    (∀ k : KnownCondition, c.name ∉ k.synonyms) ∧ c.asksHomeSchool = false ∧
    ∃ method, c.calledMethod? = some method ∧ c.showsValue method = true

theorem comparisonKind_eq_custom_iff :
    c.comparisonKind = some .custom ↔ c.comparison = some "custom" := by
  rw [comparisonKind, Option.bind_eq_some_iff]
  simp only [Comparison.parse?_eq_custom_iff, exists_eq_right]

theorem result_compileCustom_eq_none_iff : c.compileCustom.result = none ↔ ¬c.HasOwnText := by
  rw [← Option.not_isSome_iff_eq_none, Option.isSome_iff_exists, not_iff_not]
  constructor
  · rintro ⟨e, written⟩
    obtain ⟨s, value, ink, -⟩ := result_compileCustom_eq_some_iff.mp written
    exact ⟨s, value, by simpa [hasInk] using ink⟩
  · rintro ⟨s, value, ink⟩
    exact ⟨_, result_compileCustom_eq_some_iff.mpr ⟨s, value, by simpa [hasInk] using ink, rfl⟩⟩

theorem calledMethod?_eq_none_iff : c.calledMethod? = none ↔
    c.rubyMethod ∈ [none, some "", some "custom"] ∧ c.property ∈ [none, some ""] := by
  change _ ↔ c.rubyMethod ∈ [none, some "", some Comparison.custom.name] ∧ _
  rw [calledMethod?_eq]
  split
  next own => rw [and_iff_right own, methodFor_eq_none_iff]
  next own => exact iff_of_false (fun absent => own (by simp [absent])) fun h => own h.1

theorem negateIf_ne_empty {text : String} (negated : Bool) (h : text ≠ "") :
    negateIf negated text ≠ "" := by
  cases negated with
  | false => exact h
  | true => simp [negateIf]

/-- What a condition is compiled to is never empty. -/
theorem ne_empty_of_compile {e : String} (h : c.compile.outcome = .ok (some e)) : e ≠ "" := by
  have call (accessor rest : String) : accessor ++ "." ++ rest ≠ "" := by simp
  cases expresses_of_compile h with
  | written _ _ ink => exact trimText_ne_empty ink
  | asked => exact negateIf_ne_empty _ (call _ _)
  | @known k => cases k <;> decide
  | homeSchool => exact negateIf_ne_empty _ (by decide)
  | called =>
    obtain ⟨negated, rest, eq⟩ := c.callExpression_eq (accessorFor c.entity).result _
    exact eq ▸ negateIf_ne_empty negated (call _ rest)

theorem asksHomeSchool_of_absent (absent : c.property ∈ [none, some ""]) :
    c.asksHomeSchool = false := by
  have other : ∀ property ∈ [none, some ""], property.any homeSchoolProperties.contains = false :=
    by decide
  rw [asksHomeSchool, other _ absent, Bool.and_false]

theorem compile_fails_iff : (c.compile.outcome = .ok none ↔ c.LacksExpression) ∧
    ∀ fault, c.compile.outcome = .error fault ↔ c.ComparesValue ∧ c.value.fault? = some fault := by
  by_cases custom : c.comparisonKind = some .custom
  · have word := comparisonKind_eq_custom_iff.mp custom
    rw [compile_of_custom custom]
    simp [LacksExpression, ComparesValue, word, result_compileCustom_eq_none_iff]
  have word : c.comparison ≠ some "custom" := mt comparisonKind_eq_custom_iff.mpr custom
  have lacks : c.LacksExpression ↔ c.NamesNoCall := by simp [LacksExpression, word]
  rw [lacks]
  cases marked : c.rubyMethod.any endsWithMark with
  | true =>
    rw [compile_of_marked custom marked]
    exact ⟨iff_of_false nofun fun h => own_of_marked marked h.1,
      fun fault => iff_of_false nofun fun h => by simp [ComparesValue, marked] at h⟩
  | false =>
    cases registered : registeredExpression? c.name with
    | some expression =>
      have known : ¬∀ k : KnownCondition, c.name ∉ k.synonyms := fun h => by
        rw [registeredExpression?_eq_none_iff.mpr h] at registered
        cases registered
      rw [compile_of_registered custom marked registered]
      exact ⟨iff_of_false nofun fun h => known h.2.1,
        fun fault => iff_of_false nofun fun h => known h.1.2.2.1⟩
    | none =>
      have unknown := registeredExpression?_eq_none_iff.mp registered
      rw [compile_of_unregistered custom marked registered]
      cases home : c.asksHomeSchool with
      | true =>
        rw [if_pos rfl]
        refine ⟨iff_of_false nofun fun h => ?_, fun fault => iff_of_false nofun fun h => ?_⟩
        · rw [asksHomeSchool_of_absent h.2.2] at home
          cases home
        · rw [h.1.2.2.2.1] at home
          cases home
      | false =>
        rw [if_neg Bool.false_ne_true, compileCall_iff.1, calledMethod?_eq_none_iff]
        refine ⟨by simp [NamesNoCall, unknown], fun fault => ?_⟩
        rw [compileCall_iff.2.1]
        simp [ComparesValue, word, marked, unknown, home]

/-- Compiling comes to nothing exactly if a custom condition has no text of its own, or any other
one no method, no known name and no property. Every other condition is compiled to an expression
that is not empty, unless the expression compares something with the value of the condition and
that value cannot be written. -/
theorem compile_outcome_iff (c : Condition) :
    (c.compile.outcome = .ok none ↔ c.LacksExpression) ∧
      ((∃ e, c.compile.outcome = .ok (some e) ∧ e ≠ "") ↔
        ¬c.LacksExpression ∧ ¬(c.ComparesValue ∧ c.value.fault?.isSome = true)) ∧
      ∀ fault, c.compile.outcome = .error fault ↔
        c.ComparesValue ∧ c.value.fault? = some fault := by
  obtain ⟨absent, faulty⟩ := c.compile_fails_iff
  refine ⟨absent, ?_, faulty⟩
  have broken : c.ComparesValue ∧ c.value.fault?.isSome = true ↔
      ∃ fault, c.compile.outcome = .error fault := by
    simp [faulty, Option.isSome_iff_exists]
  rw [broken, ← absent]
  cases compiled : c.compile.outcome with
  | error fault => simp
  | ok found =>
    cases found with
    | none => simp
    | some e => simpa using ne_empty_of_compile compiled

/-- A number that is too long ends the compilation of a condition that names its property; without
the property nothing is called, and the number does not matter. -/
theorem compile_outcome_longNumber :
    let c := { propertyCondition "gpa" "Student" "gpa" with
      value := .int (Int.ofNat (Nat.pow 10 Value.mostDigits)) }
    ¬c.LacksExpression ∧ (¬∃ e, c.compile.outcome = .ok (some e) ∧ e ≠ "") ∧
      c.compile.outcome = .error .longNumber ∧
      ({ c with property := none } : Condition).compile.outcome = .ok none := by
  intro c
  have unknown : ∀ k : KnownCondition, "gpa" ∉ k.synonyms := fun k => by cases k <;> decide
  have compares : c.ComparesValue := ⟨by decide, rfl, unknown, rfl, "gpa", rfl, rfl⟩
  have long : c.value.fault? = some .longNumber := by decide +kernel
  obtain ⟨-, whole, faulty⟩ := compile_outcome_iff c
  have names : ¬c.LacksExpression := by
    rintro (⟨word, -⟩ | ⟨-, h⟩)
    · exact absurd word (by decide)
    · exact absurd h.2.2 (by decide)
  refine ⟨names, fun h => (whole.mp h).2 ⟨compares, by rw [long]; rfl⟩,
    (faulty .longNumber).mpr ⟨compares, long⟩, ?_⟩
  exact (compile_outcome_iff { c with property := none }).1.mpr
    (.inr ⟨by decide, by decide, unknown, by decide⟩)

end Condition

end Gatehouse
