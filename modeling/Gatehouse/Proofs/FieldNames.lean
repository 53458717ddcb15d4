import Gatehouse.Proofs.FieldLiterals

namespace Gatehouse

/-- Small letters, digits and underscores, and no two underscores that stand together. -/
structure IsFieldName (s : String) : Prop where
  chars : ∀ c ∈ s.toList, ('a' ≤ c ∧ c ≤ 'z') ∨ ('0' ≤ c ∧ c ≤ '9') ∨ c = '_'
  apart : ¬['_', '_'] <:+: s.toList

theorem isSnakeChar_iff {c : Char} : isSnakeChar c = true ↔
    ('a' ≤ c ∧ c ≤ 'z') ∨ ('0' ≤ c ∧ c ≤ '9') ∨ c = '_' := by
  have lower : c.isLower = (decide ('a' ≤ c) && decide (c ≤ 'z')) := rfl
  have digit : c.isDigit = (decide ('0' ≤ c) && decide (c ≤ '9')) := rfl
  simp [isSnakeChar, lower, digit, or_assoc]

/-- Where the characters of a field name stand among the code points. -/
theorem toNat_of_isSnakeChar {c : Char} (h : isSnakeChar c = true) :
    (0x30 ≤ c.toNat ∧ c.toNat ≤ 0x39) ∨ c.toNat = 0x5f ∨ (0x61 ≤ c.toNat ∧ c.toNat ≤ 0x7a) := by
  rcases isSnakeChar_iff.mp h with ⟨first, last⟩ | ⟨first, last⟩ | rfl
  · exact .inr (.inr ⟨first, last⟩)
  · exact .inl ⟨first, last⟩
  · exact .inr (.inl rfl)

theorem isBlank_of_isSnakeChar {c : Char} (h : isSnakeChar c = true) : isBlank c = false :=
  isBlank_eq_false_of (p := isSnakeChar) (by decide) h

/-- Letters that are small, digits and underscores are in lower case already. -/
theorem lowerChar_of_isSnakeChar {c : Char} (h : isSnakeChar c = true) : lowerChar c = [c] := by
  have spans : ∀ s ∈ lowerShifts, s.span.first = 0x41 ∧ s.span.last = 0x5a ∨
      0xc0 ≤ s.span.first := by decide +kernel
  have place := toNat_of_isSnakeChar h
  have plain : lowerShifts.find? (fun s => decide (s.Applies c.toNat)) = none := by
    rw [List.find?_eq_none]
    intro s mem applies
    obtain ⟨⟨first, last⟩, -⟩ := of_decide_eq_true applies
    have := spans s mem
    omega
  rw [lowerChar, if_neg, plain]
  rintro rfl
  exact absurd h (by decide)

theorem head?_squeezeUnderscores (cs : List Char) : (squeezeUnderscores cs).head? = cs.head? := by
  fun_induction squeezeUnderscores cs with
  | case1 => rfl
  | case2 c => rfl
  | case3 c d rest both ih => rw [ih, both.1, both.2]; rfl
  | case4 c d rest apart ih => rfl

theorem squeezeUnderscores_apart (cs : List Char) : ¬['_', '_'] <:+: squeezeUnderscores cs := by
  fun_induction squeezeUnderscores cs with
  | case1 => simp
  | case2 c => simp [List.infix_cons_iff]
  | case3 c d rest both ih => exact ih
  | case4 c d rest apart ih =>
    rw [List.infix_cons_iff, not_or]
    refine ⟨fun front => apart ?_, ih⟩
    obtain ⟨rfl, next⟩ := List.cons_prefix_cons.mp front
    have head := head?_squeezeUnderscores (d :: rest)
    obtain ⟨more, eq⟩ := next
    rw [← eq] at head
    exact ⟨rfl, (Option.some.inj head).symm⟩

theorem squeezeUnderscores_of_apart {cs : List Char} (h : ¬['_', '_'] <:+: cs) :
    squeezeUnderscores cs = cs := by
  fun_induction squeezeUnderscores cs with
  | case1 => rfl
  | case2 c => rfl
  | case3 c d rest both ih =>
    obtain ⟨rfl, rfl⟩ := both
    exact absurd ⟨[], rest, rfl⟩ h
  | case4 c d rest apart ih =>
    rw [ih fun within => h (within.trans (List.suffix_cons c _).isInfix)]

theorem isFieldName_snakeCase (s : String) : IsFieldName (snakeCase s) where
  chars _ hc := isSnakeChar_iff.mp (isSnakeChar_of_mem_snakeCase hc)
  apart := by
    rw [snakeCase, String.toList_ofList, snakeChars]
    exact squeezeUnderscores_apart _

/-- A text that has the form of a field name is not changed. -/
theorem IsFieldName.snakeCase_eq {s : String} (h : IsFieldName s) : snakeCase s = s := by
  have snake : ∀ c ∈ s.toList, isSnakeChar c = true := fun c hc =>
    isSnakeChar_iff.mpr (h.chars c hc)
  have lower : lowerChars s.toList = s.toList := by
    rw [lowerChars_of_plain fun sigma => absurd (snake _ sigma) (by decide),
      List.flatMap_congr fun c hc => lowerChar_of_isSnakeChar (snake c hc), List.flatMap_singleton']
  have blanks : (s.toList.map fun c => if isBlank c then '_' else c) = s.toList :=
    (List.map_congr_left fun c hc => by
      rw [isBlank_of_isSnakeChar (snake c hc)]; rfl).trans (List.map_id _)
  rw [snakeCase, snakeChars, lower, blanks, List.filter_eq_self.mpr snake,
    squeezeUnderscores_of_apart h.apart, String.ofList_toList]

/-- A field name with one of the endings that tell how a step is done. -/
def IsCompletionField (token : String) : Prop :=
  ∃ name, IsFieldName name ∧ ∃ ending ∈ ["_yes", "_complete", "_provided", "_viewed"],
    token = name ++ ending

theorem Step.completionSuffix_mem (stepType : Option String) :
    completionSuffix stepType ∈ ["_yes", "_complete", "_provided", "_viewed"] := by
  unfold completionSuffix
  split <;> decide

theorem Step.isCompletionField {s : Step} {token : String}
    (h : s.completionToken? = some token) : IsCompletionField token := by
  obtain ⟨title, -, -, rfl⟩ := completionToken?_eq_some_iff.mp h
  exact ⟨_, isFieldName_snakeCase title, _, completionSuffix_mem s.stepType, rfl⟩

/-- Titles are projected onto field names: what comes out is one, and exactly those stay as they
are, so that a second time changes nothing. The completion field of a step is a field name with one
of four endings, and the line that sets it names it without escapes. -/
theorem snakeCase_projects :
    (∀ s, IsFieldName (snakeCase s)) ∧ (∀ s, snakeCase s = s ↔ IsFieldName s) ∧
      (∀ s, snakeCase (snakeCase s) = snakeCase s) ∧
      ∀ (step : Step) (token : String), step.completionToken? = some token →
        IsCompletionField token ∧ SetsField (GuardedBlock.setLine token) token := by
  refine ⟨isFieldName_snakeCase, fun s => ⟨fun same => ?_, IsFieldName.snakeCase_eq⟩,
    fun s => (isFieldName_snakeCase s).snakeCase_eq, fun step token sets => ⟨?_, ?_⟩⟩
  · exact same ▸ isFieldName_snakeCase s
  · exact Step.isCompletionField sets
  · exact setsField_setLine_iff.mpr (Step.isPlainName_completionToken sets)

/-- The letters and marks that are dropped from this title leave underscores together. -/
theorem snakeCase_projects_review :
    let step := { gatedStep "Été 2024 – Final_!_Review" "minor" with stepType := some "Approval" }
    step.completionToken? = some "t_2024_final_review_yes" ∧
      IsCompletionField "t_2024_final_review_yes" ∧
      SetsField (GuardedBlock.setLine "t_2024_final_review_yes") "t_2024_final_review_yes" := by
  intro step
  have sets : step.completionToken? = some "t_2024_final_review_yes" := by decide +kernel
  exact ⟨sets, snakeCase_projects.2.2.2 step _ sets⟩

end Gatehouse
