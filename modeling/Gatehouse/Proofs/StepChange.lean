import Gatehouse.Proofs.ConditionMeaning
import Gatehouse.Proofs.Membership
import Mathlib.Data.Finset.Dedup

namespace Gatehouse

section

variable {heuristics : List Heuristic} {few many : List Step} {condition : String} {s : Step}

theorem IsLinked.mono (more : few ⊆ many) (h : IsLinked heuristics few condition s) :
    IsLinked heuristics many condition s := by
  cases h with
  | gated mem gated => exact .gated (more mem) gated
  | named mem awaits => exact .named (more mem) awaits
  | waiting mem other gated sets awaits => exact .waiting (more mem) (more other) gated sets awaits

theorem IsMember.mono (more : few ⊆ many) (h : IsMember heuristics few condition s) :
    IsMember heuristics many condition s := by
  cases h with
  | linked linked => exact .linked (linked.mono more)
  | review home other hands mem reviews =>
    exact .review home (other.mono more) hands (more mem) reviews

end

section

variable {heuristics : List Heuristic} {few many : List PlacedStep} {condition : String}

theorem referencedNames_mono (more : stepsOf few ⊆ stepsOf many) :
    referencedNames heuristics few ⊆ referencedNames heuristics many := by
  intro n hn
  obtain ⟨x, hx, gated⟩ := mem_referencedNames_iff.mp hn
  exact mem_referencedNames_iff.mpr ⟨x, more hx, gated⟩

theorem states_branchOf_mono (more : stepsOf few ⊆ stepsOf many) (apart : KeyedApart few)
    (apart' : KeyedApart many) :
    (branchOf heuristics few condition).states ⊆ (branchOf heuristics many condition).states := by
  intro token ht
  obtain ⟨x, member, sets⟩ := (mem_states_branchOf_iff apart).mp ht
  exact (mem_states_branchOf_iff apart').mpr ⟨x, member.mono more, sets⟩

namespace Resolution

variable {w : Workflow} {target : Target} {r r' : Resolution}

/-- With more steps, no compiled condition and no completion field is lost. -/
theorem compiled_mono (h : (resolve heuristics w few target).outcome = .ok r)
    (h' : (resolve heuristics w many target).outcome = .ok r')
    (more : stepsOf few ⊆ stepsOf many) {n : String} {k : Compiled}
    (entry : r.compiled.get? n = some k) : r'.compiled.get? n = some k := by
  obtain ⟨referenced, meaning⟩ := (get?_compiled_iff h).mp entry
  exact (get?_compiled_iff h').mpr ⟨referencedNames_mono more referenced, meaning⟩

theorem states_mono (h : (resolve heuristics w few target).outcome = .ok r)
    (h' : (resolve heuristics w many target).outcome = .ok r')
    (more : stepsOf few ⊆ stepsOf many) (apart : KeyedApart few) (apart' : KeyedApart many)
    {n : String} {tokens : List String} (entry : r.states.get? n = some tokens) :
    ∃ tokens', r'.states.get? n = some tokens' ∧ tokens ⊆ tokens' := by
  rw [get?_states h] at entry
  split at entry
  next compiled =>
    cases entry
    obtain ⟨k, hk⟩ := Keyed.mem_keys_iff.mp compiled
    have compiled' : n ∈ r'.compiled.keys :=
      Keyed.mem_keys_iff.mpr ⟨k, compiled_mono h h' more hk⟩
    exact ⟨_, by rw [get?_states h', if_pos compiled'], states_branchOf_mono more apart apart'⟩
  next => cases entry

theorem toFinset_states_eq (h : (resolve heuristics w few target).outcome = .ok r)
    (h' : (resolve heuristics w many target).outcome = .ok r')
    (more : stepsOf few ⊆ stepsOf many) (less : stepsOf many ⊆ stepsOf few)
    (apart : KeyedApart few) (apart' : KeyedApart many) (n : String) :
    (r.states.get? n).map List.toFinset = (r'.states.get? n).map List.toFinset := by
  cases entry : r.states.get? n with
  | none =>
    cases entry' : r'.states.get? n with
    | none => rfl
    | some tokens' =>
      obtain ⟨tokens, found, -⟩ := states_mono h' h less apart' apart entry'
      rw [entry] at found
      cases found
  | some tokens =>
    obtain ⟨tokens', entry', sub⟩ := states_mono h h' more apart apart' entry
    obtain ⟨again, found, sup⟩ := states_mono h' h less apart' apart entry'
    rw [entry] at found
    cases found
    rw [entry', Option.map_some, Option.map_some]
    congr 1
    ext token
    rw [List.mem_toFinset, List.mem_toFinset]
    exact ⟨fun ht => sub ht, fun ht => sup ht⟩

theorem outcome_error_of_same
    (same : ∀ n, n ∈ referencedNames heuristics few ↔ n ∈ referencedNames heuristics many)
    {fault : ValueFault} (h : (resolve heuristics w few target).outcome = .error fault) :
    (resolve heuristics w many target).outcome = .error fault := by
  have entries := resolve_eq_error h
  rw [outcome_resolve]
  by_cases hw : w.conditions.entries = []
  · simp [resolvedEntries, hw] at entries
  · simp only [resolvedEntries, if_neg hw, declaredEntries_congr same] at entries ⊢
    cases hd : declaredEntries (referencedNames heuristics many) target w.conditions.entries with
    | error other => simpa [hd, Except.map] using entries
    | ok found => simp [hd, Except.map] at entries

end Resolution

end

/-- The order of the steps does not matter: over the same steps in another order the same names are
compiled to the same, with the same completion fields for each, or the same fault ends both
runs. -/
theorem resolve_perm (heuristics : List Heuristic) (w : Workflow) (target : Target)
    {first second : List PlacedStep} (same : (stepsOf first).Perm (stepsOf second))
    (placed₁ : WellPlaced first) (placed₂ : WellPlaced second)
    (apart : (stepsOf first).Pairwise Step.Apart) :
    match (resolve heuristics w first target).outcome,
      (resolve heuristics w second target).outcome with
    | .ok r₁, .ok r₂ => (∀ n, r₁.compiled.get? n = r₂.compiled.get? n) ∧
        ∀ n, (r₁.states.get? n).map List.toFinset = (r₂.states.get? n).map List.toFinset
    | .error fault₁, .error fault₂ => fault₁ = fault₂
    | _, _ => False := by
  have apart₁ := placed₁.keyedApart apart
  have apart₂ := placed₂.keyedApart ((same.pairwise_iff (fun h => Std.Symm.symm _ _ h)).mp apart)
  have referenced : ∀ n, n ∈ referencedNames heuristics first ↔
      n ∈ referencedNames heuristics second :=
    fun n => ⟨fun h => referencedNames_mono same.subset h,
      fun h => referencedNames_mono same.symm.subset h⟩
  cases h₁ : (resolve heuristics w first target).outcome with
  | error fault =>
    rw [Resolution.outcome_error_of_same referenced h₁]
  | ok r₁ =>
    cases h₂ : (resolve heuristics w second target).outcome with
    | error fault =>
      have failed := Resolution.outcome_error_of_same (fun n => (referenced n).symm) h₂
      rw [h₁] at failed
      cases failed
    | ok r₂ =>
      have compiled : ∀ n k, r₁.compiled.get? n = some k ↔ r₂.compiled.get? n = some k :=
        fun n k => ⟨Resolution.compiled_mono h₁ h₂ same.subset,
          Resolution.compiled_mono h₂ h₁ same.symm.subset⟩
      exact ⟨fun n => Option.ext (compiled n),
        Resolution.toFinset_states_eq h₁ h₂ same.subset same.symm.subset apart₁ apart₂⟩

/-- Steps of a home school: one hands in an affidavit, one waits for it and one reviews it. -/
def affidavitSteps : List Step :=
  [⟨some (.number 1), some "Affidavit", some "Upload", none, none, none, true,
      some (.one "home_school"), none, [], .empty, .empty⟩,
    ⟨some (.number 2), some "Seal", none, none, none, none, false, none,
      some (.one "affidavit_complete"), [], .empty, .empty⟩,
    ⟨none, some "Affidavit Review", some "Approval", none, none, none, false, none, none, [],
      .empty, .empty⟩]

theorem resolve_perm_reversed :
    let w : Workflow := ⟨.empty, affidavitSteps, .empty⟩
    ∃ r₁ r₂, (resolve [] w (placeSteps affidavitSteps) .studentTerm).outcome = .ok r₁ ∧
      (resolve [] w (placeSteps affidavitSteps.reverse) .studentTerm).outcome = .ok r₂ ∧
      r₁.compiled.get? "home_school" = r₂.compiled.get? "home_school" ∧
      (r₁.states.get? "home_school").map List.toFinset =
        (r₂.states.get? "home_school").map List.toFinset := by
  intro w
  have same : (stepsOf (placeSteps affidavitSteps)).Perm
      (stepsOf (placeSteps affidavitSteps.reverse)) := by
    rw [stepsOf_placeSteps, stepsOf_placeSteps]
    exact (List.reverse_perm _).symm
  have apart : (stepsOf (placeSteps affidavitSteps)).Pairwise Step.Apart := by
    rw [stepsOf_placeSteps]
    simp [affidavitSteps, Step.Apart]
  have agree := resolve_perm [] w .studentTerm same (wellPlaced_placeSteps _)
    (wellPlaced_placeSteps _) apart
  have guessed : ∀ steps, ∃ r, (resolve [] w steps .studentTerm).outcome = .ok r :=
    fun steps => Resolution.exists_resolve_iff.mpr fun n _ => ⟨_, rfl⟩
  obtain ⟨r₁, h₁⟩ := guessed (placeSteps affidavitSteps)
  obtain ⟨r₂, h₂⟩ := guessed (placeSteps affidavitSteps.reverse)
  rw [h₁, h₂] at agree
  exact ⟨r₁, r₂, h₁, h₂, agree.1 "home_school", agree.2 "home_school"⟩

/-- A further step takes nothing away from what a class sets. The class itself is only lost if the
step is gated by a declared condition that the target can reach and that cannot be compiled. -/
theorem resolve_insert (heuristics : List Heuristic) (w : Workflow) (target : Target)
    {few many : List PlacedStep} (before after : List Step) (s : Step)
    (old : stepsOf few = before ++ after) (new : stepsOf many = before ++ s :: after)
    (placed₁ : WellPlaced few) (placed₂ : WellPlaced many)
    (apart : (before ++ s :: after).Pairwise Step.Apart) {r : Resolution}
    (resolved : (resolve heuristics w few target).outcome = .ok r) :
    ((∃ r', (resolve heuristics w many target).outcome = .ok r') ↔
      ∀ n c, w.conditions.get? n = some c → IsGated heuristics n s →
        c.isRelevant target = true → ∃ e, c.compile.outcome = .ok e) ∧
    ∀ r', (resolve heuristics w many target).outcome = .ok r' →
      (∀ n k, r.compiled.get? n = some k → r'.compiled.get? n = some k) ∧
      ∀ n tokens, r.states.get? n = some tokens →
        ∃ tokens', r'.states.get? n = some tokens' ∧ tokens ⊆ tokens' := by
  have inserted : (before ++ after).Sublist (before ++ s :: after) :=
    (List.sublist_cons_self s after).append_left before
  have more : stepsOf few ⊆ stepsOf many := by
    rw [old, new]
    exact inserted.subset
  have apart₁ := placed₁.keyedApart (old ▸ apart.sublist inserted)
  have apart₂ := placed₂.keyedApart (new ▸ apart)
  refine ⟨?_, fun r' resolved' => ⟨fun n k => Resolution.compiled_mono resolved resolved' more,
    fun n tokens => Resolution.states_mono resolved resolved' more apart₁ apart₂⟩⟩
  have known := Resolution.exists_resolve_iff.mp ⟨r, resolved⟩
  have referenced : ∀ n, n ∈ referencedNames heuristics many ↔
      n ∈ referencedNames heuristics few ∨ IsGated heuristics n s := by
    intro n
    simp only [mem_referencedNames_iff, old, new, List.mem_append, List.mem_cons]
    constructor
    · rintro ⟨x, hx | rfl | hx, gated⟩
      · exact Or.inl ⟨x, Or.inl hx, gated⟩
      · exact Or.inr gated
      · exact Or.inl ⟨x, Or.inr hx, gated⟩
    · rintro (⟨x, hx | hx, gated⟩ | gated)
      · exact ⟨x, Or.inl hx, gated⟩
      · exact ⟨x, Or.inr (Or.inr hx), gated⟩
      · exact ⟨s, Or.inr (Or.inl rfl), gated⟩
  rw [Resolution.exists_resolve_iff]
  constructor
  · intro means n c declared gated relevant
    exact Workflow.exists_meaning_iff.mp (means n ((referenced n).mpr (Or.inr gated))) c declared
      relevant
  · intro compiles n hn
    rcases (referenced n).mp hn with earlier | gated
    · exact known n earlier
    · exact Workflow.exists_meaning_iff.mpr fun c declared relevant =>
        compiles n c declared gated relevant

/-- Conditions of which one is compared with a number that is too long to be written. -/
def longNumberWorkflow : Workflow where
  conditions := .ofList [("minor", ⟨"minor", none, none, none, none, .null, ["minor"], .empty⟩),
    ("gpa", ⟨"gpa", none, some "gpa", none, some "equals",
      .int (Int.ofNat (Nat.pow 10 Value.mostDigits)), ["gpa"], .empty⟩)]
  steps := []
  extra := .empty

/-- A step for the long number ends the run that goes well without it; a step for the other
condition leaves what is there. -/
theorem resolve_insert_longNumber :
    let run := fun steps => (resolve [] longNumberWorkflow (placeSteps steps) .studentTerm).outcome
    ∃ r, run [gatedStep "Form" "minor"] = .ok r ∧
      r.compiled.get? "minor" = some ⟨"student.is_minor?", ["minor"]⟩ ∧
      r.states.get? "minor" = some ["form_complete"] ∧
      (¬∃ r', run [gatedStep "Form" "minor", gatedStep "Exam" "gpa"] = .ok r') ∧
      ∃ r', run [gatedStep "Form" "minor", gatedStep "Exam" "minor"] = .ok r' ∧
        r'.compiled.get? "minor" = some ⟨"student.is_minor?", ["minor"]⟩ ∧
        ∃ tokens, r'.states.get? "minor" = some tokens ∧ "form_complete" ∈ tokens := by
  intro run
  obtain ⟨r, resolved, entries⟩ := exists_ok_of_map
    (f := fun r => (r.compiled.get? "minor", r.states.get? "minor"))
    (x := run [gatedStep "Form" "minor"])
    (b := (some ⟨"student.is_minor?", ["minor"]⟩, some ["form_complete"])) (by decide +kernel)
  obtain ⟨compiled, states⟩ := Prod.mk.inj entries
  have apart : ∀ n, [gatedStep "Form" "minor", gatedStep "Exam" n].Pairwise Step.Apart := by
    intro n
    simp [gatedStep, Step.Apart]
  have inserted := fun n => resolve_insert [] longNumberWorkflow .studentTerm
    [gatedStep "Form" "minor"] [] (gatedStep "Exam" n)
    (stepsOf_placeSteps [gatedStep "Form" "minor"]) (stepsOf_placeSteps _)
    (wellPlaced_placeSteps _) (wellPlaced_placeSteps _) (apart n) resolved
  refine ⟨r, resolved, compiled, states, ?_, ?_⟩
  · intro h
    obtain ⟨e, compiles⟩ := (inserted "gpa").1.mp h "gpa" _ rfl (by decide) (by decide +kernel)
    have fails : ∀ c, longNumberWorkflow.conditions.get? "gpa" = some c →
        c.compile.outcome.toOption = none := by
      intro c hc
      cases hc
      decide +kernel
    have := fails _ rfl
    rw [compiles] at this
    cases this
  · have means : ∀ n c, longNumberWorkflow.conditions.get? n = some c →
        IsGated [] n (gatedStep "Exam" "minor") → c.isRelevant .studentTerm = true →
        ∃ e, c.compile.outcome = .ok e := by
      intro n c hc gated _
      have name : n = "minor" := by
        simpa [IsGated, gatedStep, Step.conditionNames, Names.toList] using gated
      subst name
      cases hc
      exact ⟨some "student.is_minor?", rfl⟩
    obtain ⟨r', resolved'⟩ := (inserted "minor").1.mpr means
    have kept := (inserted "minor").2 r' resolved'
    obtain ⟨tokens, entry, sub⟩ := kept.2 "minor" _ states
    exact ⟨r', resolved', kept.1 "minor" _ compiled, tokens, entry, sub (by simp)⟩

end Gatehouse
