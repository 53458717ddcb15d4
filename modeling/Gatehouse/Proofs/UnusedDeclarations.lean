import Gatehouse.Initializer.Class
import Gatehouse.Proofs.StepChange

namespace Gatehouse

/-- The conditions that are declared under some names, in order. -/
def Workflow.declarations (w : Workflow) (names : List String) : List (String × Condition) :=
  w.conditions.entries.filter fun e => e.1 ∈ names

/-- The workflows declare the same under the names, and in the same order. -/
def Workflow.AgreesOn (w w' : Workflow) (names : List String) : Prop :=
  w.declarations names = w'.declarations names

theorem Workflow.AgreesOn.mono {w w' : Workflow} {few many : List String}
    (h : w.AgreesOn w' many) (sub : few ⊆ many) : w.AgreesOn w' few := by
  have again (x : Workflow) :
      x.declarations few = (x.declarations many).filter fun e => e.1 ∈ few := by
    rw [declarations, declarations, List.filter_filter]
    refine List.filter_congr fun e _ => ?_
    rw [Bool.eq_iff_iff]
    simp only [decide_eq_true_eq, Bool.and_eq_true]
    exact ⟨fun he => ⟨he, sub he⟩, And.left⟩
  rw [AgreesOn, again w, again w', h]

theorem declaredExpression_of_unreferenced {referenced : List String} {e : String × Condition}
    (h : e.1 ∉ referenced) (target : Target) :
    declaredExpression referenced target e = .ok none := if_neg fun gated => h gated.1

/-- A walk over the declared conditions passes over those that gate no step. -/
theorem declaredEntries_filter (referenced : List String) (target : Target)
    (entries : List (String × Condition)) :
    declaredEntries referenced target (entries.filter fun e => e.1 ∈ referenced) =
      declaredEntries referenced target entries := by
  induction entries with
  | nil => rfl
  | cons e rest ih =>
    by_cases gated : e.1 ∈ referenced
    · rw [List.filter_cons_of_pos (by simpa using gated), declaredEntries, declaredEntries, ih]
    · rw [List.filter_cons_of_neg (by simpa using gated), ih, declaredEntries,
        declaredExpression_of_unreferenced gated]
      cases declaredEntries referenced target rest with
      | error fault => rfl
      | ok more => rfl

section

variable {heuristics : List Heuristic} {w w' : Workflow} {steps : List PlacedStep}

theorem resolvedEntries_congr (declares : w.conditions.entries ≠ [])
    (declares' : w'.conditions.entries ≠ [])
    (same : w.AgreesOn w' (referencedNames heuristics steps)) (target : Target) :
    resolvedEntries heuristics w steps target = resolvedEntries heuristics w' steps target := by
  have entries : declaredEntries (referencedNames heuristics steps) target w.conditions.entries =
      declaredEntries (referencedNames heuristics steps) target w'.conditions.entries := by
    rw [← declaredEntries_filter, ← declaredEntries_filter _ _ w'.conditions.entries]
    exact congrArg _ same
  simp only [resolvedEntries, if_neg declares, if_neg declares', entries]

/-- The class is a function of the steps that count and of what their conditions are compiled
to. -/
theorem result_emit_congr {e : Emitter} {p : Profile} {college : String}
    (steps : p.selectSteps w = p.selectSteps w')
    (same : (resolve e.heuristics w (p.selectSteps w) p.target).outcome =
      (resolve e.heuristics w' (p.selectSteps w') p.target).outcome) :
    (e.emit p w college).result = (e.emit p w' college).result := by
  simp only [Compiling.outcome, steps] at same
  simp only [Emitter.emit, Logged.result_bind, same, steps]

end

/-- Conditions that gate no step do not matter, whatever they are and wherever they stand, as long
as some condition is declared: what is compiled for the steps is the same, or it ends in the same
fault, and so is each class that is built from these steps or from some of them. -/
theorem resolve_unreferenced (heuristics : List Heuristic) {w w' : Workflow}
    (declares : w.conditions.entries ≠ []) (declares' : w'.conditions.entries ≠ [])
    (steps : List PlacedStep) (same : w.AgreesOn w' (referencedNames heuristics steps)) :
    (∀ target, (resolve heuristics w steps target).outcome =
      (resolve heuristics w' steps target).outcome) ∧
    (w.steps = w'.steps → ∀ (templates : Templates) (partition : List String) (p : Profile)
        (college : String), p.selectSteps w ⊆ steps →
      (Emitter.emit ⟨templates, heuristics, partition⟩ p w college).result =
        (Emitter.emit ⟨templates, heuristics, partition⟩ p w' college).result) := by
  have outcomes {some : List PlacedStep}
      (same : w.AgreesOn w' (referencedNames heuristics some)) (target : Target) :
      (resolve heuristics w some target).outcome = (resolve heuristics w' some target).outcome := by
    rw [Resolution.outcome_resolve, Resolution.outcome_resolve,
      resolvedEntries_congr declares declares' same]
  refine ⟨outcomes same, fun sameSteps templates partition p college selected => ?_⟩
  have counted : p.selectSteps w = p.selectSteps w' := by
    rw [Profile.selectSteps, Profile.selectSteps, Workflow.placedSteps, Workflow.placedSteps,
      sameSteps]
  have fewer : referencedNames heuristics (p.selectSteps w) ⊆ referencedNames heuristics steps :=
    referencedNames_mono fun x hx => by
      obtain ⟨s, hs, rfl⟩ := mem_stepsOf.mp hx
      exact mem_stepsOf.mpr ⟨s, selected hs, rfl⟩
  refine result_emit_congr counted ?_
  rw [← counted]
  exact outcomes (same.mono fewer) p.target

/-- Steps for a condition and for a kind of school that is not declared. -/
def minorAndHomeSchool : List Step :=
  [gatedStep "Form" "minor", gatedStep "Affidavit" "home_school"]

def fewDeclared : Workflow where
  conditions := .ofList [("minor", ⟨"minor", none, none, none, none, .null, ["adult"], .empty⟩)]
  steps := minorAndHomeSchool
  extra := .empty

/-- Beside the condition that gates a step: a number that is too long to be written, another kind
of school, and a further condition for the same known name. -/
def manyDeclared : Workflow where
  conditions := .ofList [
    ("gpa", ⟨"gpa", none, some "gpa", none, some "equals",
      .int (Int.ofNat (Nat.pow 10 Value.mostDigits)), ["gpa"], .empty⟩),
    ("non_partner", ⟨"non_partner", none, some "town", none, none, .text "Oslo", ["far"], .empty⟩),
    ("minor", ⟨"minor", none, none, none, none, .null, ["adult"], .empty⟩),
    ("young", ⟨"minor", none, none, none, none, .null, ["minor", "adult"], .empty⟩)]
  steps := minorAndHomeSchool
  extra := .empty

theorem resolve_unreferenced_manyDeclared :
    let run := fun w =>
      (resolve Heuristic.defaults w (placeSteps minorAndHomeSchool) .studentTerm).outcome
    fewDeclared.AgreesOn manyDeclared
        (referencedNames Heuristic.defaults (placeSteps minorAndHomeSchool)) ∧
      run fewDeclared = run manyDeclared ∧
      (∃ r, run manyDeclared = .ok r ∧ r.compiled.entries =
        [("minor", ⟨"student.is_minor?", ["adult"]⟩),
          ("home_school", ⟨"student.high_school.is_home_school?", ["home_school"]⟩)]) ∧
      (Emitter.standard.emit .studentTerm fewDeclared "acme").result =
        (Emitter.standard.emit .studentTerm manyDeclared "acme").result := by
  intro run
  have names : referencedNames Heuristic.defaults (placeSteps minorAndHomeSchool) =
      ["minor", "home_school"] := by decide +kernel
  have same : fewDeclared.AgreesOn manyDeclared
      (referencedNames Heuristic.defaults (placeSteps minorAndHomeSchool)) := by
    rw [names]
    rfl
  have declares : fewDeclared.conditions.entries ≠ [] := by decide
  have declares' : manyDeclared.conditions.entries ≠ [] := by decide
  obtain ⟨outcomes, classes⟩ := resolve_unreferenced Heuristic.defaults declares declares'
    (placeSteps minorAndHomeSchool) same
  obtain ⟨r, resolved, entries⟩ := exists_ok_of_map (f := fun r => r.compiled.entries)
    (x := run fewDeclared) (b := [("minor", ⟨"student.is_minor?", ["adult"]⟩),
      ("home_school", ⟨"student.high_school.is_home_school?", ["home_school"]⟩)])
    (by decide +kernel)
  exact ⟨same, outcomes .studentTerm, ⟨r, (outcomes .studentTerm).symm.trans resolved, entries⟩,
    classes rfl .builtIn schoolNames .studentTerm "acme" List.filter_sublist.subset⟩

end Gatehouse
