import Gatehouse.Initializer.Profile
import Gatehouse.Proofs.StepChange

namespace Gatehouse

/-- Courses, their sections and instructors are in scope for courses, terms for terms, and all else
everywhere. -/
theorem Entity.scope_contains_iff {e : Entity} {target : Target} : e.scope.contains target = true ↔
    (e = .course ∨ e = .courseSection ∨ e = .instructor → target = .studentCourse) ∧
      (e = .term → target = .studentTerm) := by
  cases e <;> cases target <;> decide

namespace Condition

/-- The condition belongs to courses, by its name, by its method or by what it is about. -/
def IsOfCourse (c : Condition) : Prop :=
  c.isCourseFlavored = true ∨ entityOf? c.entity = some .course ∨
    entityOf? c.entity = some .courseSection ∨ entityOf? c.entity = some .instructor

/-- The condition belongs to terms. -/
def IsOfTerm (c : Condition) : Prop :=
  c.isTermFlavored = true ∨ entityOf? c.entity = some .term

instance (c : Condition) : Decidable c.IsOfCourse :=
  inferInstanceAs (Decidable (_ ∨ _ ∨ _ ∨ _))

instance (c : Condition) : Decidable c.IsOfTerm := inferInstanceAs (Decidable (_ ∨ _))

variable {c : Condition}

/-- What belongs to courses or terms keeps to the target of these, and all else is relevant to each
target. -/
theorem isRelevant_iff {target : Target} : c.isRelevant target = true ↔
    (c.IsOfCourse → target = .studentCourse) ∧ (c.IsOfTerm → target = .studentTerm) := by
  have course : (!c.isCourseFlavored || target == .studentCourse) = true ↔
      (c.isCourseFlavored = true → target = .studentCourse) := by
    cases c.isCourseFlavored <;> simp
  have term : (!c.isTermFlavored || target == .studentTerm) = true ↔
      (c.isTermFlavored = true → target = .studentTerm) := by
    cases c.isTermFlavored <;> simp
  rw [isRelevant, Bool.and_eq_true, Bool.and_eq_true, course, term, IsOfCourse, IsOfTerm,
    or_imp (a := c.isCourseFlavored = true), or_imp (a := c.isTermFlavored = true)]
  cases entityOf? c.entity with
  | none => simp
  | some e =>
    simp only [Option.some.injEq, Entity.scope_contains_iff]
    constructor
    · rintro ⟨⟨⟨scopeCourse, scopeTerm⟩, nameCourse⟩, nameTerm⟩
      exact ⟨⟨nameCourse, scopeCourse⟩, nameTerm, scopeTerm⟩
    · rintro ⟨⟨nameCourse, scopeCourse⟩, nameTerm, scopeTerm⟩
      exact ⟨⟨⟨scopeCourse, scopeTerm⟩, nameCourse⟩, nameTerm⟩

/-- Only what belongs to courses as well as to terms is out of reach of every target; all else is
relevant to one of the two targets whose classes count every step. -/
theorem exists_relevant_iff : (∃ target, c.isRelevant target = true) ↔
    ¬(c.IsOfCourse ∧ c.IsOfTerm) := by
  constructor
  · rintro ⟨target, relevant⟩ ⟨course, term⟩
    obtain ⟨ofCourse, ofTerm⟩ := isRelevant_iff.mp relevant
    cases (ofCourse course).symm.trans (ofTerm term)
  · intro apart
    by_cases course : c.IsOfCourse
    · have term : ¬c.IsOfTerm := fun term => apart ⟨course, term⟩
      exact ⟨.studentCourse, isRelevant_iff.mpr ⟨fun _ => rfl, fun h => absurd h term⟩⟩
    · exact ⟨.studentTerm, isRelevant_iff.mpr ⟨fun h => absurd h course, fun _ => rfl⟩⟩

theorem relevant_apart_application {target : Target} (relevant : c.isRelevant target = true) :
    ∃ other, other ≠ .studentApplication ∧ c.isRelevant other = true := by
  by_cases application : target = .studentApplication
  · subst application
    obtain ⟨course, term⟩ := isRelevant_iff.mp relevant
    have plain : ¬c.IsOfCourse := fun h => Target.noConfusion (course h)
    exact ⟨.studentTerm, by decide, isRelevant_iff.mpr ⟨fun h => absurd h plain, fun _ => rfl⟩⟩
  · exact ⟨target, application, relevant⟩

end Condition

theorem Profile.selectSteps_of_ne {target : Target} (other : target ≠ .studentApplication)
    (w : Workflow) : (ofTarget target).selectSteps w = w.placedSteps := by
  have all : (ofTarget target).filtersByCategory = false := by
    cases target with
    | studentApplication => exact absurd rfl other
    | studentTerm => rfl
    | studentCourse => rfl
  rw [selectSteps, List.filter_eq_self]
  intro s _
  rw [counts, all]
  rfl

/-- A resolution comes to an end, or breaks off at a declared condition that gates a step and is
relevant. -/
theorem resolve_ok_or_fault (heuristics : List Heuristic) (w : Workflow) (steps : List PlacedStep)
    (target : Target) : (∃ r, (resolve heuristics w steps target).outcome = .ok r) ∨
      ∃ d ∈ w.conditions.entries, d.1 ∈ referencedNames heuristics steps ∧
        d.2.isRelevant target = true ∧ ∃ fault, d.2.compile.outcome = .error fault := by
  by_cases all : ∀ n ∈ referencedNames heuristics steps, ∀ d, w.conditions.get? n = some d →
      d.isRelevant target = true → ∃ found, d.compile.outcome = .ok found
  · exact Or.inl (Resolution.exists_resolve_iff.mpr fun n referenced =>
      Workflow.exists_meaning_iff.mpr (all n referenced))
  · simp only [Classical.not_forall, exists_prop] at all
    obtain ⟨n, referenced, d, declared, relevant, uncompiled⟩ := all
    refine Or.inr ⟨(n, d), Keyed.get?_eq_some_iff.mp declared, referenced, relevant, ?_⟩
    cases compiles : d.compile.outcome with
    | error fault => exact ⟨fault, rfl⟩
    | ok found => exact absurd ⟨found, compiles⟩ uncompiled

/-- A condition is relevant to some target unless it belongs to courses as well as to terms. If it
is declared, gates a step and has an expression, it is then in the class for some target, as long as
this class does not break off at a condition whose value cannot be written. -/
theorem reaches_some_class_iff (c : Condition) :
    ((∃ target, c.isRelevant target = true) ↔ ¬(c.IsOfCourse ∧ c.IsOfTerm)) ∧
      ∀ (heuristics : List Heuristic) (w : Workflow) (name e : String),
        w.conditions.get? name = some c → name ∈ referencedNames heuristics w.placedSteps →
        c.compile.outcome = .ok (some e) → ¬(c.IsOfCourse ∧ c.IsOfTerm) →
        ∃ target, c.isRelevant target = true ∧
          let steps := (Profile.ofTarget target).selectSteps w
          ((∃ r, (resolve heuristics w steps target).outcome = .ok r ∧
              r.compiled.get? name = some (compiledAs name e c.fields)) ∨
            ∃ d ∈ w.conditions.entries, d.1 ∈ referencedNames heuristics steps ∧
              d.2.isRelevant target = true ∧ ∃ fault, d.2.compile.outcome = .error fault) := by
  refine ⟨Condition.exists_relevant_iff, ?_⟩
  intro heuristics w name e declared referenced compiles apart
  obtain ⟨found, within⟩ := Condition.exists_relevant_iff.mpr apart
  obtain ⟨target, other, relevant⟩ := Condition.relevant_apart_application within
  refine ⟨target, relevant, ?_⟩
  rw [Profile.selectSteps_of_ne other]
  rcases resolve_ok_or_fault heuristics w w.placedSteps target with ⟨r, resolved⟩ | broken
  · have meaning := Workflow.meaning_of_declared declared relevant compiles
    exact Or.inl ⟨r, resolved, (Resolution.get?_compiled_iff resolved).mpr ⟨referenced, meaning⟩⟩
  · exact Or.inr broken

/-- A step behind a condition on the name of a term. -/
def springWorkflow : Workflow where
  conditions := .ofList [("spring_term", ⟨"spring_term", some "Term", some "name", none,
    some "equals", .text "Spring", ["spring"], .empty⟩)]
  steps := [gatedStep "Form" "spring_term"]
  extra := .empty

/-- A condition on a term is in the class for terms. -/
theorem reaches_some_class_spring :
    ∃ target r, (resolve Heuristic.defaults springWorkflow
        ((Profile.ofTarget target).selectSteps springWorkflow) target).outcome = .ok r ∧
      r.compiled.get? "spring_term" = some ⟨"term.name == 'Spring'", ["spring"]⟩ := by
  obtain ⟨c, declared⟩ : ∃ c, springWorkflow.conditions.get? "spring_term" = some c := ⟨_, rfl⟩
  have compiles : c.compile.outcome = .ok (some "term.name == 'Spring'") := by
    cases Option.some.inj declared
    rfl
  have apart : ¬(c.IsOfCourse ∧ c.IsOfTerm) := by
    cases Option.some.inj declared
    decide +kernel
  obtain ⟨target, -, ⟨r, resolved, entry⟩ | ⟨d, hd, -, -, fault, broken⟩⟩ :=
    (reaches_some_class_iff c).2 Heuristic.defaults springWorkflow "spring_term" _ declared
      (by decide +kernel) compiles apart
  · cases Option.some.inj declared
    exact ⟨target, r, resolved, entry⟩
  · cases Option.some.inj declared
    cases List.mem_singleton.mp hd
    cases compiles.symm.trans broken

/-- The load of a course is determined for no target: the name shows a course and, inside its first
word, a term. A minor is relevant to each target, but no class is made where a number beside it is
too long. -/
theorem irrelevant_courseLoad :
    let c : Condition := ⟨"determine_course_load", some "Course", some "load", none, some "present",
      .null, ["determine_course_load"], .empty⟩
    let w : Workflow :=
      { longNumberWorkflow with steps := [gatedStep "Exam" "gpa", gatedStep "Form" "minor"] }
    (c.compile.outcome = .ok (some "course.load.present?") ∧
        ∀ target, c.isRelevant target = false) ∧
      "minor" ∈ referencedNames Heuristic.defaults w.placedSteps ∧
      ∀ target, ∃ fault, (resolve Heuristic.defaults w
        ((Profile.ofTarget target).selectSteps w) target).outcome = .error fault := by
  intro c w
  have both : c.IsOfCourse ∧ c.IsOfTerm := by decide +kernel
  have irrelevant (target : Target) : c.isRelevant target = false :=
    Bool.eq_false_iff.mpr fun relevant => Condition.exists_relevant_iff.mp ⟨target, relevant⟩ both
  have steps (target : Target) : (Profile.ofTarget target).selectSteps w = w.placedSteps := by
    cases target <;> rfl
  have exam : "gpa" ∈ referencedNames Heuristic.defaults w.placedSteps := by decide +kernel
  refine ⟨⟨rfl, irrelevant⟩, by decide +kernel, fun target => ?_⟩
  rw [steps]
  cases resolved : (resolve Heuristic.defaults w w.placedSteps target).outcome with
  | error fault => exact ⟨fault, rfl⟩
  | ok r =>
    -- the long number would be compiled, since it is relevant as well
    obtain ⟨gpa, declared⟩ : ∃ gpa, w.conditions.get? "gpa" = some gpa := ⟨_, rfl⟩
    have plain : ¬gpa.IsOfCourse ∧ ¬gpa.IsOfTerm := by
      cases Option.some.inj declared
      decide +kernel
    have fails : gpa.compile.outcome.toOption = none := by
      cases Option.some.inj declared
      decide +kernel
    have relevant : gpa.isRelevant target = true := Condition.isRelevant_iff.mpr
      ⟨fun course => absurd course plain.1, fun term => absurd term plain.2⟩
    have means := Resolution.exists_resolve_iff.mp ⟨r, resolved⟩ "gpa" exam
    obtain ⟨found, compiles⟩ := Workflow.exists_meaning_iff.mp means gpa declared relevant
    rw [compiles] at fails
    cases fails

end Gatehouse
