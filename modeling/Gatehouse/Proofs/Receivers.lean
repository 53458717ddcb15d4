import Gatehouse.Proofs.BuiltInTemplates
import Gatehouse.Proofs.CompileRules
import Gatehouse.Proofs.ConditionMeaning

namespace Gatehouse

/-- The variable that an expression starts with, behind a negation. -/
def receiver (expression : String) : String :=
  match expression.toList with
  | '!' :: cs => String.ofList (cs.takeWhile (· != '.'))
  | cs => String.ofList (cs.takeWhile (· != '.'))

theorem receiver_ofList (cs : List Char) : receiver (String.ofList cs) =
    String.ofList ((if cs.head? = some '!' then cs.drop 1 else cs).takeWhile (· != '.')) := by
  rw [receiver, String.toList_ofList]
  split
  next => rfl
  next h =>
    rw [if_neg]
    intro head
    obtain ⟨rest, rfl⟩ := List.head?_eq_some_iff.mp head
    exact h rest rfl

/-- A high school is reached through its student. -/
def Entity.holder : Entity → Entity
  | highSchool => student
  | e => e

theorem receiver_call (e : Entity) (negated : Bool) (rest : String) :
    receiver (Condition.negateIf negated (e.accessor ++ "." ++ rest)) = e.holder.accessor := by
  cases e <;> cases negated <;>
    simp [receiver, Condition.negateIf, Entity.accessor, Entity.holder, Entity.name]

theorem result_accessorFor {designator : Option String}
    (known : designator.getD "" = "" ∨ (entityOf? designator).isSome = true) :
    (accessorFor designator).result = ((entityOf? designator).getD .student).accessor := by
  cases designator with
  | none => rfl
  | some s =>
    by_cases hs : s = ""
    · simp [accessorFor, entityOf?, hs]
    · simp only [entityOf?, hs, if_false, Option.getD_some, false_or] at known ⊢
      obtain ⟨e, he⟩ := Option.isSome_iff_exists.mp known
      simp [accessorFor, hs, he]

namespace Condition

variable {c : Condition}

theorem comparisonExpression_eq (c : Condition) (call : String) :
    ∃ negated more, c.comparisonExpression call = negateIf negated (call ++ more) := by
  unfold comparisonExpression
  split
  next => exact ⟨false, _, String.append_assoc⟩
  next => exact ⟨false, _, String.append_assoc⟩
  next => exact ⟨false, ".to_s.include?(" ++ c.value.quoted ++ ")",
    by simp [negateIf, String.append_assoc]⟩
  next => exact ⟨true, ".to_s.include?(" ++ c.value.quoted ++ ")",
    by simp [negateIf, String.append_assoc]⟩
  next => exact ⟨false, _, rfl⟩
  next => exact ⟨false, _, rfl⟩
  next =>
    split
    next operator _ => exact ⟨false, " " ++ operator ++ " " ++ c.value.bare,
      by simp [negateIf, String.append_assoc]⟩
    next => exact ⟨false, _, String.append_assoc⟩

theorem callExpression_eq (c : Condition) (accessor method : String) :
    ∃ negated rest, c.callExpression accessor method =
      negateIf negated (accessor ++ "." ++ rest) := by
  unfold callExpression
  split
  next => exact ⟨c.isNegated, method, rfl⟩
  next =>
    obtain ⟨negated, more, h⟩ := c.comparisonExpression_eq (accessor ++ "." ++ method)
    exact ⟨negated, method ++ more, by rw [h, String.append_assoc]⟩

/-- What is neither written out nor known by its name is a call on what the condition is about. -/
theorem compile_eq_call (custom : c.comparisonKind ≠ some .custom)
    (unregistered : registeredExpression? c.name = none) {e : String}
    (h : c.compile.outcome = .ok (some e)) :
    ∃ negated rest, e = negateIf negated ((accessorFor c.entity).result ++ "." ++ rest) := by
  cases expresses_of_compile h with
  | written written => exact absurd written custom
  | asked => exact ⟨c.isNegated, _, rfl⟩
  | known _ _ named =>
    rw [registeredExpression?, named] at unregistered
    cases unregistered
  | homeSchool _ _ _ asks =>
    have highSchool : entityOf? c.entity = some .highSchool := by
      simp only [asksHomeSchool, Bool.and_eq_true, beq_iff_eq] at asks
      exact asks.1
    have accessor : (accessorFor c.entity).result = "student.high_school" := by
      rw [result_accessorFor (Or.inr (by rw [highSchool]; rfl)), highSchool]
      rfl
    exact ⟨c.isNegated, "is_home_school?", by rw [accessor]; rfl⟩
  | called => exact c.callExpression_eq _ _

end Condition

/-- The line that takes a variable of a class from its record. -/
def bindingLine (name : String) : String := "    " ++ name ++ " = target_object." ++ name

/-- What is in scope for a target is bound by its class, but for instructors. -/
theorem holder_bound_iff {e : Entity} {target : Target} (scope : e.scope.contains target = true) :
    (e.holder.accessor ∈ (Profile.ofTarget target).bindings ↔ e ≠ .instructor) ∧
      (bindingLine e.holder.accessor ∈ (Profile.ofTarget target).bindingLines ↔
        e ≠ .instructor) := by
  revert scope
  cases e <;> cases target <;> decide

/-- The code of a condition that is neither written out nor known by its name starts with a variable
of the class, unless it is about an instructor: no class has a variable for that one. -/
theorem receiver_bound_iff (heuristics : List Heuristic) (w : Workflow) (steps : List PlacedStep)
    (target : Target) {r : Resolution}
    (resolved : (resolve heuristics w steps target).outcome = .ok r) {name : String} {c : Condition}
    (entry : name ∈ r.compiled.keys) (declared : w.conditions.get? name = some c)
    (relevant : c.isRelevant target = true) {e : String}
    (compiles : c.compile.outcome = .ok (some e)) (custom : c.comparisonKind ≠ some .custom)
    (unregistered : registeredExpression? c.name = none)
    (known : c.entity.getD "" = "" ∨ (entityOf? c.entity).isSome = true) :
    let p := Profile.ofTarget target
    r.compiled.get? name = some (compiledAs name e c.fields) ∧
      (receiver e ∈ p.bindings ↔ entityOf? c.entity ≠ some .instructor) ∧
      (bindingLine (receiver e) ∈ p.bindingLines ↔ entityOf? c.entity ≠ some .instructor) := by
  intro p
  refine ⟨Resolution.get?_compiled_of_declared resolved entry declared relevant compiles, ?_⟩
  obtain ⟨negated, rest, rfl⟩ := Condition.compile_eq_call custom unregistered compiles
  rw [result_accessorFor known, receiver_call]
  cases he : entityOf? c.entity with
  | none => simpa using holder_bound_iff (e := .student) (by cases target <;> rfl)
  | some entity =>
    have scope : entity.scope.contains target = true := by
      simp only [Condition.isRelevant, he, Bool.and_eq_true] at relevant
      exact relevant.1.1
    simpa using holder_bound_iff scope

/-- Steps for two conditions, of which one is about an instructor and the other about a student. -/
def instructorWorkflow : Workflow where
  conditions := .ofList [("adjunct", ⟨"adjunct", some "Instructor", none, some "is_active?", none,
      .null, ["adjunct"], .empty⟩),
    ("senior", ⟨"senior", none, none, some "is_senior?", none, .null, ["senior"], .empty⟩)]
  steps := [gatedStep "Review" "adjunct", gatedStep "Survey" "senior"]
  extra := .empty

/-- The class for a course asks an instructor that it never binds, and a student that it binds. -/
theorem receiver_bound_senior : ∃ r, (resolve Heuristic.defaults instructorWorkflow
      (Profile.studentCourse.selectSteps instructorWorkflow) .studentCourse).outcome = .ok r ∧
    r.compiled.get? "adjunct" = some ⟨"instructor.is_active?", ["adjunct"]⟩ ∧
    receiver "instructor.is_active?" ∉ Profile.studentCourse.bindings ∧
    r.compiled.get? "senior" = some ⟨"student.is_senior?", ["senior"]⟩ ∧
    receiver "student.is_senior?" ∈ Profile.studentCourse.bindings := by
  obtain ⟨r, resolved, keys⟩ := exists_ok_of_map (f := fun r => r.compiled.keys)
    (x := (resolve Heuristic.defaults instructorWorkflow
      (Profile.studentCourse.selectSteps instructorWorkflow) .studentCourse).outcome)
    (b := ["adjunct", "senior"]) (by decide +kernel)
  have first : "adjunct" ∈ r.compiled.keys := by simp [keys]
  have second : "senior" ∈ r.compiled.keys := by simp [keys]
  have adjunct := receiver_bound_iff Heuristic.defaults instructorWorkflow _ .studentCourse resolved
    first rfl (by decide) (e := "instructor.is_active?") rfl (by decide) (by decide)
    (Or.inr (by decide))
  have senior := receiver_bound_iff Heuristic.defaults instructorWorkflow _ .studentCourse resolved
    second rfl (by decide) (e := "student.is_senior?") rfl (by decide) (by decide) (Or.inl rfl)
  exact ⟨r, resolved, adjunct.1, mt adjunct.2.1.mp (by decide), senior.1,
    senior.2.1.mpr (by decide)⟩

/-- What the expression of a known condition asks. -/
def KnownCondition.asked : KnownCondition → Entity
  | hasPrerequisites => .course
  | wishList | sectionFull | onCampus | atHighSchool => .courseSection
  | _ => .student

theorem receiver_known (k : KnownCondition) : receiver k.expression = k.asked.accessor := by
  cases k <;> exact receiver_ofList _

theorem asked_bound_iff (k : KnownCondition) (target : Target) :
    (k.asked.accessor ∈ (Profile.ofTarget target).bindings ↔
        target = .studentCourse ∨ k.asked = .student) ∧
      (bindingLine k.asked.accessor ∈ (Profile.ofTarget target).bindingLines ↔
        target = .studentCourse ∨ k.asked = .student) := by
  have kinds : k.asked = .student ∨ k.asked = .course ∨ k.asked = .courseSection := by
    cases k <;> decide
  rcases kinds with h | h | h
  · rw [h]
    cases target <;> decide
  · rw [h]
    cases target <;> decide
  · rw [h]
    cases target <;> decide

/-- Names that ask for a course or a section and show neither a course nor a prerequisite. -/
def plainCourseNames : List String :=
  ["hasRequisites", "has_requisites", "requisites", "wish_list", "isWishList", "is_wish_list",
    "section_full", "isSectionFull", "is_section_full", "on_campus", "college_campus",
    "at_high_school"]

theorem mem_synonyms_of_ofName? {name : String} {k : KnownCondition}
    (h : KnownCondition.ofName? name = some k) : name ∈ k.synonyms := by
  have found := List.find?_some h
  simpa using found

theorem asked_ne_student_of_plain {k : KnownCondition} :
    ∀ name ∈ k.synonyms, name ∈ plainCourseNames → k.asked ≠ .student := by
  cases k <;> simp [KnownCondition.synonyms, plainCourseNames, KnownCondition.asked]

theorem mentions_lowerText_ofList (cs fragment : List Char) :
    mentions (lowerText (String.ofList cs)) (String.ofList fragment) =
      occursIn fragment (lowerChars cs) := by
  rw [mentions, lowerText, String.toList_ofList, String.toList_ofList, String.toList_ofList]

theorem shown_of_not_plain {k : KnownCondition} (h : k.asked ≠ .student) :
    ∀ name ∈ k.synonyms, name ∉ plainCourseNames →
      (mentions (lowerText name) "prereq" || mentions (lowerText name) "course") = true := by
  have prerequisite : ∀ name ∈ ["has_prereqs", "hasPrerequisites", "has_prerequisites",
      "prerequisites"], mentions (lowerText name) "prereq" = true := by
    simp only [List.forall_mem_cons, List.not_mem_nil, false_implies, implies_true, and_true]
    and_intros <;> exact (mentions_lowerText_ofList _ _).trans (by decide)
  have course : mentions (lowerText "course_full") "course" = true :=
    (mentions_lowerText_ofList _ _).trans (by decide)
  have names : ∀ name ∈ k.synonyms, name ∉ plainCourseNames → name ∈ ["has_prereqs",
      "hasPrerequisites", "has_prerequisites", "prerequisites"] ∨ name = "course_full" := by
    revert h
    cases k <;> simp [KnownCondition.synonyms, plainCourseNames, KnownCondition.asked]
  intro name known other
  rcases names name known other with name | rfl
  · simp [prerequisite _ name]
  · simp [course]

/-- A relevant name of a known condition keeps to the scope of the target, unless it is a plain
one. -/
theorem asked_student_iff {c : Condition} {target : Target} (relevant : c.isRelevant target = true)
    (other : target ≠ .studentCourse) {k : KnownCondition} (name : c.name ∈ k.synonyms) :
    k.asked = .student ↔ c.name ∉ plainCourseNames := by
  constructor
  · intro student plain
    exact asked_ne_student_of_plain c.name name plain student
  · intro plain
    rcases Decidable.em (k.asked = .student) with student | asked
    · exact student
    have shown := shown_of_not_plain asked c.name name plain
    have flavored : c.isCourseFlavored = true := by
      rw [Bool.or_eq_true] at shown
      rcases shown with shown | shown
      · simp [Condition.isCourseFlavored, shown]
      · simp [Condition.isCourseFlavored, shown]
    simp [Condition.isRelevant, flavored, other] at relevant

/-- The code of a condition that is known by its name starts with a variable of the class, unless
the class is not for a course and the name is one of those that ask for a course and do not show
it. -/
theorem registered_receiver_bound_iff (heuristics : List Heuristic) (w : Workflow)
    (steps : List PlacedStep) (target : Target) {name : String} {c : Condition}
    (declared : w.conditions.get? name = some c)
    (referenced : name ∈ referencedNames heuristics steps)
    (relevant : c.isRelevant target = true) (custom : c.comparisonKind ≠ some .custom)
    (method : c.rubyMethod.any Condition.endsWithMark = false) {e : String}
    (registered : registeredExpression? c.name = some e) :
    let p := Profile.ofTarget target
    (∀ r, (resolve heuristics w steps target).outcome = .ok r →
        r.compiled.get? name = some (compiledAs name e c.fields)) ∧
      (receiver e ∈ p.bindings ↔ target = .studentCourse ∨ c.name ∉ plainCourseNames) ∧
      (bindingLine (receiver e) ∈ p.bindingLines ↔
        target = .studentCourse ∨ c.name ∉ plainCourseNames) := by
  intro p
  constructor
  · intro r resolved
    have compiles := Condition.compile_of_registered custom method registered
    exact (Resolution.get?_compiled_iff resolved).mpr
      ⟨referenced, Workflow.meaning_of_declared declared relevant compiles⟩
  · obtain ⟨k, known, rfl⟩ := Option.map_eq_some_iff.mp registered
    have scope : (target = .studentCourse ∨ k.asked = .student) ↔
        target = .studentCourse ∨ c.name ∉ plainCourseNames := by
      by_cases course : target = .studentCourse
      · simp [course]
      · simp only [course, false_or]
        exact asked_student_iff relevant course (mem_synonyms_of_ofName? known)
    rw [receiver_known, ← scope]
    exact asked_bound_iff k target

/-- Steps for two conditions that are known by their names, one about a course and the other about a
student. -/
def registeredWorkflow : Workflow where
  conditions := .ofList [("requisites",
      ⟨"requisites", none, none, none, none, .null, ["requisites"], .empty⟩),
    ("minor", ⟨"minor", none, none, none, none, .null, ["minor"], .empty⟩)]
  steps := [gatedStep "Quiz" "requisites", gatedStep "Form" "minor"]
  extra := .empty

/-- The class for a term asks a course that it never binds, and a student that it binds. -/
theorem registered_receiver_bound_minor : ∃ r, (resolve Heuristic.defaults registeredWorkflow
      (Profile.studentTerm.selectSteps registeredWorkflow) .studentTerm).outcome = .ok r ∧
    r.compiled.get? "requisites" = some ⟨"course.has_requisites?", ["requisites"]⟩ ∧
    receiver "course.has_requisites?" ∉ Profile.studentTerm.bindings ∧
    r.compiled.get? "minor" = some ⟨"student.is_minor?", ["minor"]⟩ ∧
    receiver "student.is_minor?" ∈ Profile.studentTerm.bindings := by
  obtain ⟨r, resolved, keys⟩ := exists_ok_of_map (f := fun r => r.compiled.keys)
    (x := (resolve Heuristic.defaults registeredWorkflow
      (Profile.studentTerm.selectSteps registeredWorkflow) .studentTerm).outcome)
    (b := ["requisites", "minor"]) (by decide +kernel)
  have gates := (Resolution.resolve_eq_ok resolved).2.gates
  have course := registered_receiver_bound_iff Heuristic.defaults registeredWorkflow _ .studentTerm
    (show registeredWorkflow.conditions.get? "requisites" = some _ from rfl)
    (gates "requisites" (by simp [keys])) (by decide +kernel) (by decide) (by decide)
    (e := "course.has_requisites?") (by decide)
  have student := registered_receiver_bound_iff Heuristic.defaults registeredWorkflow _ .studentTerm
    (show registeredWorkflow.conditions.get? "minor" = some _ from rfl)
    (gates "minor" (by simp [keys])) (by decide +kernel) (by decide) (by decide)
    (e := "student.is_minor?") (by decide)
  exact ⟨r, resolved, course.1 r resolved, mt course.2.1.mp (by decide), student.1 r resolved,
    student.2.1.mpr (by decide)⟩

end Gatehouse
