import Gatehouse.Proofs.Receivers
import Mathlib.Data.List.Infix

namespace Gatehouse

/-- Two characters that stand together in a joined text stand so in one part, or where the parts
meet. -/
theorem pair_infix_append {a b : Char} {xs ys : List Char} (h : [a, b] <:+: xs ++ ys) :
    [a, b] <:+: xs ∨ [a, b] <:+: ys ∨ (a ∈ xs ∧ ys.head? = some b) := by
  induction xs with
  | nil => exact Or.inr (Or.inl h)
  | cons x xs ih =>
    rw [List.cons_append, List.infix_cons_iff] at h
    rcases h with front | later
    · obtain ⟨rfl, next⟩ := List.cons_prefix_cons.mp front
      cases xs with
      | nil =>
        obtain ⟨rest, eq⟩ := next
        exact Or.inr (Or.inr ⟨List.mem_cons_self, by rw [← List.nil_append ys, ← eq]; rfl⟩)
      | cons y xs =>
        obtain ⟨rfl, -⟩ := List.cons_prefix_cons.mp next
        exact Or.inl ⟨[], xs, rfl⟩
    · rcases ih later with inner | inner | ⟨mem, head⟩
      · exact Or.inl (inner.trans (List.suffix_cons x xs).isInfix)
      · exact Or.inr (Or.inl inner)
      · exact Or.inr (Or.inr ⟨List.mem_cons_of_mem x mem, head⟩)

theorem not_pair_infix {a b : Char} {cs : List Char} (h : a ∉ cs) : ¬[a, b] <:+: cs := fun pair =>
  h (pair.subset List.mem_cons_self)

theorem Entity.mark_notMem_accessor (e : Entity) : '?' ∉ (e.accessor ++ ".").toList := by
  cases e <;> decide

namespace Condition

/-- The comparison of a call with a value is no call that answers yes or no. -/
theorem isPredicateCall_compared (e : Entity) {method : String}
    (plain : isPredicateCall method = false) :
    isPredicateCall (e.accessor ++ "." ++ method ++ " == 'true'") = false := by
  obtain ⟨-, apart⟩ := (Bool.or_eq_false_iff).mp plain
  have ends : endsWithMark (e.accessor ++ "." ++ method ++ " == 'true'") = false := by
    rw [endsWithMark, String.toList_append, List.getLast?_append]
    rfl
  have parts : mentions (e.accessor ++ "." ++ method ++ " == 'true'") "?(" = false := by
    rw [Bool.eq_false_iff, ne_eq, mentions_iff] at apart ⊢
    intro within
    rw [String.toList_append, String.toList_append] at within
    rcases pair_infix_append within with front | behind | ⟨-, head⟩
    · rcases pair_infix_append front with inner | inner | ⟨mark, -⟩
      · exact not_pair_infix e.mark_notMem_accessor inner
      · exact apart inner
      · exact e.mark_notMem_accessor mark
    · exact not_pair_infix (by decide) behind
    · exact absurd head (by decide)
  rw [isPredicateCall, ends, parts]
  rfl

/-- The conditions that ask for the opposite: by their comparison or by their value. -/
def reversals (c : Condition) : List Condition :=
  [{ c with comparison := some "not-equals" }, { c with comparison := some "!=" },
    { c with comparison := some "blank" }, { c with value := .bool false },
    { c with value := .text "false" }]

/-- The name of the condition decides what it is compiled to. -/
def isKnownByName (c : Condition) : Bool :=
  !c.rubyMethod.any endsWithMark && (registeredExpression? c.name).isSome

/-- The call that answers the condition by yes or no, without a negation. -/
def question? (c : Condition) : Option String :=
  let accessor := (accessorFor c.entity).result
  if c.rubyMethod.any endsWithMark then
    some (accessor ++ "." ++ predicateCall (c.rubyMethod.getD ""))
  else if c.asksHomeSchool then some KnownCondition.homeSchool.expression
  else (c.calledMethod?.filter isPredicateCall).map fun method => accessor ++ "." ++ method

variable {c : Condition}

theorem outcome_compileCall_of_predicate {method : String} (called : c.calledMethod? = some method)
    (predicate : isPredicateCall method = true) :
    c.compileCall.outcome = .ok (some (negateIf c.isNegated
      ((accessorFor c.entity).result ++ "." ++ method))) := by
  rw [outcome_compileCall, called]
  simp [showsValue, predicate, callExpression]

/-- A question is compiled to its call, with a negation where the opposite is asked for. -/
theorem compile_of_question (custom : c.comparisonKind ≠ some .custom)
    (unknown : c.isKnownByName = false) {q : String} (asks : c.question? = some q) :
    c.compile.outcome = .ok (some (negateIf c.isNegated q)) := by
  unfold question? at asks
  by_cases marked : c.rubyMethod.any endsWithMark = true
  · rw [if_pos marked] at asks
    rw [compile_of_marked custom marked, Option.some.inj asks]
  · have unmarked : c.rubyMethod.any endsWithMark = false := Bool.eq_false_iff.mpr marked
    have unregistered : registeredExpression? c.name = none := by
      simpa [isKnownByName, unmarked] using unknown
    rw [compile_of_unregistered custom unmarked unregistered]
    simp only [unmarked, Bool.false_eq_true, if_false] at asks
    split at asks
    next home => rw [if_pos home, Option.some.inj asks]
    next home =>
      obtain ⟨method, chosen, rfl⟩ := Option.map_eq_some_iff.mp asks
      obtain ⟨called, predicate⟩ := Option.filter_eq_some_iff.mp chosen
      rw [if_neg home, outcome_compileCall_of_predicate called predicate]

/-- A condition for a true value that is compiled to a question asks just this question. -/
theorem question_of_compile (equals : c.comparisonKind = some .equals)
    (truth : c.isTrueValue = true)
    (known : c.entity.getD "" = "" ∨ (entityOf? c.entity).isSome = true)
    (unknown : c.isKnownByName = false) {e : String} (compiles : c.compile.outcome = .ok (some e))
    (predicate : isPredicateCall e = true) : c.question? = some e := by
  have custom : c.comparisonKind ≠ some .custom := by simp [equals]
  have plain : c.isNegated = false := by
    simp [isNegated, equals, isFalseValue_of_isTrueValue truth]
  cases expresses_of_compile compiles with
  | written written => exact absurd written custom
  | asked _ given marked =>
    rw [question?, given, Option.any_some, if_pos marked, plain]
    rfl
  | known _ unmarked named =>
    simp [isKnownByName, unmarked, registeredExpression?, named] at unknown
  | homeSchool _ unmarked _ asks =>
    rw [question?, unmarked, if_neg Bool.false_ne_true, if_pos asks, plain]
    rfl
  | @called method _ unmarked _ other calls =>
    rw [question?, unmarked, other, if_neg Bool.false_ne_true, if_neg Bool.false_ne_true, calls]
    cases asked : isPredicateCall method with
    | true =>
      rw [Option.filter_some_pos asked, callExpression, if_pos asked, plain]
      rfl
    | false =>
      -- any other method is compared with the value, and that is no question
      have shown : c.value.literal = "'true'" := by
        rcases isTrueValue_iff.mp truth with eq | eq
        · rw [eq]; decide
        · rw [eq]; decide
      have compared := isPredicateCall_compared ((entityOf? c.entity).getD .student) asked
      rw [callExpression, if_neg (by simp [asked]), comparisonExpression, equals, shown,
        result_accessorFor known, String.append_assoc] at predicate
      exact absurd (predicate.symm.trans compared) Bool.noConfusion

theorem isNegated_withComparison (c : Condition) {name : String}
    (opposite : Comparison.parse? name = some .notEquals ∨ Comparison.parse? name = some .blank) :
    ({ c with comparison := some name } : Condition).isNegated = true ∧
      ({ c with comparison := some name } : Condition).comparisonKind ≠ some .custom := by
  have kind : ({ c with comparison := some name } : Condition).comparisonKind =
      Comparison.parse? name := rfl
  rcases opposite with h | h
  · simp [isNegated, kind, h]
  · simp [isNegated, kind, h]

theorem isNegated_withValue (equals : c.comparisonKind = some .equals) {v : Value}
    (opposite : ({ c with value := v } : Condition).isFalseValue = true) :
    ({ c with value := v } : Condition).isNegated = true ∧
      ({ c with value := v } : Condition).comparisonKind ≠ some .custom := by
  have kind : ({ c with value := v } : Condition).comparisonKind = some .equals := equals
  simp [isNegated, kind, opposite]

theorem isNegated_of_mem_reversals (equals : c.comparisonKind = some .equals) {d : Condition}
    (hd : d ∈ c.reversals) : d.isNegated = true ∧ d.comparisonKind ≠ some .custom := by
  simp only [reversals, List.mem_cons, List.not_mem_nil, or_false] at hd
  rcases hd with rfl | rfl | rfl | rfl | rfl
  · exact c.isNegated_withComparison (Or.inl (by decide))
  · exact c.isNegated_withComparison (Or.inl (by decide))
  · exact c.isNegated_withComparison (Or.inr (by decide))
  · exact isNegated_withValue equals rfl
  · exact isNegated_withValue equals rfl

/-- What asks for the opposite differs in nothing that its question is made from. -/
theorem same_of_mem_reversals {d : Condition} (hd : d ∈ c.reversals) :
    d.question? = c.question? ∧ d.isKnownByName = c.isKnownByName ∧ d.name = c.name ∧
      d.rubyMethod = c.rubyMethod := by
  simp only [reversals, List.mem_cons, List.not_mem_nil, or_false] at hd
  rcases hd with rfl | rfl | rfl | rfl | rfl
  all_goals exact ⟨rfl, rfl, rfl, rfl⟩

end Condition

/-- The opposite of a question is compiled to the negation of its call, unless the name of the
condition decides: then it is compiled to the same call. -/
theorem compile_reversed (c : Condition) (equals : c.comparisonKind = some .equals)
    (value : c.value = .bool true)
    (known : c.entity.getD "" = "" ∨ (entityOf? c.entity).isSome = true) {e : String}
    (compiles : c.compile.outcome = .ok (some e)) (predicate : Condition.isPredicateCall e = true) :
    ∀ d ∈ c.reversals,
      d.compile.outcome = .ok (some (if c.isKnownByName then e else "!" ++ e)) := by
  intro d hd
  obtain ⟨negated, custom⟩ := Condition.isNegated_of_mem_reversals equals hd
  obtain ⟨question, byName, name, method⟩ := Condition.same_of_mem_reversals hd
  cases unknown : c.isKnownByName with
  | false =>
    have truth : c.isTrueValue = true := Condition.isTrueValue_iff.mpr (Or.inl value)
    have asks := Condition.question_of_compile equals truth known unknown compiles predicate
    rw [Condition.compile_of_question custom (byName.trans unknown) (question.trans asks), negated]
    rfl
  | true =>
    simp only [Condition.isKnownByName, Bool.and_eq_true, Bool.not_eq_true'] at unknown
    obtain ⟨unmarked, known⟩ := unknown
    obtain ⟨expression, registered⟩ := Option.isSome_iff_exists.mp known
    rw [Condition.compile_of_registered (by simp [equals]) unmarked registered] at compiles
    rw [Condition.compile_of_registered custom (method ▸ unmarked) (name ▸ registered), compiles]
    rfl

/-- A condition of the given name that asks for a true value of a property. -/
def propertyCondition (name entity property : String) : Condition :=
  ⟨name, some entity, some property, none, some "equals", .bool true, [name], .empty⟩

/-- A school without agreement is asked about the college, and the opposite negates the whole
call. -/
theorem compile_reversed_nonPartner :
    let c := propertyCondition "partner_gate" "HighSchool" "isNonPartner"
    c.compile.outcome = .ok (some "student.high_school.is_non_partner?(college)") ∧
      ({ c with comparison := some "blank" } : Condition).compile.outcome =
        .ok (some "!student.high_school.is_non_partner?(college)") := by
  intro c
  have compiles : c.compile.outcome = .ok (some "student.high_school.is_non_partner?(college)") :=
    rfl
  refine ⟨compiles, ?_⟩
  rw [compile_reversed c (by decide) rfl (by decide) compiles (by decide) _
    (by simp [Condition.reversals])]
  decide

/-- A minor is known by the name, so that a condition that asks for no minor asks for one. -/
theorem compile_reversed_minor :
    let c := propertyCondition "minor" "Student" "isMinor"
    c.compile.outcome = .ok (some "student.is_minor?") ∧
      Condition.isPredicateCall "student.is_minor?" = true ∧
      ∀ d ∈ c.reversals, d.compile.outcome = .ok (some "student.is_minor?") := by
  intro c
  have registered : registeredExpression? c.name = some "student.is_minor?" := by decide
  have named (d : Condition) (custom : d.comparisonKind ≠ some .custom)
      (method : d.rubyMethod = none) (name : d.name = c.name) :
      d.compile.outcome = .ok (some "student.is_minor?") :=
    Condition.compile_of_registered custom (by rw [method]; rfl) (name ▸ registered)
  refine ⟨named c (by decide) rfl rfl, by decide, fun d hd => ?_⟩
  obtain ⟨-, custom⟩ := Condition.isNegated_of_mem_reversals (by decide) hd
  obtain ⟨-, -, name, method⟩ := Condition.same_of_mem_reversals hd
  exact named d custom method name

end Gatehouse
