import Gatehouse.Condition.Compile

namespace Gatehouse

namespace Condition

variable {c : Condition}

theorem compile_of_custom (custom : c.comparisonKind = some .custom) :
    c.compile.outcome = .ok c.compileCustom.result := by
  rw [compile, if_pos custom]
  rfl

theorem compile_of_marked (custom : c.comparisonKind ≠ some .custom)
    (marked : c.rubyMethod.any endsWithMark = true) :
    c.compile.outcome = .ok (some (negateIf c.isNegated
      ((accessorFor c.entity).result ++ "." ++ predicateCall (c.rubyMethod.getD "")))) := by
  rw [compile, if_neg custom, if_pos marked]
  rfl

theorem compile_of_registered (custom : c.comparisonKind ≠ some .custom)
    (method : c.rubyMethod.any endsWithMark = false) {e : String}
    (registered : registeredExpression? c.name = some e) : c.compile.outcome = .ok (some e) := by
  rw [compile, if_neg custom, if_neg (by simp [method]), registered]
  rfl

theorem compile_of_unregistered (custom : c.comparisonKind ≠ some .custom)
    (unmarked : c.rubyMethod.any endsWithMark = false)
    (unregistered : registeredExpression? c.name = none) :
    c.compile.outcome = if c.asksHomeSchool then
        .ok (some (negateIf c.isNegated KnownCondition.homeSchool.expression))
      else c.compileCall.outcome := by
  rw [compile, if_neg custom, if_neg (by simp [unmarked]), unregistered]
  by_cases home : c.asksHomeSchool = true
  · simp only [home, if_true]
    rfl
  · simp only [home]
    rfl

theorem outcome_compileCall (c : Condition) : c.compileCall.outcome =
    match c.calledMethod? with
    | none => .ok none
    | some method =>
      match if c.showsValue method then c.value.fault? else none with
      | some fault => .error fault
      | none => .ok (some (c.callExpression (accessorFor c.entity).result method)) := by
  rw [compileCall, Compiling.outcome_bind, Compiling.outcome_lift]
  cases called : c.calledMethod? with
  | none => rfl
  | some method =>
    dsimp only
    cases (if c.showsValue method = true then c.value.fault? else none) with
    | some fault => rfl
    | none => rfl

/-- A custom condition has its own text as expression, if there is one. -/
theorem result_compileCustom_eq_some_iff {e : String} : c.compileCustom.result = some e ↔
    ∃ s, c.value = .text s ∧ hasInk s = true ∧ trimText s = e := by
  unfold compileCustom
  split
  next s value => cases ink : hasInk s <;> simp [value, ink]
  next other => simpa using fun s value _ _ => other s value

/-- The expressions that the rules give for a condition. -/
inductive Expresses (c : Condition) : String → Prop
  | written {s : String} (custom : c.comparisonKind = some .custom) (value : c.value = .text s)
      (ink : hasInk s = true) : Expresses c (trimText s)
  | asked {method : String} (custom : c.comparisonKind ≠ some .custom)
      (given : c.rubyMethod = some method) (marked : endsWithMark method = true) :
      Expresses c (negateIf c.isNegated
        ((accessorFor c.entity).result ++ "." ++ predicateCall method))
  | known {k : KnownCondition} (custom : c.comparisonKind ≠ some .custom)
      (unmarked : c.rubyMethod.any endsWithMark = false)
      (named : KnownCondition.ofName? c.name = some k) : Expresses c k.expression
  | homeSchool (custom : c.comparisonKind ≠ some .custom)
      (unmarked : c.rubyMethod.any endsWithMark = false)
      (unregistered : registeredExpression? c.name = none) (asks : c.asksHomeSchool = true) :
      Expresses c (negateIf c.isNegated KnownCondition.homeSchool.expression)
  | called {method : String} (custom : c.comparisonKind ≠ some .custom)
      (unmarked : c.rubyMethod.any endsWithMark = false)
      (unregistered : registeredExpression? c.name = none) (other : c.asksHomeSchool = false)
      (calls : c.calledMethod? = some method)
      (shown : c.showsValue method = true → c.value.fault? = none) :
      Expresses c (c.callExpression (accessorFor c.entity).result method)

/-- How a call ends: nothing is called, the value that it is compared with has no text, or the call
stands in the expression. -/
theorem compileCall_iff : (c.compileCall.outcome = .ok none ↔ c.calledMethod? = none) ∧
    (∀ fault, c.compileCall.outcome = .error fault ↔
      (∃ method, c.calledMethod? = some method ∧ c.showsValue method = true) ∧
        c.value.fault? = some fault) ∧
    ∀ e, c.compileCall.outcome = .ok (some e) ↔
      ∃ method, c.calledMethod? = some method ∧
        (c.showsValue method = true → c.value.fault? = none) ∧
        c.callExpression (accessorFor c.entity).result method = e := by
  rw [outcome_compileCall]
  cases called : c.calledMethod? with
  | none => simp
  | some method =>
    cases shown : c.showsValue method with
    | false => simp [shown]
    | true => cases c.value.fault? <;> simp [shown]

theorem Expresses.compile_eq {e : String} (h : c.Expresses e) :
    c.compile.outcome = .ok (some e) := by
  cases h with
  | written custom value ink =>
    rw [compile_of_custom custom, result_compileCustom_eq_some_iff.mpr ⟨_, value, ink, rfl⟩]
  | asked custom given marked =>
    rw [compile_of_marked custom (by simpa [given] using marked), given]
    rfl
  | known custom unmarked named =>
    exact compile_of_registered custom unmarked (by rw [registeredExpression?, named]; rfl)
  | homeSchool custom unmarked unregistered asks =>
    rw [compile_of_unregistered custom unmarked unregistered, if_pos asks]
  | called custom unmarked unregistered other calls shown =>
    rw [compile_of_unregistered custom unmarked unregistered, if_neg (by simp [other])]
    exact (compileCall_iff.2.2 _).mpr ⟨_, calls, shown, rfl⟩

theorem expresses_of_compile {e : String} (h : c.compile.outcome = .ok (some e)) :
    c.Expresses e := by
  by_cases custom : c.comparisonKind = some .custom
  · rw [compile_of_custom custom, Except.ok.injEq] at h
    obtain ⟨s, value, ink, rfl⟩ := result_compileCustom_eq_some_iff.mp h
    exact .written custom value ink
  cases marked : c.rubyMethod.any endsWithMark with
  | true =>
    obtain ⟨method, given, mark⟩ := (Option.any_eq_true _ _).mp marked
    rw [compile_of_marked custom marked, given] at h
    cases h
    exact .asked custom given mark
  | false =>
    cases registered : registeredExpression? c.name with
    | some known =>
      rw [compile_of_registered custom marked registered] at h
      cases h
      obtain ⟨k, named, rfl⟩ := Option.map_eq_some_iff.mp registered
      exact .known custom marked named
    | none =>
      rw [compile_of_unregistered custom marked registered] at h
      cases home : c.asksHomeSchool with
      | true =>
        rw [if_pos home] at h
        cases h
        exact .homeSchool custom marked registered home
      | false =>
        rw [if_neg (by simp [home])] at h
        obtain ⟨method, calls, shown, rfl⟩ := (compileCall_iff.2.2 _).mp h
        exact .called custom marked registered home calls shown

/-- A condition is compiled to an expression by one of the rules, and by each that applies. -/
theorem compile_eq_some_iff {e : String} : c.compile.outcome = .ok (some e) ↔ c.Expresses e :=
  ⟨expresses_of_compile, Expresses.compile_eq⟩

end Condition

end Gatehouse
