import Gatehouse.Condition.Literal
import Gatehouse.Entity
import Gatehouse.KnownCondition
import Gatehouse.Text.Search
import Gatehouse.Workflow.Basic

namespace Gatehouse

/-- Compiling notes events, and fails where a value cannot be written. -/
abbrev Compiling := ExceptT ValueFault Logged

namespace Compiling

variable {α β : Type}

/-- What compiling ends with, whatever is noted on the way. -/
def outcome (x : Compiling α) : Except ValueFault α := x.run.result

@[simp] theorem outcome_pure (a : α) : outcome (pure a) = .ok a := rfl

@[simp] theorem outcome_throw (fault : ValueFault) :
    outcome (throw fault : Compiling α) = .error fault := rfl

@[simp] theorem outcome_lift (x : Logged α) : outcome (liftM x) = .ok x.result := rfl

@[simp] theorem outcome_bind (x : Compiling α) (f : α → Compiling β) :
    outcome (x >>= f) = x.outcome >>= fun a => (f a).outcome := by
  unfold outcome
  rw [ExceptT.run_bind, Logged.result_bind]
  cases x.run.result with
  | error fault => rfl
  | ok a => rfl

@[simp] theorem outcome_map (f : α → β) (x : Compiling α) :
    outcome (f <$> x) = x.outcome.map f := by
  rw [map_eq_pure_bind, outcome_bind]
  cases x.outcome with
  | error fault => rfl
  | ok a => rfl

theorem outcome_foldlM (f : β → α → Compiling β) (b : β) (xs : List α) :
    outcome (xs.foldlM f b) = xs.foldlM (fun b a => (f b a).outcome) b := by
  induction xs generalizing b with
  | nil => rfl
  | cons x xs ih => simp [List.foldlM_cons, ih]

/-- What is noted while compiling, up to a fault. -/
def events (x : Compiling α) : List Event := x.run.events

@[simp] theorem events_pure (a : α) : events (pure a) = [] := rfl

@[simp] theorem events_lift (x : Logged α) : events (liftM x) = x.events := by
  show x.events ++ [] = x.events
  rw [List.append_nil]

theorem events_bind (x : Compiling α) (f : α → Compiling β) :
    events (x >>= f) = x.events ++ match x.outcome with
      | .ok a => (f a).events
      | .error _ => [] := by
  unfold events outcome
  rw [ExceptT.run_bind, Logged.events_bind]
  cases x.run.result with
  | error fault => rfl
  | ok a => rfl

theorem events_bind_ok {x : Compiling α} {a : α} (h : x.outcome = .ok a)
    (f : α → Compiling β) : events (x >>= f) = x.events ++ (f a).events := by
  rw [events_bind, h]

end Compiling

namespace Condition

/-- Whether a predicate of the condition stands with a negation. -/
def isNegated (c : Condition) : Bool :=
  c.comparisonKind == some .notEquals || c.comparisonKind == some .blank || c.isFalseValue

def negateIf (negated : Bool) (expression : String) : String :=
  if negated then "!" ++ expression else expression

def endsWithMark (method : String) : Bool := method.toList.getLast? == some '?'

/-- A call that answers yes or no, with or without arguments. -/
def isPredicateCall (method : String) : Bool := endsWithMark method || mentions method "?("

/-- Methods that are asked about a college. -/
def collegeMethods : List String := ["is_non_partner?"]

def predicateCall (method : String) : String :=
  if collegeMethods.contains method then method ++ "(college)" else method

def homeSchoolProperties : List String := ["is_home_school", "isHomeSchool"]

/-- The condition asks a high school whether it is a home school. -/
def asksHomeSchool (c : Condition) : Bool :=
  entityOf? c.entity == some .highSchool && c.property.any homeSchoolProperties.contains

/-- The comparison of a call's value with the condition's value. -/
def comparisonExpression (c : Condition) (call : String) : String :=
  match c.comparisonKind with
  | some .equals => call ++ " == " ++ c.value.literal
  | some .notEquals => call ++ " != " ++ c.value.literal
  | some .includes => call ++ ".to_s.include?(" ++ c.value.quoted ++ ")"
  | some .notIncludes => "!" ++ call ++ ".to_s.include?(" ++ c.value.quoted ++ ")"
  | some .present => call ++ ".present?"
  | some .blank => call ++ ".blank?"
  | kind =>
    match kind.bind Comparison.ordering? with
    | some operator => call ++ " " ++ operator ++ " " ++ c.value.bare
    | none => call ++ " == " ++ c.value.quoted

/-- The comparison shows the condition's value. -/
def showsValue (c : Condition) (method : String) : Bool :=
  !isPredicateCall method && c.comparisonKind != some .present && c.comparisonKind != some .blank

def callExpression (c : Condition) (accessor method : String) : String :=
  let call := accessor ++ "." ++ method
  if isPredicateCall method then negateIf c.isNegated call else c.comparisonExpression call

/-- The method that the condition calls: its own one, or that of its property. -/
def calledMethod? (c : Condition) : Option String :=
  match c.rubyMethod with
  | some method =>
    if method = "" ∨ method = Comparison.custom.name then methodFor c.entity c.property
    else some method
  | none => methodFor c.entity c.property

def compileCustom (c : Condition) : Logged (Option String) :=
  match c.value with
  | .text s =>
    if hasInk s then pure (some (trimText s))
    else do
      Logged.note (.customConditionEmpty c.name)
      pure none
  | _ => do
    Logged.note (.customConditionEmpty c.name)
    pure none

def compileCall (c : Condition) : Compiling (Option String) := do
  let accessor ← accessorFor c.entity
  match c.calledMethod? with
  | some method =>
    match if c.showsValue method then c.value.fault? else none with
    | some fault => throw fault
    | none => pure (some (c.callExpression accessor method))
  | none => do
    Logged.note (.propertyUnresolved c.name c.entity c.property)
    pure none

/-- The expression of a condition. A custom one comes first, then a predicate method, then what is
known under the name, then the question whether a school is a home school, then a call. -/
def compile (c : Condition) : Compiling (Option String) := do
  if c.comparisonKind = some .custom then c.compileCustom
  else if c.rubyMethod.any endsWithMark then
    let accessor ← accessorFor c.entity
    let method := c.rubyMethod.getD ""
    pure (some (negateIf c.isNegated (accessor ++ "." ++ predicateCall method)))
  else match registeredExpression? c.name with
    | some expression => do
      Logged.note (.registryMatch c.name)
      pure (some expression)
    | none =>
      if c.asksHomeSchool then
        pure (some (negateIf c.isNegated KnownCondition.homeSchool.expression))
      else c.compileCall

end Condition

/-- Parts of a name that tell which known condition is meant. -/
def nameHints : List (List String × KnownCondition) :=
  [(["home_school", "homeschool"], .homeSchool), (["non_partner", "nonpartner"], .nonPartner),
    (["prereq", "requisites"], .hasPrerequisites), (["wish_list"], .wishList),
    (["section_full"], .sectionFull), (["minor"], .minor)]

def fieldLookup (name : String) : String := "fields[\"" ++ name ++ "\"]"

/-- The expression for a name that nothing declares: a known condition that the name hints at, or
the field of that name. -/
def guessExpression (name : String) : String :=
  let lowered := lowerText name
  match nameHints.find? fun hint => hint.1.any fun fragment => mentions lowered fragment with
  | some hint => hint.2.expression
  | none => fieldLookup name

end Gatehouse
