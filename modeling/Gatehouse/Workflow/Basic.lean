import Gatehouse.Comparison
import Gatehouse.Keyed
import Gatehouse.Value

namespace Gatehouse

/-- One name, or any number of them. -/
inductive Names where
  | one (name : String)
  | many (names : List String)

namespace Names

def toList : Names → List String
  | one name => if name = "" then [] else [name]
  | many names => names

end Names

/-- A named predicate over an entity. -/
structure Condition where
  name : String
  entity : Option String
  property : Option String
  rubyMethod : Option String
  comparison : Option String
  value : Value
  fields : List String
  extra : Keyed Value

inductive StepId where
  | text (s : String)
  | number (i : Int)
  deriving DecidableEq

structure Step where
  id : Option StepId
  title : Option String
  stepType : Option String
  role : Option String
  description : Option String
  category : Option String
  conditional : Bool
  workflowCondition : Option Names
  softRequiredFields : Option Names
  actionOptions : List Value
  comments : Keyed Value
  extra : Keyed Value

/-- Declared conditions and the steps in the order of the document. -/
structure Workflow where
  conditions : Keyed Condition
  steps : List Step
  extra : Keyed Value

namespace Condition

def comparisonKind (c : Condition) : Option Comparison := c.comparison.bind Comparison.parse?

def isFalseValue (c : Condition) : Bool :=
  match c.value with
  | .bool b => !b
  | .text s => s == "false"
  | _ => false

def isTrueValue (c : Condition) : Bool :=
  match c.value with
  | .bool b => b
  | .text s => s == "true"
  | _ => false

theorem isTrueValue_iff {c : Condition} :
    c.isTrueValue = true ↔ c.value = .bool true ∨ c.value = .text "true" := by
  unfold isTrueValue
  split
  next b eq => simp [eq]
  next s eq => simp [eq]
  next noBool noText =>
    constructor
    · exact fun h => absurd h Bool.false_ne_true
    · rintro (eq | eq)
      · exact absurd eq (noBool true)
      · exact absurd eq (noText "true")

/-- No value is taken for both. -/
theorem isFalseValue_of_isTrueValue {c : Condition} (h : c.isTrueValue = true) :
    c.isFalseValue = false := by
  rcases isTrueValue_iff.mp h with eq | eq
  · rw [isFalseValue, eq]; rfl
  · rw [isFalseValue, eq]; rfl

end Condition

namespace Step

/-- The conditions that the step names as its gates. -/
def conditionNames (s : Step) : List String :=
  if s.conditional then
    match s.workflowCondition with
    | some names => names.toList.filter (· ≠ "")
    | none => []
  else []

/-- The fields that the step waits for. -/
def dependencies (s : Step) : List String :=
  match s.softRequiredFields with
  | some names => names.toList
  | none => []

end Step

/-- A step together with its place, which tells apart steps that carry no identifier. -/
structure PlacedStep where
  place : Nat
  step : Step

inductive StepKey where
  | id (i : StepId)
  | place (n : Nat)
  deriving DecidableEq

def PlacedStep.key (s : PlacedStep) : StepKey :=
  match s.step.id with
  | some i => .id i
  | none => .place s.place

def placeSteps (steps : List Step) : List PlacedStep :=
  steps.zipIdx.map fun (step, place) => ⟨place, step⟩

def Workflow.placedSteps (w : Workflow) : List PlacedStep := placeSteps w.steps

end Gatehouse
