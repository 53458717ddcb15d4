import Gatehouse.Branch.Discovery
import Gatehouse.Condition.Compile
import Gatehouse.Condition.Relevance

namespace Gatehouse

/-- The expression of a condition and the fields that it sets. -/
structure Compiled where
  expression : String
  fields : List String
  deriving DecidableEq

/-- The compiled conditions, and the completion fields of their branches. -/
structure Resolution where
  compiled : Keyed Compiled
  states : Keyed (List String)

namespace Resolution

def empty : Resolution := ⟨Keyed.empty, Keyed.empty⟩

/-- A condition that lists no fields sets the one of its own name. -/
def register (branches : List (String × Branch)) (r : Resolution) (name expression : String)
    (fields : List String) : Logged Resolution := do
  Logged.note (.conditionCompiled name expression)
  pure ⟨r.compiled.insert name ⟨expression, if fields = [] then [name] else fields⟩,
    match branches.lookup name with
    | some b => r.states.insert name b.states
    | none => r.states⟩

/-- Takes a declared condition in, if a step is gated by it, the target can reach it, and it has an
expression. -/
def registerDeclared (branches : List (String × Branch)) (referenced : List String)
    (target : Target) (r : Resolution) (entry : String × Condition) : Compiling Resolution :=
  let (name, condition) := entry
  if name ∉ referenced then do
    Logged.note (.conditionSkipped name .unreferenced)
    pure r
  else if !condition.isRelevant target then do
    Logged.note (.conditionSkipped name (.notAvailable target))
    pure r
  else do
    match ← condition.compile with
    | some expression => r.register branches name expression condition.fields
    | none => do
      Logged.note (.conditionDropped name)
      pure r

/-- Takes in a kind of school that gates a step and is not declared. -/
def registerSchool (branches : List (String × Branch)) (referenced : List String) (r : Resolution)
    (school : String × KnownCondition) : Logged Resolution :=
  let (name, known) := school
  if name ∈ referenced ∧ !r.compiled.contains name then do
    Logged.note (.partitionDefaulted name)
    r.register branches name known.expression [name]
  else pure r

def registerGuess (branches : List (String × Branch)) (r : Resolution) (name : String) :
    Logged Resolution :=
  r.register branches name (guessExpression name) [name]

end Resolution

/-- The conditions that a class for the target is built from. Where conditions are declared only
these and the kinds of school count; where none is, each name is guessed. -/
def resolve (heuristics : List Heuristic) (w : Workflow) (steps : List PlacedStep)
    (target : Target) : Compiling Resolution := do
  let referenced := referencedNames heuristics steps
  let branches ← discoverBranches heuristics steps
  Logged.note (.analyzingConditions target steps.length referenced (branches.map Prod.fst))
  if w.conditions.entries = [] then
    let guessed : Logged Resolution :=
      referenced.foldlM (Resolution.registerGuess branches) Resolution.empty
    guessed
  else
    let declared ← w.conditions.entries.foldlM
      (Resolution.registerDeclared branches referenced target) Resolution.empty
    let completed : Logged Resolution :=
      schoolPartition.foldlM (Resolution.registerSchool branches referenced) declared
    completed

end Gatehouse
