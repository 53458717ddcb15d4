import Gatehouse.Initializer.GuardedBlock
import Gatehouse.Resolution

namespace Gatehouse

/-- One block for each condition, which sets its fields if it holds. -/
def conditionalBlocks (compiled : Keyed Compiled) : List GuardedBlock :=
  compiled.entries.map fun (name, c) =>
    ⟨"Condition: " ++ name, false, c.expression, if c.fields = [] then [name] else c.fields⟩

def conditionalCode (compiled : Keyed Compiled) : String :=
  headedBlocks "Conditional fields based on workflow conditions" (conditionalBlocks compiled)

/-- One block for each compiled condition with completion fields, which sets them unless it
holds. -/
def autoCompleteBlocks (compiled : Keyed Compiled) (states : Keyed (List String)) :
    List GuardedBlock :=
  states.entries.filterMap fun (name, tokens) =>
    match compiled.get? name with
    | some c =>
      if tokens = [] then none
      else some
        ⟨"Auto-complete steps for students who don't qualify for " ++ name, true, c.expression,
          tokens⟩
    | none => none

def autoCompleteCode (compiled : Keyed Compiled) (states : Keyed (List String)) : String :=
  headedBlocks "Set completion states for students who don't meet condition criteria"
    (autoCompleteBlocks compiled states)

/-- The completion fields of all paths but the one taken. -/
def otherStates (states : Keyed (List String)) (present : List String) (taken : String) :
    List String :=
  (present.filter (· ≠ taken)).foldl
    (fun fields other => ((states.get? other).getD []).foldl addNew fields) []

/-- The compiled members of a partition, if there are at least two. -/
def mergedPaths (partition : List String) (compiled : Keyed Compiled) : List String :=
  let present := partition.filter compiled.contains
  if present.length < 2 then [] else present

/-- One block for each path through the partition, which sets the completion fields of the
others. -/
def mergeBlocks (partition : List String) (compiled : Keyed Compiled)
    (states : Keyed (List String)) : List GuardedBlock :=
  let present := mergedPaths partition compiled
  present.filterMap fun taken =>
    let others := otherStates states present taken
    match compiled.get? taken with
    | some c =>
      if others = [] then none else some ⟨"Path taken: " ++ taken, false, c.expression, others⟩
    | none => none

def mergeCode (partition : List String) (compiled : Keyed Compiled)
    (states : Keyed (List String)) : Logged String := do
  let blocks := mergeBlocks partition compiled states
  if !blocks.isEmpty then
    Logged.note (.partitionMerged (mergedPaths partition compiled))
  pure (headedBlocks "Merge completion states across mutually exclusive high school paths" blocks)

def completionCode (partition : List String) (compiled : Keyed Compiled)
    (states : Keyed (List String)) : Logged String := do
  let merge ← mergeCode partition compiled states
  pure (autoCompleteCode compiled states ++ merge)

end Gatehouse
