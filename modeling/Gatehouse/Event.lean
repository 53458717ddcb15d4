import Gatehouse.Target
import Gatehouse.Value

namespace Gatehouse

inductive Level where
  | debug
  | info
  | warning
  | error
  deriving DecidableEq

namespace Level

def name : Level → String
  | debug => "debug"
  | info => "info"
  | warning => "warning"
  | error => "error"

def rank : Level → Nat
  | debug => 10
  | info => 20
  | warning => 30
  | error => 40

end Level

/-- Why a declared condition is left out of a class. -/
inductive SkipReason where
  | unreferenced
  | notAvailable (target : Target)
  deriving DecidableEq

/-- What is noted down while a workflow is read and a class is built. -/
inductive Event where
  | workflowParsed (steps : Nat) (conditions : List String)
  | entityUnknown (entity fallback : String)
  | customConditionEmpty (condition : String)
  | registryMatch (condition : String)
  | propertyUnresolved (condition : String) (entity property : Option String)
  | branchDiscovered (condition : String) (steps : List (Option String)) (states : List String)
  | dependentStepLinked (condition : String) (step : Option String)
  | affidavitReviewLinked (condition : String) (step : Option String)
  | analyzingConditions (target : Target) (steps : Nat) (referenced branches : List String)
  | conditionCompiled (condition expression : String)
  | conditionSkipped (condition : String) (reason : SkipReason)
  | conditionDropped (condition : String)
  | partitionDefaulted (condition : String)
  | partitionMerged (conditions : List String)
  | generatingInitializer (target : Target) (className : String) (steps : Nat)
  | unsupportedTarget (target : Value)
  | initializerWritten (target : Target) (path : String)

namespace Event

def name : Event → String
  | workflowParsed .. => "workflow_parsed"
  | entityUnknown .. => "entity_unknown"
  | customConditionEmpty .. => "custom_condition_empty"
  | registryMatch .. => "condition_registry_match"
  | propertyUnresolved .. => "condition_property_unresolved"
  | branchDiscovered .. => "branch_discovered"
  | dependentStepLinked .. => "dependent_step_linked"
  | affidavitReviewLinked .. => "affidavit_review_linked"
  | analyzingConditions .. => "analyzing_conditions"
  | conditionCompiled .. => "condition_compiled"
  | conditionSkipped .. => "condition_skipped"
  | conditionDropped .. => "condition_dropped"
  | partitionDefaulted .. => "partition_condition_defaulted"
  | partitionMerged .. => "partition_merged"
  | generatingInitializer .. => "generating_initializer"
  | unsupportedTarget .. => "unsupported_target_object_type"
  | initializerWritten .. => "initializer_written"

def level : Event → Level
  | customConditionEmpty .. | propertyUnresolved .. | conditionDropped .. => .warning
  | analyzingConditions .. | conditionSkipped _ (.notAvailable _) | partitionDefaulted ..
  | generatingInitializer .. | initializerWritten .. => .info
  | unsupportedTarget .. => .error
  | _ => .debug

/-- The part of the program that an event comes from. -/
inductive Source where
  | loading
  | entities
  | emitting
  deriving DecidableEq

/-- The name under which the part logs. -/
def Source.logger : Source → String
  | loading => "flowinit.workflow.parser"
  | entities => "flowinit.compiler.entities"
  | emitting => "flowinit.compiler.emitter"

def source : Event → Source
  | workflowParsed .. => .loading
  | entityUnknown .. => .entities
  | _ => .emitting

def ofTexts (names : List String) : Value := .list (names.map Value.text)

def ofOption : Option String → Value
  | some s => .text s
  | none => .null

def fields : Event → List (String × Value)
  | workflowParsed steps conditions =>
    [("steps", .int steps), ("conditions", ofTexts conditions)]
  | entityUnknown entity fallback => [("entity", .text entity), ("fallback", .text fallback)]
  | customConditionEmpty condition | registryMatch condition | conditionDropped condition
  | partitionDefaulted condition => [("condition", .text condition)]
  | propertyUnresolved condition entity property =>
    [("condition", .text condition), ("entity", ofOption entity), ("property", ofOption property)]
  | branchDiscovered condition steps states =>
    [("condition", .text condition), ("steps", .list (steps.map ofOption)),
      ("completion_states", ofTexts states)]
  | dependentStepLinked condition step | affidavitReviewLinked condition step =>
    [("condition", .text condition), ("step", ofOption step)]
  | analyzingConditions target steps referenced branches =>
    [("target", .text target.name), ("steps", .int steps), ("referenced", ofTexts referenced),
      ("branches", ofTexts branches)]
  | conditionCompiled condition expression =>
    [("condition", .text condition), ("expression", .text expression)]
  | conditionSkipped condition .unreferenced =>
    [("condition", .text condition), ("reason", .text "unreferenced")]
  | conditionSkipped condition (.notAvailable target) =>
    [("condition", .text condition), ("reason", .text "not_available_for_target"),
      ("target", .text target.name)]
  | partitionMerged conditions => [("conditions", ofTexts conditions)]
  | generatingInitializer target className steps =>
    [("target", .text target.name), ("class_name", .text className), ("steps", .int steps)]
  | unsupportedTarget target => [("target", target)]
  | initializerWritten target path => [("target", .text target.name), ("path", .text path)]

end Event

end Gatehouse
