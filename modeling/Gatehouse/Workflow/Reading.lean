import Gatehouse.Workflow.Scalars

namespace Gatehouse

/-- A field of a record: the name that documents give it and a second one that is understood. -/
structure FieldName where
  main : String
  second : String

namespace FieldName

def of (name : String) : FieldName := ⟨name, name⟩

/-- The key under which the field is given; the main name goes first. -/
def given? (f : FieldName) (entries : List (Value × Value)) : Option (String × Value) :=
  match Value.field? f.main entries with
  | some v => some (f.main, v)
  | none => (Value.field? f.second entries).map (f.second, ·)

/-- Checks the field if it is given. -/
def check {α : Type} (f : FieldName) (entries : List (Value × Value)) (absent : Checked α)
    (reader : Value → Checked α) : Checked α :=
  match f.given? entries with
  | some (key, v) => (reader v).within (.key key)
  | none => absent

def text (f : FieldName) (entries : List (Value × Value)) : Checked (Option String) :=
  f.check entries (.valid none) Checked.ofOptionalText

end FieldName

/-- Some key is a text that cannot be encoded; nothing else is then told of a record. -/
def hasBrokenKey (entries : List (Value × Value)) : Bool :=
  entries.any fun
    | (.text s, _) => (encodingFault? s).isSome
    | _ => false

/-- What is given beside the fields; each key must be a text. -/
def extraEntries (fields : List FieldName) (entries : List (Value × Value)) :
    Checked (Keyed Value) :=
  let used := fields.filterMap fun f => (f.given? entries).map Prod.fst
  let check : Value × Value → Checked (List (String × Value))
    | (.text s, v) => .valid (if s ∈ used then [] else [(s, v)])
    | (k, _) => .faulty [⟨[.ofKey k], .invalidKey⟩]
  (Checked.sequence (entries.map check)).map fun lists => Keyed.ofList lists.flatten

namespace Condition

def fieldNames : List FieldName :=
  [.of "name", .of "entity", ⟨"property", "property_name"⟩, ⟨"rubyMethod", "ruby_method"⟩,
    .of "comparison", .of "value", .of "fields"]

/-- A condition that lists no fields sets the one that it is named after. -/
def withDefaultFields (entries : List (Value × Value)) : List (Value × Value) :=
  if ((Value.field? "fields" entries).getD .null).isTrue then entries
  else
    let name := (Value.field? "name" entries).getD .null
    Value.setField "fields" (.list (if name.isTrue then [name] else [])) entries

def ofFields (entries : List (Value × Value)) : Checked Condition :=
  Condition.mk <$>
    (FieldName.of "name").check entries (.faulty [⟨[.key "name"], .missing⟩]) Checked.ofText
    <*> (FieldName.of "entity").text entries
    <*> (FieldName.mk "property" "property_name").text entries
    <*> (FieldName.mk "rubyMethod" "ruby_method").text entries
    <*> (FieldName.of "comparison").text entries
    <*> (FieldName.of "value").check entries (.valid .null) .valid
    <*> (FieldName.of "fields").check entries (.valid []) Checked.ofTexts
    <*> extraEntries fieldNames entries

def ofEntries (entries : List (Value × Value)) : Checked Condition :=
  if hasBrokenKey entries then .fault .stringUnicode else ofFields (withDefaultFields entries)

def ofValue (v : Value) : Checked Condition :=
  match v.entries? with
  | some entries => ofEntries entries
  | none => .fault .modelType

end Condition

namespace Step

def fieldNames : List FieldName :=
  [.of "id", .of "title", ⟨"stepType", "step_type"⟩, .of "role", .of "description",
    .of "workflow_category", .of "conditional", ⟨"workflowCondition", "workflow_condition"⟩,
    ⟨"softRequiredFields", "soft_required_fields"⟩, ⟨"actionOptions", "action_options"⟩,
    .of "comments"]

def ofFields (entries : List (Value × Value)) : Checked Step :=
  Step.mk <$> (FieldName.of "id").check entries (.valid none) Checked.ofStepId
    <*> (FieldName.of "title").text entries
    <*> (FieldName.mk "stepType" "step_type").text entries
    <*> (FieldName.of "role").text entries
    <*> (FieldName.of "description").text entries
    <*> (FieldName.of "workflow_category").text entries
    <*> (FieldName.of "conditional").check entries (.valid false) (fun v => .valid v.isTrue)
    <*> (FieldName.mk "workflowCondition" "workflow_condition").check entries (.valid none)
      Checked.ofNames
    <*> (FieldName.mk "softRequiredFields" "soft_required_fields").check entries (.valid none)
      Checked.ofNames
    <*> (FieldName.mk "actionOptions" "action_options").check entries (.valid []) Checked.ofOptions
    <*> (FieldName.of "comments").check entries (.valid Keyed.empty) Checked.ofComments
    <*> extraEntries fieldNames entries

def ofEntries (entries : List (Value × Value)) : Checked Step :=
  if hasBrokenKey entries then .fault .stringUnicode else ofFields entries

def ofValue (v : Value) : Checked Step :=
  match v.entries? with
  | some entries => ofEntries entries
  | none => .fault .modelType

end Step

/-- Why a document is no workflow. -/
inductive WorkflowFault where
  | issues (list : List Issue)
  /-- the conditions are given as something that has no entries -/
  | conditionsKind (kind : String)

namespace Workflow

def fieldNames : List FieldName := [.of "conditions", .of "workflow"]

/-- A condition without a name of its own is named by its key. -/
def nameCondition (key v : Value) : Value :=
  match v.entries? with
  | some entries =>
    if ((Value.field? "name" entries).getD .null).isTrue then v
    else .map (Value.setField "name" key entries)
  | none => v

def checkConditionEntry (entry : Value × Value) : Checked (String × Condition) :=
  let (key, v) := entry
  Prod.mk <$> Checked.ofKey key <*> (Condition.ofValue (nameCondition key v)).within (.ofKey key)

/-- The entries of the conditions; something false stands for none. -/
def conditionEntries? (entries : List (Value × Value)) :
    Except WorkflowFault (List (Value × Value)) :=
  let v := (Value.field? "conditions" entries).getD .null
  if v.isTrue then
    match v.entries? with
    | some conditions => .ok conditions
    | none => .error (.conditionsKind v.qualifiedKind)
  else .ok []

def checkConditions (conditions : List (Value × Value)) : Checked (Keyed Condition) :=
  ((Checked.sequence (conditions.map checkConditionEntry)).map Keyed.ofList).within
    (.key "conditions")

def checkSteps (v : Value) : Checked (List Step) :=
  if v.isTrue then
    match v.items? with
    | some xs => Checked.ofItems Step.ofValue xs
    | none => .fault .listType
  else .valid []

def ofEntries (entries : List (Value × Value)) : Except WorkflowFault Workflow := do
  let conditions ← conditionEntries? entries
  let checked := Workflow.mk <$> checkConditions conditions
    <*> (FieldName.of "workflow").check entries (.valid []) checkSteps
    <*> extraEntries fieldNames entries
  match if hasBrokenKey entries then .fault .stringUnicode else checked with
  | .valid w => .ok w
  | .faulty issues => .error (.issues issues)

/-- Reads a workflow from a document; something false stands for an empty one. -/
def ofValue (v : Value) : Except WorkflowFault Workflow :=
  if v.isTrue then
    match v.entries? with
    | some entries => ofEntries entries
    | none => .error (.issues [⟨[], .modelType⟩])
  else ofEntries []

end Workflow

end Gatehouse
