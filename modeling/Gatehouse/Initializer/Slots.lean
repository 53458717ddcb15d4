import Gatehouse.Initializer.Profile
import Gatehouse.Initializer.Template
import Gatehouse.Value

namespace Gatehouse

namespace TemplateValue

def nothing : TemplateValue := mk "None" "None" "None" false [] []

def ofBool (b : Bool) : TemplateValue :=
  let shown := if b then "True" else "False"
  mk shown shown "bool object" b [] []

/-- Values in a row; one alone is followed by a comma. -/
def row (items : List TemplateValue) : TemplateValue :=
  let inner := commaSeparated (items.map shown)
  let shown := "(" ++ inner ++ (if items.length = 1 then "," else "") ++ ")"
  mk shown shown "tuple object" (!items.isEmpty) items []

def ofTexts (items : List String) : TemplateValue := row (items.map ofText)

/-- One of a fixed set of names, with the text that it stands for; from each of them one gets to the
others. -/
def choice (home family remark name value : String) (others : List (String × TemplateValue)) :
    TemplateValue :=
  let path := family ++ "." ++ name
  let whole := "<enum '" ++ family ++ "'>"
  let shown := "<" ++ path ++ ": " ++ displayText value ++ ">"
  mk path shown (home ++ "." ++ family ++ " object") true []
    ([("name", ofText name), ("value", ofText value), ("_name_", ofText name),
      ("_value_", ofText value), ("__doc__", ofText remark), ("__module__", ofText home),
      ("__class__", mk whole whole "enum.EnumType object" true [] [])] ++ others)

/-- A choice for each name and value, and from each of them the way to all. -/
def choices (home family remark : String) (members : List (String × String)) :
    List TemplateValue :=
  let all := members.map fun (name, value) => (name, choice home family remark name value [])
  members.map fun (name, value) => choice home family remark name value all

/-- A record with its fields, and what can be asked of it beside them. -/
def record (family remark : String) (fields more : List (String × TemplateValue)) :
    TemplateValue :=
  let home := "flowinit.compiler.profiles"
  let shown := family ++ "(" ++ commaSeparated (fields.map fun f => f.1 ++ "=" ++ f.2.shown) ++ ")"
  mk shown shown (home ++ "." ++ family ++ " object") true []
    (fields ++ more ++ [("__doc__", ofText remark), ("__module__", ofText home)])

/-- A question to a record that needs an answer from elsewhere first. -/
def question (family name owner : String) : String × TemplateValue :=
  let shown := "<bound method " ++ family ++ "." ++ name ++ " of " ++ owner ++ ">"
  (name, mk shown shown "method object" true [] [])

end TemplateValue

open TemplateValue

/-- The words that stand for themselves in every template. -/
def constantSlots : Slots :=
  [("true", ofBool true), ("True", ofBool true), ("false", ofBool false), ("False", ofBool false),
    ("none", nothing), ("None", nothing)]

/-- A part of all values of a class. -/
def memberOf (word family name : String) : String × TemplateValue :=
  let shown := "<" ++ word ++ " '" ++ name ++ "' of '" ++ family ++ "' objects>"
  (name, mk shown shown (word ++ "_descriptor object") true [] [])

def rangeClass : TemplateValue :=
  ofClass "range" (["start", "stop", "step"].map (memberOf "member" "range")
    ++ ["count", "index"].map (memberOf "method" "range"))

def dictClass : TemplateValue :=
  ofClass "dict" (["clear", "copy", "get", "items", "keys", "pop", "popitem", "setdefault",
    "update", "values"].map (memberOf "method" "dict"))

/-- Classes and functions that every template can name, unless it is filled with something else of
that name. -/
def sharedSlots : Slots :=
  let lorem := "<function generate_lorem_ipsum>"
  [("range", rangeClass), ("dict", dictClass), ("cycler", ofClass "jinja2.utils.Cycler" []),
    ("joiner", ofClass "jinja2.utils.Joiner" []),
    ("namespace", ofClass "jinja2.utils.Namespace" []),
    ("lipsum", mk lorem lorem "function object" true []
      [("__name__", ofText "generate_lorem_ipsum"), ("__module__", ofText "jinja2.utils")])]

/-- A template names itself. -/
def selfSlot (template : String) : String × TemplateValue :=
  let shown := "<TemplateReference " ++ displayText template ++ ">"
  ("self", mk shown shown "jinja2.runtime.TemplateReference object" true [] [])

/-- What the names in a template stand for that is filled with some values. -/
def Slots.forTemplate (template : String) (given : Slots) : Slots :=
  constantSlots ++ selfSlot template :: given ++ sharedSlots

/-- The choice that stands for one of several things. -/
def slotAmong {α : Type} [DecidableEq α] (all : List α) (slots : List TemplateValue) (a : α) :
    TemplateValue :=
  ((all.zip slots).lookup a).getD nothing

def Target.slot (t : Target) : TemplateValue :=
  slotAmong Target.all (choices "flowinit.workflow.models" "TargetObjectType"
    "Backend record kinds an initializer can attach to."
    (Target.all.map fun t => (t.label, t.name))) t

def Entity.slot (e : Entity) : TemplateValue :=
  slotAmong Entity.all (choices "flowinit.compiler.entities" "Entity"
    "Domain entities a condition can refer to."
    (Entity.all.map fun e => (upperText e.name, e.name))) e

def FieldGuard.slot (g : FieldGuard) : TemplateValue :=
  record "FieldGuard" "``if predicate`` setting one field, optionally another one otherwise."
    [("comment", ofText g.remark), ("predicate", ofText g.predicate), ("field", ofText g.field),
      ("otherwise", (g.otherwise.map ofText).getD nothing)] []

def Profile.slot (p : Profile) : TemplateValue :=
  let family := "TargetObjectProfile"
  let remark := "Everything that differs between the three initializer flavors."
  let fields : List (String × TemplateValue) :=
    [("target", p.target.slot), ("class_suffix", ofText p.classSuffix),
      ("file_suffix", ofText p.fileSuffix), ("workflow_category", ofText p.category),
      ("heading", ofText p.heading), ("entities", row (p.entities.map Entity.slot)),
      ("home_school_fields", ofTexts p.homeSchoolFields),
      ("non_partner_fields", ofTexts p.nonPartnerFields),
      ("partner_fields", ofTexts p.partnerFields),
      ("guards_before", row (p.guardsBefore.map FieldGuard.slot)),
      ("guards_after", row (p.guardsAfter.map FieldGuard.slot)),
      ("common_fields", ofTexts p.commonFields), ("filter_by_category", ofBool p.filtersByCategory),
      ("inline_path_predicates", ofBool p.asksInPlace)]
  let shown := (record family remark fields []).shown
  record family remark fields
    [("bindings", ofTexts p.bindings), question family "class_name" shown,
      question family "filename" shown]

end Gatehouse
