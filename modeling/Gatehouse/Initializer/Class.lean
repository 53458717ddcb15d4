import Gatehouse.Initializer.Completion
import Gatehouse.Initializer.Slots

namespace Gatehouse

/-- The head of the class, up to the record that it initializes. -/
def openingSource : String := unlines [
  "class {{ class_name }} < Step",
  "",
  "  def self.required_fields",
  "    return [\"active_flow_step_id\"]",
  "  end",
  "",
  "  def self.provided_fields(*args)",
  "    return [\"initialization_complete\"]",
  "  end",
  "",
  "  def self.on_activate(*args)",
  "    fields = args[0]",
  "    active_flow_step = ActiveFlowStep.find(fields[\"active_flow_step_id\"])",
  "    target_object = active_flow_step.get_target_object"]

def guardSource : String := unlines [
  "    # {{ guard.comment }}",
  "    if {{ guard.predicate }}",
  "      fields[\"{{ guard.field }}\"] = true",
  "{% if guard.otherwise %}",
  "    else",
  "      fields[\"{{ guard.otherwise }}\"] = true",
  "{% endif %}",
  "    end",
  ""]

/-- The variables, the fields of every class, and the heading. -/
def bindingsSource : String := unlines [
  "{% for local in profile.bindings %}",
  "    {{ local }} = target_object.{{ local }}",
  "{% endfor %}",
  "",
  "    # Common initialization",
  "{% for name in profile.common_fields %}",
  "    fields[\"{{ name }}\"] = true",
  "{% endfor %}",
  "",
  "    # {{ profile.heading }}"]

/-- What is asked for the second kind of school, in place or before. -/
def secondQuestion : String :=
 "\x7b\x7b non_partner_predicate if profile.inline_path_predicates else \"is_non_partner\" \x7d\x7d"

/-- The choice between the three kinds of school. -/
def schoolSource : String := unlines [
  "{% if profile.inline_path_predicates %}",
  "    # Set high school type",
  "    if {{ home_school_predicate }}",
  "{% else %}",
  "    # Home school, non-partner and partner high school paths are mutually exclusive",
  "    is_home_school = {{ home_school_predicate }}",
  "    is_non_partner = {{ non_partner_predicate }}",
  "",
  "    if is_home_school",
  "{% endif %}",
  "{% for name in profile.home_school_fields %}",
  "      fields[\"{{ name }}\"] = true",
  "{% endfor %}"] ++ "    elsif " ++ secondQuestion ++ unlines [
  "",
  "{% for name in profile.non_partner_fields %}",
  "      fields[\"{{ name }}\"] = true",
  "{% endfor %}",
  "    else",
  "{% for name in profile.partner_fields %}",
  "      fields[\"{{ name }}\"] = true",
  "{% endfor %}",
  "    end",
  ""]

def signatureText : String := unlines [
  "    # Set up student signature for enrollment form",
  "    fields[\"esign_enrollment_form_sign\"] = target_object.student.display_name",
  "    fields[\"esign_enrollment_form_date\"] = Time.now.strftime('%-d %b %Y')",
  ""]

def bodySource : String :=
  bindingsSource ++ "{{ guards_before }}" ++ schoolSource
    ++ "{{ guards_after }}{{ conditional_fields }}{{ completion_states }}" ++ signatureText

/-- The end of the class; no line feed follows it. -/
def closingText : String := unlines [
  "",
  "    # Complete the initialization",
  "    fields[\"initialization_complete\"] = true",
  "    fields = active_flow_step.complete_step(fields)",
  "    return fields",
  "  end",
  ""] ++ "end"

def homeSchoolPredicate : String := KnownCondition.homeSchool.expression

def nonPartnerPredicate : String := KnownCondition.nonPartner.expression

/-- What a workflow puts into a class: the code of its conditions and of their completion, between
the guards of the profile. -/
structure ClassBody where
  guardsBefore : String
  guardsAfter : String
  conditionalFields : String
  completionStates : String

/-- What the template of a profile's class body is filled with. -/
def ClassBody.slots (b : ClassBody) (p : Profile) : Slots :=
  Slots.forTemplate "body.rb.j2" [("profile", p.slot),
    ("home_school_predicate", .ofText homeSchoolPredicate),
    ("non_partner_predicate", .ofText nonPartnerPredicate),
    ("guards_before", .ofText b.guardsBefore), ("guards_after", .ofText b.guardsAfter),
    ("conditional_fields", .ofText b.conditionalFields),
    ("completion_states", .ofText b.completionStates)]

/-- Templates that stand in for the built-in ones of a class. -/
structure Templates where
  opening : Option Template
  guard : Option Template
  body : Option Template
  closing : Option Template

namespace Templates

def builtIn : Templates := ⟨none, none, none, none⟩

def fillOpening (t : Templates) (className : String) : Except TemplateFault String :=
  (t.opening.getD (.parse openingSource)).fill
    (Slots.forTemplate "skeleton.rb.j2" [("class_name", .ofText className)])

def fillClosing (t : Templates) : Except TemplateFault String :=
  (t.closing.getD (.parse closingText)).fill (Slots.forTemplate "closing.rb.j2" [])

def fillGuard (t : Templates) (g : FieldGuard) : Except TemplateFault String :=
  (t.guard.getD (.parse guardSource)).fill (Slots.forTemplate "guard.rb.j2" [("guard", g.slot)])

def fillGuards (t : Templates) (guards : List FieldGuard) : Except TemplateFault String :=
  (guards.mapM t.fillGuard).map String.join

def fillBody (t : Templates) (p : Profile) (b : ClassBody) : Except TemplateFault String :=
  (t.body.getD (.parse bodySource)).fill (b.slots p)

end Templates

/-- Why no class can be built from a workflow. -/
inductive EmitFault where
  | template (fault : TemplateFault)
  | value (fault : ValueFault)

/-- The choices that a class depends on beside its workflow. -/
structure Emitter where
  templates : Templates
  heuristics : List Heuristic
  partition : List String

namespace Emitter

def standard : Emitter := ⟨.builtIn, Heuristic.defaults, schoolNames⟩

/-- The parts of the class that templates may shape, in the order in which they are filled. -/
def assemble (e : Emitter) (p : Profile) (className : String) (guards : String × String)
    (conditional completion : String) : Except TemplateFault String := do
  let body ← e.templates.fillBody p ⟨guards.1, guards.2, conditional, completion⟩
  let opening ← e.templates.fillOpening className
  let closing ← e.templates.fillClosing
  pure (opening ++ body ++ closing)

/-- The class for one target of a college. -/
def emit (e : Emitter) (p : Profile) (w : Workflow) (college : String) :
    Logged (Except EmitFault String) := do
  let steps := p.selectSteps w
  let className := p.className college
  Logged.note (.generatingInitializer p.target className steps.length)
  match ← (resolve e.heuristics w steps p.target).run with
  | .error fault => return .error (.value fault)
  | .ok r =>
    match Prod.mk <$> e.templates.fillGuards p.guardsBefore
        <*> e.templates.fillGuards p.guardsAfter with
    | .error fault => return .error (.template fault)
    | .ok guards =>
      let completion ← completionCode e.partition r.compiled r.states
      return (e.assemble p className guards (conditionalCode r.compiled) completion).mapError
        .template

end Emitter

end Gatehouse
