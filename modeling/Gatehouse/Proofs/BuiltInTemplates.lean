import Gatehouse.Initializer.Class

namespace Gatehouse

/-- The head of the class, up to the record that it initializes. -/
def openingText (className : String) : String := unlines [
  "class " ++ className ++ " < Step",
  "",
  "  def self.required_fields",
  "    return [\"active_flow_step_id\"]",
  "  end",
  "",
  "  def self.provided_fields(*args)",
  "    return [\"initialization_complete\"]",
  "  end",
  "",
  "  def self.on_activate(*args)",
  "    fields = args[0]",
  "    active_flow_step = ActiveFlowStep.find(fields[\"active_flow_step_id\"])",
  "    target_object = active_flow_step.get_target_object"]

/-- The methods of every class that tell its fields. -/
def fieldMethodLines : List String := [
  "",
  "  def self.required_fields",
  "    return [\"active_flow_step_id\"]",
  "  end",
  "",
  "  def self.provided_fields(*args)",
  "    return [\"initialization_complete\"]",
  "  end",
  ""]

/-- How every class comes to its record. -/
def recordLines : List String := [
  "    fields = args[0]",
  "    active_flow_step = ActiveFlowStep.find(fields[\"active_flow_step_id\"])",
  "    target_object = active_flow_step.get_target_object"]

def FieldGuard.text (g : FieldGuard) : String := unlines (
  ["    # " ++ g.remark, "    if " ++ g.predicate, GuardedBlock.setLine g.field]
    ++ (match g.otherwise with
      | some field => if field = "" then [] else ["    else", GuardedBlock.setLine field]
      | none => [])
    ++ ["    end", ""])

namespace Profile

/-- The variables, the fields of every class, and the heading. -/
def bindingLines (p : Profile) : List String :=
  p.bindings.map (fun v => "    " ++ v ++ " = target_object." ++ v)
    ++ ["", "    # Common initialization"]
    ++ p.commonFields.map (fun field => "    fields[\"" ++ field ++ "\"] = true")
    ++ ["", "    # " ++ p.heading]

theorem forall_bindingLines {p : Profile} {P : String → Prop}
    (binding : ∀ e : Entity, P ("    " ++ e.accessor ++ " = target_object." ++ e.accessor))
    (blank : P "") (remark : P "    # Common initialization")
    (field : ∀ f ∈ p.commonFields, P ("    fields[\"" ++ f ++ "\"] = true"))
    (heading : P ("    # " ++ p.heading)) : ∀ line ∈ p.bindingLines, P line := by
  intro line hline
  simp only [bindingLines, bindings, List.mem_append, List.mem_map, List.mem_cons,
    List.not_mem_nil, or_false] at hline
  rcases hline with ((⟨v, ⟨e, -, rfl⟩, rfl⟩ | rfl | rfl) | ⟨f, hf, rfl⟩) | rfl | rfl
  · exact binding e
  · exact blank
  · exact remark
  · exact field f hf
  · exact blank
  · exact heading

/-- The choice between the three kinds of school. -/
def schoolLines (p : Profile) : List String :=
  (if p.asksInPlace then ["    # Set high school type", "    if " ++ homeSchoolPredicate]
    else [
      "    # Home school, non-partner and partner high school paths are mutually exclusive",
      "    is_home_school = " ++ homeSchoolPredicate,
      "    is_non_partner = " ++ nonPartnerPredicate,
      "",
      "    if is_home_school"])
    ++ p.homeSchoolFields.map GuardedBlock.setLine
    ++ ["    elsif " ++ (if p.asksInPlace then nonPartnerPredicate else "is_non_partner")]
    ++ p.nonPartnerFields.map GuardedBlock.setLine
    ++ ["    else"]
    ++ p.partnerFields.map GuardedBlock.setLine
    ++ ["    end", ""]

end Profile

def ClassBody.text (b : ClassBody) (p : Profile) : String :=
  unlines p.bindingLines ++ b.guardsBefore ++ unlines p.schoolLines ++ b.guardsAfter
    ++ b.conditionalFields ++ b.completionStates ++ signatureText

theorem GuardedBlock.setLine_eq (field : String) :
    setLine field = "      fields[\"" ++ field ++ "\"] = true" := rfl

theorem append_ofList {s t : String} {cs ds : List Char} (hs : s = String.ofList cs)
    (ht : t = String.ofList ds) : s ++ t = String.ofList (cs ++ ds) := by
  rw [hs, ht, String.ofList_append]

/-- A name that every template knows is not given to one; all others stand for what is given. -/
theorem Slots.find_forTemplate {template name : String} {given : Slots} {v : TemplateValue}
    (path : List String) (own : constantSlots.lookup name = none) (other : name ≠ "self")
    (found : given.lookup name = some v) :
    (Slots.forTemplate template given).find (name :: path) = path.foldlM TemplateValue.part v := by
  have here : (Slots.forTemplate template given).lookup name = some v := by
    rw [Slots.forTemplate, List.append_assoc, List.lookup_append, own, List.cons_append,
      selfSlot, List.lookup_cons, beq_false_of_ne other, List.lookup_append, found]
    rfl
  simp only [Slots.find, here]

theorem Slots.find_cons (name : String) (v : TemplateValue) (slots : Slots) :
    Slots.find ((name, v) :: slots) [name] = .ok v := by
  rw [Slots.find, List.lookup_cons, beq_self_eq_true]
  rfl

theorem TemplateValue.foldlM_part {v w : TemplateValue} {name : String}
    (found : v.parts.lookup name = some w) : [name].foldlM part v = .ok w := by
  simp only [List.foldlM, part, found]
  rfl

theorem TemplateWord.fill_name {slots : Slots} {path : List String} {t : String}
    (found : slots.find path = .ok (.ofText t)) : (TemplateWord.name path).fill slots = .ok t := by
  rw [fill, found]
  rfl

namespace Template

/-- Nothing keeps the template from being filled, and this is what comes out. -/
def Fills (t : Template) (slots : Slots) (s : String) : Prop := t.fill slots = .ok s

namespace Fills

variable {slots : Slots} {rest : Template} {name s t : String}

theorem of_eq {template : Template} (filled : template.Fills slots s) (same : s = t) :
    template.Fills slots t := same ▸ filled

theorem done : Template.done.Fills slots "" := rfl

theorem text (t : String) (more : rest.Fills slots s) :
    (Template.text t rest).Fills slots (t ++ s) := by
  rw [Fills] at more
  rw [Fills, fill, more]
  rfl

theorem slot {word : TemplateWord} (filled : word.fill slots = .ok t)
    (more : rest.Fills slots s) : (Template.slot word rest).Fills slots (t ++ s) := by
  rw [Fills] at more
  rw [Fills, fill, filled, more]
  rfl

/-- A slot for the text that a part is used for. -/
theorem own (more : rest.Fills ((name, .ofText t) :: slots) s) :
    (Template.slot (.name [name]) rest).Fills ((name, .ofText t) :: slots) (t ++ s) :=
  slot (TemplateWord.fill_name (Slots.find_cons name (.ofText t) slots)) more

theorem either {asked : List String} {v : TemplateValue} {yes no : TemplateWord}
    (found : slots.find asked = .ok v) (filled : (if v.isTrue then yes else no).fill slots = .ok t)
    (more : rest.Fills slots s) : (Template.either asked yes no rest).Fills slots (t ++ s) := by
  rw [Fills] at more
  rw [Fills, fill, found, more]
  simp only [bind, Except.bind, filled]
  rfl

theorem choice {asked : List String} {v : TemplateValue} {yes no : Template}
    (found : slots.find asked = .ok v) (filled : (if v.isTrue then yes else no).Fills slots t)
    (more : rest.Fills slots s) : (Template.choice asked yes no rest).Fills slots (t ++ s) := by
  have chosen : (if v.isTrue then yes.fill slots else no.fill slots) = .ok t := by
    split at filled
    next h => exact (if_pos h).trans filled
    next h => exact (if_neg h).trans filled
  rw [Fills] at more
  rw [Fills, fill, found, more]
  simp only [bind, Except.bind, chosen]
  rfl

/-- A part that is used for each of some texts gives a line for each. -/
theorem loop {items : List String} {texts : List String} {body : Template}
    {line : String → String} (found : slots.find items = .ok (.ofTexts texts))
    (each : ∀ t, body.Fills ((name, .ofText t) :: slots) (line t ++ "\n"))
    (more : rest.Fills slots s) :
    (Template.loop name items body rest).Fills slots (unlines (texts.map line) ++ s) := by
  have lines : (TemplateValue.ofTexts texts).items.mapM
      (fun v => body.fill ((name, v) :: slots)) = .ok (texts.map fun t => line t ++ "\n") := by
    change (texts.map TemplateValue.ofText).mapM _ = _
    rw [List.mapM_map]
    exact (congrArg texts.mapM (funext each)).trans List.mapM_pure
  rw [Fills] at more
  rw [Fills, fill, found, more]
  simp only [bind, Except.bind, lines]
  rw [unlines, List.map_map]
  rfl

end Fills

/-- A field that is set, behind the start of its line. -/
def setPart (path : List String) (rest : Template) : Template :=
  .slot (.name path) (.text "\"] = true\n" rest)

theorem Fills.setPart {slots : Slots} {rest : Template} {path : List String} {field s : String}
    (found : slots.find path = .ok (.ofText field)) (more : rest.Fills slots s) :
    (Template.setPart path rest).Fills slots (field ++ ("\"] = true" ++ ("\n" ++ s))) := by
  have ending : "\"] = true\n" = "\"] = true" ++ "\n" := rfl
  refine of_eq (.slot (TemplateWord.fill_name found) (.text _ more)) ?_
  rw [ending, String.append_assoc]

/-- The lines that set the fields of a list. -/
theorem Fills.setLines {slots : Slots} {rest : Template} {items : List String}
    {fields : List String} {s : String} (found : slots.find items = .ok (.ofTexts fields))
    (more : rest.Fills slots s) :
    (Template.loop "name" items (.text "      fields[\"" (Template.setPart ["name"] .done))
      rest).Fills slots (unlines (fields.map GuardedBlock.setLine) ++ s) := by
  refine loop found (fun field => ?_) more
  refine of_eq (.text _ (.setPart (Slots.find_cons _ _ slots) .done)) ?_
  simp only [GuardedBlock.setLine_eq, String.append_assoc, String.append_empty]

theorem parse_closingText : parse closingText = .text closingText .done := by
  have chars : closingText = String.ofList _ :=
    append_ofList (unlines_ofList [_, _, _, _, _, _, _]) rfl
  rw [parse, chars, String.toList_ofList]
  rfl

set_option maxRecDepth 20000 in
theorem parse_openingSource : parse openingSource =
    .text "class " (.slot (.name ["class_name"]) (.text (unlines (" < Step" :: fieldMethodLines
      ++ "  def self.on_activate(*args)" :: recordLines)) .done)) := by
  have chars : openingSource = String.ofList _ :=
    unlines_ofList [_, _, _, _, _, _, _, _, _, _, _, _, _, _]
  have rest : unlines (" < Step" :: fieldMethodLines
      ++ "  def self.on_activate(*args)" :: recordLines) = String.ofList _ :=
    unlines_ofList [_, _, _, _, _, _, _, _, _, _, _, _, _, _]
  rw [parse, chars, rest, String.toList_ofList]
  rfl

/-- What sets a field if a predicate holds, and maybe another one if it does not. -/
theorem parse_guardSource : parse guardSource =
    .text "    # " (.slot (.name ["guard", "comment"]) (.text "\n    if "
      (.slot (.name ["guard", "predicate"]) (.text "\n      fields[\"" (setPart ["guard", "field"]
        (.choice ["guard", "otherwise"]
          (.text "    else\n      fields[\"" (setPart ["guard", "otherwise"] .done)) .done
        (.text "    end\n\n" .done))))))) := by
  have chars : guardSource = String.ofList _ := unlines_ofList [_, _, _, _, _, _, _, _, _]
  rw [parse, chars, String.toList_ofList]
  rfl

/-- The variables of a class, the fields that every class sets, and its heading. -/
def bindingsPart (rest : Template) : Template :=
  .loop "local" ["profile", "bindings"]
    (.text "    " (.slot (.name ["local"]) (.text " = target_object."
      (.slot (.name ["local"]) (.text "\n" .done)))))
  (.text "\n    # Common initialization\n"
  (.loop "name" ["profile", "common_fields"] (.text "    fields[\"" (setPart ["name"] .done))
  (.text "\n    # " (.slot (.name ["profile", "heading"]) (.text "\n" rest)))))

def pathsRemark : String :=
  "    # Home school, non-partner and partner high school paths are mutually exclusive"

/-- The choice between the three kinds of school. -/
def schoolPart (rest : Template) : Template :=
  .choice ["profile", "inline_path_predicates"]
    (.text "    # Set high school type\n    if "
      (.slot (.name ["home_school_predicate"]) (.text "\n" .done)))
    (.text (unlines [pathsRemark] ++ "    is_home_school = ")
      (.slot (.name ["home_school_predicate"]) (.text "\n    is_non_partner = "
      (.slot (.name ["non_partner_predicate"]) (.text "\n\n    if is_home_school\n" .done)))))
  (.loop "name" ["profile", "home_school_fields"]
    (.text "      fields[\"" (setPart ["name"] .done))
  (.text "    elsif "
  (.either ["profile", "inline_path_predicates"] (.name ["non_partner_predicate"])
    (.text "is_non_partner")
  (.text "\n"
  (.loop "name" ["profile", "non_partner_fields"]
    (.text "      fields[\"" (setPart ["name"] .done))
  (.text "    else\n"
  (.loop "name" ["profile", "partner_fields"]
    (.text "      fields[\"" (setPart ["name"] .done))
  (.text "    end\n\n" rest))))))))

set_option maxRecDepth 20000 in
theorem parse_bodySource : parse bodySource =
    bindingsPart (.slot (.name ["guards_before"]) (schoolPart (.slot (.name ["guards_after"])
      (.slot (.name ["conditional_fields"]) (.slot (.name ["completion_states"])
        (.text signatureText .done)))))) := by
  have bindings : bindingsSource = String.ofList _ :=
    unlines_ofList [_, _, _, _, _, _, _, _, _, _]
  have school : schoolSource = String.ofList _ :=
    append_ofList (append_ofList (append_ofList
      (unlines_ofList [_, _, _, _, _, _, _, _, _, _, _, _, _]) rfl) rfl)
      (unlines_ofList [_, _, _, _, _, _, _, _, _, _])
  have signature : signatureText = String.ofList _ := unlines_ofList [_, _, _, _]
  have chars : bodySource = String.ofList _ :=
    append_ofList (append_ofList (append_ofList (append_ofList bindings rfl) school) rfl) signature
  have remark : unlines [pathsRemark] ++ "    is_home_school = " = String.ofList _ :=
    append_ofList (unlines_ofList [_]) rfl
  rw [parse, chars, signature, schoolPart, remark, String.toList_ofList]
  rfl

end Template

open Template TemplateWord

namespace ClassBody

variable {b : ClassBody} {p : Profile} {rest : Template} {s : String}

theorem find_profile {part : String} {v : TemplateValue}
    (found : p.slot.parts.lookup part = some v) : (b.slots p).find ["profile", part] = .ok v :=
  (Slots.find_forTemplate [part] rfl (by decide) rfl).trans (TemplateValue.foldlM_part found)

theorem fills_bindingsPart (more : rest.Fills (b.slots p) s) :
    (bindingsPart rest).Fills (b.slots p) (unlines p.bindingLines ++ s) := by
  have binds (v : String) : (Template.text "    " (.slot (.name ["local"])
      (.text " = target_object." (.slot (.name ["local"]) (.text "\n" .done))))).Fills
        (("local", .ofText v) :: b.slots p) ("    " ++ v ++ " = target_object." ++ v ++ "\n") := by
    refine .of_eq (.text _ (.own (.text _ (.own (.text _ .done))))) ?_
    simp only [String.append_assoc, String.append_empty]
  have sets (field : String) : (Template.text "    fields[\"" (setPart ["name"] .done)).Fills
      (("name", .ofText field) :: b.slots p)
        ("    fields[\"" ++ field ++ "\"] = true" ++ "\n") := by
    refine .of_eq (.text _ (.setPart (Slots.find_cons _ _ _) .done)) ?_
    simp only [String.append_assoc, String.append_empty]
  have remark : "\n    # Common initialization\n" =
      "\n" ++ ("    # Common initialization" ++ "\n") := rfl
  have heading : "\n    # " = "\n" ++ "    # " := rfl
  refine .of_eq (.loop (find_profile rfl) binds (.text _ (.loop (find_profile rfl) sets
    (.text _ (.slot (fill_name (find_profile rfl)) (.text _ more)))))) ?_
  simp only [Profile.bindingLines, remark, heading, unlines_append, unlines_cons, unlines_nil,
    String.append_assoc, String.append_empty, String.empty_append]

theorem fills_schoolPart (more : rest.Fills (b.slots p) s) :
    (schoolPart rest).Fills (b.slots p) (unlines p.schoolLines ++ s) := by
  have home : (b.slots p).find ["home_school_predicate"] = .ok (.ofText homeSchoolPredicate) :=
    Slots.find_forTemplate [] rfl (by decide) rfl
  have nonPartner :
      (b.slots p).find ["non_partner_predicate"] = .ok (.ofText nonPartnerPredicate) :=
    Slots.find_forTemplate [] rfl (by decide) rfl
  have asked : (b.slots p).find ["profile", "inline_path_predicates"] =
      .ok (.ofBool p.asksInPlace) := find_profile rfl
  have otherwise : "    else\n" = "    else" ++ "\n" := rfl
  have closed : "    end\n\n" = "    end" ++ ("\n" ++ "\n") := rfl
  cases asks : p.asksInPlace with
  | true =>
    have question : "    # Set high school type\n    if " =
      "    # Set high school type" ++ ("\n" ++ "    if ") := rfl
    rw [asks] at asked
    refine .of_eq (.choice asked (.text _ (.slot (fill_name home) (.text _ .done)))
      (.setLines (find_profile rfl) (.text _ (.either asked (fill_name nonPartner) (.text _
        (.setLines (find_profile rfl) (.text _ (.setLines (find_profile rfl)
          (.text _ more))))))))) ?_
    simp only [Profile.schoolLines, asks, if_true, question, otherwise, closed, unlines_append,
      unlines_cons, unlines_nil, String.append_assoc, String.append_empty, String.empty_append]
  | false =>
    have second : "\n    is_non_partner = " = "\n" ++ "    is_non_partner = " := rfl
    have third : "\n\n    if is_home_school\n" =
      "\n" ++ ("\n" ++ ("    if is_home_school" ++ "\n")) := rfl
    rw [asks] at asked
    refine .of_eq (.choice asked (.text _ (.slot (fill_name home) (.text _
      (.slot (fill_name nonPartner) (.text _ .done)))))
      (.setLines (find_profile rfl) (.text _ (.either asked (t := "is_non_partner") rfl (.text _
        (.setLines (find_profile rfl) (.text _ (.setLines (find_profile rfl)
          (.text _ more))))))))) ?_
    simp only [Profile.schoolLines, asks, Bool.false_eq_true, if_false, pathsRemark, second, third,
      otherwise, closed, unlines_append, unlines_cons, unlines_nil, String.append_assoc,
      String.append_empty, String.empty_append]

end ClassBody

namespace Templates

theorem fillOpening_builtIn (className : String) :
    builtIn.fillOpening className = .ok (openingText className) := by
  have head : openingText className = "class " ++ (className ++ (unlines (" < Step"
      :: fieldMethodLines ++ "  def self.on_activate(*args)" :: recordLines) ++ "")) := by
    rw [String.append_empty, List.cons_append, unlines_cons, ← String.append_assoc,
      ← String.append_assoc, ← String.append_assoc]
    exact unlines_cons _ _
  have source : builtIn.opening.getD (parse openingSource) = parse openingSource := Option.getD_none
  rw [fillOpening, source, parse_openingSource, head]
  exact Fills.text _ (.slot (fill_name (Slots.find_forTemplate [] rfl (by decide) rfl))
    (.text _ .done))

theorem fillClosing_builtIn : builtIn.fillClosing = .ok closingText := by
  have source : builtIn.closing.getD (parse closingText) = parse closingText := Option.getD_none
  rw [fillClosing, source, parse_closingText]
  exact Fills.of_eq (.text _ .done) String.append_empty

theorem fillGuard_builtIn (g : FieldGuard) : builtIn.fillGuard g = .ok g.text := by
  have found {part : String} {v : TemplateValue} (h : g.slot.parts.lookup part = some v) :
      (Slots.forTemplate "guard.rb.j2" [("guard", g.slot)]).find ["guard", part] = .ok v :=
    (Slots.find_forTemplate [part] rfl (by decide) rfl).trans (TemplateValue.foldlM_part h)
  have first : "\n      fields[\"" = "\n" ++ "      fields[\"" := rfl
  have second : "    else\n      fields[\"" = "    else" ++ ("\n" ++ "      fields[\"") := rfl
  have asks : "\n    if " = "\n" ++ "    if " := rfl
  have closed : "    end\n\n" = "    end" ++ ("\n" ++ "\n") := rfl
  -- no field and an empty one both count as none
  have other : (if ((g.otherwise.map TemplateValue.ofText).getD .nothing).isTrue then
      Template.text "    else\n      fields[\"" (setPart ["guard", "otherwise"] .done)
      else .done).Fills (Slots.forTemplate "guard.rb.j2" [("guard", g.slot)])
        (unlines (match g.otherwise with
          | some field => if field = "" then [] else ["    else", GuardedBlock.setLine field]
          | none => [])) := by
    have asked : (Slots.forTemplate "guard.rb.j2" [("guard", g.slot)]).find
      ["guard", "otherwise"] = .ok ((g.otherwise.map .ofText).getD .nothing) := found rfl
    cases h : g.otherwise with
    | none => exact .done
    | some field =>
      rw [h] at asked
      by_cases empty : field = ""
      · subst empty
        exact .done
      · have isTrue : (((some field).map TemplateValue.ofText).getD .nothing).isTrue = true :=
          decide_eq_true empty
        rw [if_pos isTrue]
        refine .of_eq (.text _ (.setPart asked .done)) ?_
        simp only [if_neg empty, second, GuardedBlock.setLine_eq, unlines_cons, unlines_nil,
          String.append_assoc, String.append_empty]
  have source : builtIn.guard.getD (parse guardSource) = parse guardSource := Option.getD_none
  rw [fillGuard, source, parse_guardSource]
  refine Fills.of_eq (.text _ (.slot (fill_name (found rfl)) (.text _ (.slot
    (fill_name (found rfl)) (.text _ (.setPart (found rfl)
      (.choice (found rfl) other (.text _ .done)))))))) ?_
  simp only [FieldGuard.text, first, asks, closed, GuardedBlock.setLine_eq, unlines_append,
    unlines_cons, unlines_nil, String.append_assoc, String.append_empty, String.empty_append]

theorem fillBody_builtIn (p : Profile) (b : ClassBody) :
    builtIn.fillBody p b = .ok (b.text p) := by
  have source : builtIn.body.getD (parse bodySource) = parse bodySource := Option.getD_none
  rw [fillBody, source, parse_bodySource]
  refine Fills.of_eq (ClassBody.fills_bindingsPart (.slot (fill_name
    (Slots.find_forTemplate [] rfl (by decide) rfl)) (ClassBody.fills_schoolPart
      (.slot (fill_name (Slots.find_forTemplate [] rfl (by decide) rfl))
        (.slot (fill_name (Slots.find_forTemplate [] rfl (by decide) rfl))
          (.slot (fill_name (Slots.find_forTemplate [] rfl (by decide) rfl))
            (.text _ .done))))))) ?_
  simp only [ClassBody.text, String.append_assoc, String.append_empty]

end Templates

end Gatehouse
