import Gatehouse.Proofs.ClassText
import Gatehouse.Proofs.OneLine

namespace Gatehouse

def FieldGuard.lines (g : FieldGuard) : List String :=
  ["    # " ++ g.remark, "    if " ++ g.predicate, GuardedBlock.setLine g.field]
    ++ (match g.otherwise with
      | some field => if field = "" then [] else ["    else", GuardedBlock.setLine field]
      | none => [])
    ++ ["    end", ""]

/-- How every class signs the form and completes its step. -/
def completeLines : List String := [
  "    # Set up student signature for enrollment form",
  "    fields[\"esign_enrollment_form_sign\"] = target_object.student.display_name",
  "    fields[\"esign_enrollment_form_date\"] = Time.now.strftime('%-d %b %Y')",
  "",
  "",
  "    # Complete the initialization",
  "    fields[\"initialization_complete\"] = true",
  "    fields = active_flow_step.complete_step(fields)",
  "    return fields"]

namespace Profile

def classLine (p : Profile) (college : String) : String :=
  "class " ++ p.className college ++ " < Step"

/-- The lines of the method that initializes a record, around those that come from a workflow. -/
def activationLines (p : Profile) (filled : List String) : List String :=
  recordLines ++ p.bindingLines ++ p.guardsBefore.flatMap FieldGuard.lines ++ p.schoolLines
    ++ p.guardsAfter.flatMap FieldGuard.lines ++ filled ++ completeLines

/-- The lines of a class, around those that come from a workflow, without its last one. -/
def openLines (p : Profile) (college : String) (filled : List String) : List String :=
  p.classLine college :: (fieldMethodLines
    ++ ("  def self.on_activate(*args)" :: p.activationLines filled ++ ["  end"]) ++ [""])

theorem unlines_guards (guards : List FieldGuard) :
    String.join (guards.map FieldGuard.text) = unlines (guards.flatMap FieldGuard.lines) := by
  induction guards with
  | nil => rfl
  | cons g rest ih =>
    rw [List.map_cons, String.join_cons, ih, List.flatMap_cons, unlines_append]
    rfl

theorem classText_eq_unlines (p : Profile) (college : String) (filled : List String) :
    p.headText college ++ unlines filled ++ tailText =
      unlines (p.openLines college filled) ++ "end" := by
  have opening : openingText (p.className college) =
      unlines (p.classLine college :: fieldMethodLines ++ ["  def self.on_activate(*args)"]
        ++ recordLines) := rfl
  have tail : tailText = unlines (completeLines ++ ["  end", ""]) ++ "end" := by
    rw [tailText, closingText, ← String.append_assoc, signatureText, ← unlines_append]
    rfl
  rw [headText, opening, tail, unlines_guards, unlines_guards]
  simp only [← String.append_assoc, ← unlines_append, openLines, activationLines]
  simp only [List.cons_append, List.append_assoc, List.nil_append]

theorem isOneLine_className (t : Target) {college : String} (h : IsOneLine college) :
    IsOneLine ((ofTarget t).className college) := by
  have suffix : IsOneLine (ofTarget t).classSuffix := by cases t <;> decide
  simp only [className, isOneLine_append]
  exact ⟨⟨⟨by decide, isOneLine_capitalize h⟩, suffix⟩, by decide⟩

theorem isOneLine_guards {guards : List FieldGuard}
    (h : ∀ g ∈ guards, IsOneLine g.remark ∧ IsOneLine g.predicate ∧ IsOneLine g.field ∧
      IsOneLine (g.otherwise.getD "")) :
    ∀ line ∈ guards.flatMap FieldGuard.lines, IsOneLine line := by
  intro line hline
  obtain ⟨g, hg, hl⟩ := List.mem_flatMap.mp hline
  obtain ⟨remark, predicate, field, otherwise⟩ := h g hg
  have other : ∀ f ∈ g.otherwise, IsOneLine f := by
    intro f hf
    rwa [Option.mem_def.mp hf] at otherwise
  simp only [FieldGuard.lines, List.mem_append, List.mem_cons, List.not_mem_nil, or_false] at hl
  rcases hl with ((rfl | rfl | rfl) | hl) | rfl | rfl
  · exact isOneLine_append.mpr ⟨by decide, remark⟩
  · exact isOneLine_append.mpr ⟨by decide, predicate⟩
  · exact GuardedBlock.isOneLine_setLine field
  · split at hl
    next f hf =>
      split at hl
      next => cases hl
      next =>
        simp only [List.mem_cons, List.not_mem_nil, or_false] at hl
        rcases hl with rfl | rfl
        · decide
        · exact GuardedBlock.isOneLine_setLine (other f hf)
    next => cases hl
  · decide
  · decide

theorem isOneLine_bindingLines (t : Target) :
    ∀ line ∈ (ofTarget t).bindingLines, IsOneLine line := by
  have heading : IsOneLine (ofTarget t).heading := by
    cases t <;> exact isOneLine_ofList.mpr (by decide)
  have common : ∀ f ∈ (ofTarget t).commonFields, IsOneLine f := by
    cases t <;> decide
  refine forall_bindingLines (fun e => ?_) (by decide) (by decide) (fun f hf => ?_)
    (isOneLine_append.mpr ⟨by decide, heading⟩)
  · simp only [isOneLine_append, e.isOneLine_accessor, and_true]
    decide
  · simp only [isOneLine_append, common f hf, and_true]
    decide

theorem isOneLine_schoolLines (t : Target) :
    ∀ line ∈ (ofTarget t).schoolLines, IsOneLine line := by
  have fields : ∀ f ∈ (ofTarget t).homeSchoolFields ++ (ofTarget t).nonPartnerFields
      ++ (ofTarget t).partnerFields, IsOneLine f := by
    cases t <;> decide
  simp only [List.forall_mem_append] at fields
  have home : IsOneLine homeSchoolPredicate := KnownCondition.isOneLine_expression _
  have nonPartner : IsOneLine nonPartnerPredicate := KnownCondition.isOneLine_expression _
  simp only [schoolLines, List.forall_mem_append, List.forall_mem_map]
  refine ⟨⟨⟨⟨⟨⟨?_, ?_⟩, ?_⟩, ?_⟩, ?_⟩, ?_⟩, ?_⟩
  · split
    next =>
      simp only [List.forall_mem_cons, List.not_mem_nil, false_implies, implies_true, and_true]
      exact ⟨isOneLine_ofList.mpr (by decide),
        isOneLine_append.mpr ⟨isOneLine_ofList.mpr (by decide), home⟩⟩
    next =>
      simp only [List.forall_mem_cons, List.not_mem_nil, false_implies, implies_true, and_true]
      exact ⟨isOneLine_ofList.mpr (by decide),
        isOneLine_append.mpr ⟨isOneLine_ofList.mpr (by decide), home⟩,
        isOneLine_append.mpr ⟨isOneLine_ofList.mpr (by decide), nonPartner⟩, by decide,
        isOneLine_ofList.mpr (by decide)⟩
  · exact fun f hf => GuardedBlock.isOneLine_setLine (fields.1.1 f hf)
  · simp only [List.forall_mem_cons, List.not_mem_nil, false_implies, implies_true, and_true]
    exact isOneLine_append.mpr ⟨by decide, isOneLine_ite nonPartner (by decide)⟩
  · exact fun f hf => GuardedBlock.isOneLine_setLine (fields.1.2 f hf)
  · decide
  · exact fun f hf => GuardedBlock.isOneLine_setLine (fields.2 f hf)
  · decide

theorem isOneLine_activationLines (t : Target) {filled : List String}
    (h : ∀ line ∈ filled, IsOneLine line) :
    ∀ line ∈ (ofTarget t).activationLines filled, IsOneLine line := by
  have guards : ∀ g ∈ (ofTarget t).guardsBefore ++ (ofTarget t).guardsAfter,
      IsOneLine g.remark ∧ IsOneLine g.predicate ∧ IsOneLine g.field ∧
        IsOneLine (g.otherwise.getD "") := by
    have empty : IsOneLine "" := by decide
    cases t <;>
      simp only [ofTarget, studentApplication, studentTerm, studentCourse, List.append_nil,
        List.nil_append, List.forall_mem_cons, List.not_mem_nil, false_implies, implies_true,
        and_true, true_and, KnownCondition.isOneLine_expression, Option.getD_some,
        Option.getD_none, empty] <;>
      and_intros <;> exact isOneLine_ofList.mpr (by decide)
  rw [List.forall_mem_append] at guards
  simp only [activationLines, List.forall_mem_append]
  refine ⟨⟨⟨⟨⟨⟨?_, ?_⟩, ?_⟩, ?_⟩, ?_⟩, h⟩, ?_⟩
  · simp only [recordLines, List.forall_mem_cons, List.not_mem_nil, false_implies,
      implies_true, and_true]
    and_intros <;> exact isOneLine_ofList.mpr (by decide)
  · exact isOneLine_bindingLines t
  · exact isOneLine_guards guards.1
  · exact isOneLine_schoolLines t
  · exact isOneLine_guards guards.2
  · simp only [completeLines, List.forall_mem_cons, List.not_mem_nil, false_implies,
      implies_true, and_true]
    and_intros <;> exact isOneLine_ofList.mpr (by decide)

theorem isOneLine_openLines (t : Target) {college : String} (hc : IsOneLine college)
    {filled : List String} (h : ∀ line ∈ filled, IsOneLine line) :
    ∀ line ∈ (ofTarget t).openLines college filled, IsOneLine line := by
  have methods : ∀ line ∈ fieldMethodLines, IsOneLine line := by
    simp only [fieldMethodLines, List.forall_mem_cons, List.not_mem_nil, false_implies,
      implies_true, and_true]
    and_intros <;> exact isOneLine_ofList.mpr (by decide)
  intro line hline
  simp only [openLines, List.mem_cons, List.mem_append, List.not_mem_nil, or_false] at hline
  rcases hline with rfl | (hline | (rfl | hline) | rfl) | rfl
  · simp only [classLine, isOneLine_append]
    exact ⟨⟨by decide, isOneLine_className t hc⟩, by decide⟩
  · exact methods line hline
  · decide
  · exact isOneLine_activationLines t h line hline
  · decide
  · decide

end Profile

/-- A class is read as lines that every class for its target has, around those for the
conditions. -/
theorem linesOf_emit {heuristics : List Heuristic} {partition : List String} {t : Target}
    {w : Workflow} {college code : String} (hw : w.HasOneLineTexts)
    (hh : ∀ h ∈ heuristics, IsOneLine h.condition) (hc : IsOneLine college)
    (emitted : (Emitter.emit ⟨.builtIn, heuristics, partition⟩ (.ofTarget t) w college).result =
      .ok code) :
    ∃ r : Resolution, (resolve heuristics w ((Profile.ofTarget t).selectSteps w)
        (Profile.ofTarget t).target).outcome = .ok r ∧
      linesOf code = (Profile.ofTarget t).openLines college
        (conditionalLines r.compiled ++ completionLines partition r.compiled r.states)
          ++ ["end"] := by
  rw [result_emit] at emitted
  split at emitted
  next => cases emitted
  next r resolved =>
    have filled := isOneLine_conditionLines (hasOneLineCode_of_resolve hw hh resolved) partition
    have text : code = unlines ((Profile.ofTarget t).openLines college
        (conditionalLines r.compiled ++ completionLines partition r.compiled r.states))
          ++ "end" := by
      rw [← Profile.classText_eq_unlines, ← conditionCode_eq_unlines, result_completionCode,
        ← Except.ok.inj emitted]
      simp only [String.append_assoc]
    refine ⟨r, resolved, ?_⟩
    rw [text, linesOf_unlines_append (Profile.isOneLine_openLines t hc filled)]
    rfl

end Gatehouse
