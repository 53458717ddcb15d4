import Gatehouse.Proofs.BuiltInTemplates
import Gatehouse.Proofs.ResolutionForm

namespace Gatehouse

/-- The class up to what a workflow puts into it. -/
def Profile.headText (p : Profile) (college : String) : String :=
  openingText (p.className college) ++ unlines p.bindingLines
    ++ String.join (p.guardsBefore.map FieldGuard.text) ++ unlines p.schoolLines
    ++ String.join (p.guardsAfter.map FieldGuard.text)

/-- The class after what a workflow puts into it. -/
def tailText : String := signatureText ++ closingText

def mergeText (partition : List String) (compiled : Keyed Compiled)
    (states : Keyed (List String)) : String :=
  headedBlocks "Merge completion states across mutually exclusive high school paths"
    (mergeBlocks partition compiled states)

theorem result_completionCode (partition : List String) (compiled : Keyed Compiled)
    (states : Keyed (List String)) :
    (completionCode partition compiled states).result =
      autoCompleteCode compiled states ++ mergeText partition compiled states := by
  have merge : (mergeCode partition compiled states).result =
      mergeText partition compiled states := by
    simp only [mergeCode]
    split
    next => rfl
    next => rfl
  simp [completionCode, merge]

theorem fillGuards_builtIn (guards : List FieldGuard) :
    Templates.builtIn.fillGuards guards = .ok (String.join (guards.map FieldGuard.text)) := by
  have texts : guards.mapM (Templates.builtIn.fillGuard) = .ok (guards.map FieldGuard.text) :=
    (congrArg guards.mapM (funext Templates.fillGuard_builtIn)).trans List.mapM_pure
  rw [Templates.fillGuards, texts]
  rfl

/-- With the built-in templates a workflow fills one place of the class, and only its values can
keep the class from being built. -/
theorem result_emit (heuristics : List Heuristic) (partition : List String) (p : Profile)
    (w : Workflow) (college : String) :
    (Emitter.emit ⟨.builtIn, heuristics, partition⟩ p w college).result =
      match (resolve heuristics w (p.selectSteps w) p.target).outcome with
      | .error fault => .error (.value fault)
      | .ok r => .ok (p.headText college ++ conditionalCode r.compiled
          ++ autoCompleteCode r.compiled r.states ++ mergeText partition r.compiled r.states
          ++ tailText) := by
  simp only [Emitter.emit, Logged.result_bind, fillGuards_builtIn]
  cases h : (resolve heuristics w (p.selectSteps w) p.target).outcome with
  | error fault =>
    simp only [Compiling.outcome] at h
    simp [h]
  | ok r =>
    simp only [Compiling.outcome] at h
    simp only [h]
    have text (completion : String) :
        (Emitter.assemble ⟨.builtIn, heuristics, partition⟩ p (p.className college)
          (String.join (p.guardsBefore.map FieldGuard.text),
            String.join (p.guardsAfter.map FieldGuard.text))
          (conditionalCode r.compiled) completion).mapError EmitFault.template =
        .ok (p.headText college ++ conditionalCode r.compiled ++ completion ++ tailText) := by
      -- the parts are known before the binds are opened, which would read the sources of the parts
      rw [Emitter.assemble, Templates.fillBody_builtIn, Templates.fillOpening_builtIn,
        Templates.fillClosing_builtIn]
      change Except.ok (openingText (p.className college) ++ ClassBody.text _ p ++ closingText) = _
      simp only [ClassBody.text, Profile.headText, tailText, String.append_assoc]
    have guards (a b : String) : Prod.mk <$> (Except.ok a : Except TemplateFault String)
        <*> Except.ok b = .ok (a, b) := rfl
    simp only [guards, Logged.result_bind, Logged.result_pure, text, result_completionCode,
      String.append_assoc]

theorem result_emit_of_resolved {heuristics : List Heuristic} {w : Workflow} {target : Target}
    {r : Resolution}
    (resolved : (resolve heuristics w ((Profile.ofTarget target).selectSteps w) target).outcome =
      .ok r) (partition : List String) (college : String) :
    (Emitter.emit ⟨.builtIn, heuristics, partition⟩ (.ofTarget target) w college).result =
      .ok ((Profile.ofTarget target).headText college ++ conditionalCode r.compiled
        ++ autoCompleteCode r.compiled r.states ++ mergeText partition r.compiled r.states
        ++ tailText) := by
  rw [result_emit, Profile.target_ofTarget, resolved]

/-- A workflow fills one segment of a class, with the code of its conditions and of their
completion, and no text that it brings along is read as a part of a template: what stands before and
behind the segment depends on the target and the college alone. -/
theorem emit_segment (target : Target) (college : String) : ∃ before after : String,
    ∀ (heuristics : List Heuristic) (partition : List String) (w : Workflow),
      let p := Profile.ofTarget target
      (Emitter.emit ⟨.builtIn, heuristics, partition⟩ p w college).result =
        match (resolve heuristics w (p.selectSteps w) target).outcome with
        | .error fault => .error (.value fault)
        | .ok r => .ok (before ++ (conditionalCode r.compiled
            ++ (completionCode partition r.compiled r.states).result) ++ after) := by
  refine ⟨(Profile.ofTarget target).headText college, tailText, fun heuristics partition w => ?_⟩
  simp only [result_emit, Profile.target_ofTarget, result_completionCode, String.append_assoc]

/-- A condition whose name and code read like parts of a template. -/
def templateWords : Workflow where
  conditions := .ofList [("\x7b\x7b name \x7d\x7d", ⟨"\x7b\x7b name \x7d\x7d", none, none, none,
    some "custom", .text "\x7b% if ready %\x7d", [], .empty⟩)]
  steps := [gatedStep "Form" "\x7b\x7b name \x7d\x7d"]
  extra := .empty

/-- They stand in the class as they are, where nothing stands if there is no workflow. -/
theorem emit_segment_templateWords :
    let college := "\x7b\x7b college \x7d\x7d"
    ∃ before after : String,
      (Emitter.standard.emit (.ofTarget .studentTerm) ⟨.empty, [], .empty⟩ college).result =
        .ok (before ++ "" ++ after) ∧
      (Emitter.standard.emit (.ofTarget .studentTerm) templateWords college).result =
        .ok (before ++ unlines [
          "    # Conditional fields based on workflow conditions",
          "    # Condition: \x7b\x7b name \x7d\x7d",
          "    if \x7b% if ready %\x7d",
          "      fields[\"\x7b\x7b name \x7d\x7d\"] = true",
          "    end",
          "",
          "    # Set completion states for students who don't meet condition criteria",
          "    # Auto-complete steps for students who don't qualify for \x7b\x7b name \x7d\x7d",
          "    unless \x7b% if ready %\x7d",
          "      fields[\"form_complete\"] = true",
          "    end",
          ""] ++ after) := by
  intro college
  obtain ⟨before, after, emitted⟩ := emit_segment .studentTerm college
  have segment (w : Workflow) (text : String)
      (h : ((resolve Heuristic.defaults w (Profile.studentTerm.selectSteps w)
        .studentTerm).outcome.map fun r => conditionalCode r.compiled
          ++ (completionCode schoolNames r.compiled r.states).result).toOption = some text) :
      (Emitter.standard.emit (.ofTarget .studentTerm) w college).result =
        .ok (before ++ text ++ after) := by
    obtain ⟨r, resolved, eq⟩ := exists_ok_of_map h
    have run := emitted Heuristic.defaults schoolNames w
    simp only [Profile.ofTarget, resolved, eq] at run
    exact run
  exact ⟨before, after, segment _ _ (by decide +kernel), segment _ _ (by decide +kernel)⟩

end Gatehouse
