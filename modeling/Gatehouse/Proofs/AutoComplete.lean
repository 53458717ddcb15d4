import Gatehouse.CommandLine.Inspect
import Gatehouse.Proofs.ClassText
import Gatehouse.Proofs.ResolutionForm

namespace Gatehouse

def autoCompleteRemark (n : String) : String :=
  "Auto-complete steps for students who don't qualify for " ++ n

def autoCompleteBlock? (compiled : Keyed Compiled) (tokens : List String) (n : String) :
    Option GuardedBlock :=
  match compiled.get? n with
  | some c => if tokens = [] then none else some ⟨autoCompleteRemark n, true, c.expression, tokens⟩
  | none => none

theorem autoCompleteRemark_inj {m n : String} :
    autoCompleteRemark m = autoCompleteRemark n ↔ m = n := String.append_right_inj _

theorem remark_autoCompleteBlock? {compiled : Keyed Compiled} {tokens : List String} {n : String}
    {b : GuardedBlock} (h : autoCompleteBlock? compiled tokens n = some b) :
    b.remark = autoCompleteRemark n := by
  unfold autoCompleteBlock? at h
  split at h
  next =>
    split at h
    next => cases h
    next => cases h; rfl
  next => cases h

/-- Blocks over distinct names are told apart by their remarks. -/
theorem filter_remark_eq {keys : List String} (distinct : keys.Nodup)
    (compiled : Keyed Compiled) (tokens : String → List String) (n : String) :
    (keys.filterMap fun m => autoCompleteBlock? compiled (tokens m) m).filter
        (fun b => b.remark = autoCompleteRemark n) =
      if n ∈ keys then (autoCompleteBlock? compiled (tokens n) n).toList else [] := by
  induction keys with
  | nil => rfl
  | cons m rest ih =>
    have hd := List.nodup_cons.mp distinct
    have ih := ih hd.2
    by_cases hm : n = m
    · subst hm
      rw [if_neg hd.1] at ih
      cases hb : autoCompleteBlock? compiled (tokens n) n with
      | none => simp [hb, ih]
      | some b =>
        have hr := remark_autoCompleteBlock? hb
        simp [hb, hr, ih]
    · cases hb : autoCompleteBlock? compiled (tokens m) m with
      | none => simp [hb, ih, hm]
      | some b =>
        have hr : b.remark ≠ autoCompleteRemark n := by
          rw [remark_autoCompleteBlock? hb, ne_eq, autoCompleteRemark_inj]
          exact Ne.symm hm
        simp [hb, hr, ih, hm]

namespace Resolution

variable {heuristics : List Heuristic} {steps : List PlacedStep} {r : Resolution}

theorem Settled.autoCompleteBlocks_eq (h : r.Settled heuristics steps) :
    autoCompleteBlocks r.compiled r.states = r.compiled.keys.filterMap fun n =>
      autoCompleteBlock? r.compiled (branchOf heuristics steps n).states n := by
  rw [autoCompleteBlocks, h.states, List.filterMap_map]
  rfl

/-- The block of a name is there, and once, if the name is compiled and its branch has fields. -/
theorem Settled.filter_autoCompleteBlocks (h : r.Settled heuristics steps) (n : String) :
    (autoCompleteBlocks r.compiled r.states).filter (fun b => b.remark = autoCompleteRemark n) =
      (autoCompleteBlock? r.compiled (branchOf heuristics steps n).states n).toList := by
  have distinct : r.compiled.keys.Nodup := r.compiled.distinct
  rw [h.autoCompleteBlocks_eq,
    filter_remark_eq distinct _ fun m => (branchOf heuristics steps m).states]
  split
  next => rfl
  next hn => simp [autoCompleteBlock?, Keyed.get?_eq_none_iff.mpr hn]

end Resolution

theorem places_selectSteps (p : Profile) (w : Workflow) :
    ((p.selectSteps w).map PlacedStep.place).Nodup := by
  have all : w.placedSteps.map PlacedStep.place = List.range' 0 w.steps.length :=
    places_placeSteps w.steps
  exact List.Nodup.sublist (List.filter_sublist.map _) (all ▸ List.nodup_range')

/-- A step that is gated by a condition, and before which no step of its identifier is, belongs to
the branch of the condition. -/
theorem mem_branchOf_of_first {heuristics : List Heuristic} {before after : List PlacedStep}
    {s : PlacedStep} {n : String}
    (places : ((before ++ s :: after).map PlacedStep.place).Nodup)
    (gated : isGatedBy heuristics n s = true)
    (first : ∀ t ∈ before, t.step.id ≠ none → t.step.id = s.step.id →
      isGatedBy heuristics n t = false) :
    s ∈ (branchOf heuristics (before ++ s :: after) n).steps := by
  apply seeds_subset_branchOf
  rw [List.filter_append, List.filter_cons_of_pos gated]
  apply mem_firstOfKeys_of_new
  intro t ht eq
  obtain ⟨hmem, hgated⟩ := List.mem_filter.mp ht
  -- steps without an identifier are told apart by their places
  cases hid : t.step.id with
  | none =>
    cases hs : s.step.id with
    | none =>
      have place : t.place = s.place := by simpa [PlacedStep.key, hid, hs] using eq
      rw [List.map_append] at places
      exact (List.nodup_append.mp places).2.2 _ (List.mem_map_of_mem hmem) _ (by simp) place
    | some i => simp [PlacedStep.key, hid, hs] at eq
  | some i =>
    have same : t.step.id = s.step.id := by
      cases hs : s.step.id with
      | none => simp [PlacedStep.key, hid, hs] at eq
      | some j => simpa [PlacedStep.key, hid, hs] using eq
    rw [first t hmem (by simp [hid]) same] at hgated
    cases hgated

theorem completionToken?_of_titled {s : Step} (titled : s.title.getD "" ≠ "") :
    ∃ token, s.completionToken? = some token := by
  cases h : s.title with
  | none => simp [h] at titled
  | some title =>
    exact ⟨_, Step.completionToken?_eq_some_iff.mpr ⟨title, h, by simpa [h] using titled, rfl⟩⟩

theorem ne_empty_of_referenced {steps : List PlacedStep} {n : String}
    (h : n ∈ referencedNames Heuristic.defaults steps) : n ≠ "" := by
  obtain ⟨s, -, hg⟩ := mem_referencedNames.mp h
  rintro rfl
  simp only [isGatedBy, Bool.or_eq_true, List.contains_iff_mem, List.any_eq_true,
    Bool.and_eq_true, beq_iff_eq] at hg
  rcases hg with hg | ⟨h, hh, he, -⟩
  · simp only [Step.conditionNames] at hg
    split at hg
    next =>
      split at hg
      next => simp at hg
      next => simp at hg
    next => simp at hg
  · simp only [Heuristic.defaults, List.mem_cons, List.not_mem_nil, or_false] at hh
    rcases hh with rfl | rfl | rfl
    · exact absurd he (by decide)
    · exact absurd he (by decide)
    · exact absurd he (by decide)

def branchReport (found : List (String × Branch)) : List String :=
  if found.isEmpty then ["📭 No conditional branches found"]
  else ("🔀 Conditional branches (" ++ toString found.length ++ "):") ::
    found.flatMap fun (name, b) => branchLines name b

theorem result_showBranches [Yaml.SetOrder] {t : FileTree} {file : Pathname} {w : Workflow}
    (h : (Workflow.loadFile t file).result = .ok w) (target : Target) :
    (showBranches t file (some target)).result = .ofLines (branchReport (discoverBranches
      Heuristic.defaults ((Profile.ofTarget target).selectSteps w)).result) t := by
  simp only [showBranches, Logged.result_bind, h, branchReport]
  generalize (discoverBranches Heuristic.defaults _).result = found
  by_cases he : found.isEmpty = true
  · simp only [if_pos he, Logged.result_pure]
  · simp only [if_neg he, Logged.result_pure]

theorem Resolution.Settled.filter_eq_match {heuristics : List Heuristic} {steps : List PlacedStep}
    {r : Resolution} (h : r.Settled heuristics steps) (n : String) :
    (autoCompleteBlocks r.compiled r.states).filter (fun b => b.remark = autoCompleteRemark n) =
      match r.compiled.get? n, (discoverBranches heuristics steps).result.lookup n with
      | some c, some branch =>
        if branch.states = [] then []
        else [⟨autoCompleteRemark n, true, c.expression, branch.states⟩]
      | _, _ => [] := by
  rw [h.filter_autoCompleteBlocks]
  by_cases hn : n ∈ r.compiled.keys
  · obtain ⟨c, hc⟩ := Keyed.mem_keys_iff.mp hn
    have hb : (discoverBranches heuristics steps).result.lookup n =
        some (branchOf heuristics steps n) := by
      rw [lookup_discoverBranches, if_pos (h.gates n hn)]
    simp only [autoCompleteBlock?, hc, hb]
    split
    next => rfl
    next => rfl
  · simp [autoCompleteBlock?, Keyed.get?_eq_none_iff.mpr hn]

theorem isGatedBy_of_named {s : PlacedStep} {n : String} {names : Names} (ne : n ≠ "")
    (conditional : s.step.conditional = true) (named : s.step.workflowCondition = some names)
    (h : n ∈ names.toList) (heuristics : List Heuristic) : isGatedBy heuristics n s = true := by
  have listed : n ∈ s.step.conditionNames := by
    simpa [Step.conditionNames, conditional, named, h] using ne
  simp [isGatedBy, listed]

/-- What a step of the branch sets is in the block of the branch. -/
theorem Resolution.Settled.block_of_step {heuristics : List Heuristic} {steps : List PlacedStep}
    {r : Resolution} (h : r.Settled heuristics steps) {n : String} (hn : n ∈ r.compiled.keys)
    {s : PlacedStep} (member : s ∈ (branchOf heuristics steps n).steps)
    (titled : s.step.title.getD "" ≠ "") :
    ∃ block ∈ autoCompleteBlocks r.compiled r.states, block.remark = autoCompleteRemark n ∧
      ∃ token ∈ block.fields, s.step.completionToken? = some token := by
  obtain ⟨token, htoken⟩ := completionToken?_of_titled titled
  have state : token ∈ (branchOf heuristics steps n).states := by
    rw [settled_branchOf, mem_tokensOf]
    exact ⟨s, member, htoken⟩
  obtain ⟨c, hc⟩ := Keyed.mem_keys_iff.mp hn
  have found := h.filter_autoCompleteBlocks n
  rw [autoCompleteBlock?, hc] at found
  simp only [if_neg (List.ne_nil_of_mem state), Option.toList_some] at found
  have block := (List.mem_filter.mp (found ▸ List.mem_singleton_self _)).1
  exact ⟨_, block, rfl, token, state, htoken⟩

/-- A branch that a class completes is complete: for each name the class has one block if the name
is compiled and the branch that is shown for it has fields, with these fields, and none otherwise.
A titled step that names its condition is among them, unless an earlier step of the branch has its
identifier. -/
theorem autoComplete_block_iff_branch [Yaml.SetOrder] (w : Workflow) (target : Target)
    (college : String) :
    let p := Profile.ofTarget target
    let steps := p.selectSteps w
    let branches := (discoverBranches Heuristic.defaults steps).result
    (∀ t file, (Workflow.loadFile t file).result = .ok w →
      (showBranches t file (some target)).result = .ofLines (branchReport branches) t) ∧
    match (resolve Heuristic.defaults w steps target).outcome with
    | .error fault => (Emitter.standard.emit p w college).result = .error (.value fault)
    | .ok r =>
      let blocks := autoCompleteBlocks r.compiled r.states
      (Emitter.standard.emit p w college).result = .ok (p.headText college
        ++ conditionalCode r.compiled
        ++ headedBlocks "Set completion states for students who don't meet condition criteria"
          blocks
        ++ mergeText schoolNames r.compiled r.states ++ tailText) ∧
      (∀ n, blocks.filter (fun b => b.remark = autoCompleteRemark n) =
        match r.compiled.get? n, branches.lookup n with
        | some c, some branch =>
          if branch.states = [] then []
          else [⟨autoCompleteRemark n, true, c.expression, branch.states⟩]
        | _, _ => []) ∧
      ∀ n before s after names, steps = before ++ s :: after → n ∈ r.compiled.keys →
        s.step.title.getD "" ≠ "" → s.step.conditional = true →
        s.step.workflowCondition = some names → n ∈ names.toList →
        (∀ t ∈ before, t.step.id ≠ none → t.step.id = s.step.id →
          isGatedBy Heuristic.defaults n t = false) →
        ∃ block ∈ blocks, block.remark = autoCompleteRemark n ∧
          ∃ token ∈ block.fields, s.step.completionToken? = some token := by
  intro p steps branches
  refine ⟨fun t file h => result_showBranches h target, ?_⟩
  have emitted := result_emit Heuristic.defaults schoolNames p w college
  rw [Profile.target_ofTarget] at emitted
  cases h : (resolve Heuristic.defaults w steps target).outcome with
  | error fault =>
    rw [h] at emitted
    exact emitted
  | ok r =>
    rw [h] at emitted
    have settled := (Resolution.resolve_eq_ok h).2
    refine ⟨emitted, settled.filter_eq_match, ?_⟩
    intro n before s after names split hn titled conditional hw hmem first
    have gated : isGatedBy Heuristic.defaults n s = true :=
      isGatedBy_of_named (ne_empty_of_referenced (settled.gates n hn)) conditional hw hmem _
    have member : s ∈ (branchOf Heuristic.defaults steps n).steps := by
      rw [split]
      exact mem_branchOf_of_first (split ▸ places_selectSteps p w) gated first
    exact settled.block_of_step hn member titled

/-- Two steps behind the condition of minors, one that says so and one that waits for it, and an
untitled step behind another one. -/
def interviewSteps : Workflow where
  conditions := .empty
  steps := [gatedStep "Consent" "minor",
    { gatedStep "Interview" "" with
      conditional := false, softRequiredFields := some (.one "consent_complete") },
    { gatedStep "" "quiet" with title := none }]
  extra := .empty

/-- The branch of minors gets a block with both fields, and the one without fields gets none. -/
theorem autoComplete_block_consent :
    let p := Profile.ofTarget .studentTerm
    let steps := p.selectSteps interviewSteps
    ∃ r code, (resolve Heuristic.defaults interviewSteps steps .studentTerm).outcome = .ok r ∧
      (Emitter.standard.emit p interviewSteps "acme").result = .ok code ∧
      (autoCompleteBlocks r.compiled r.states).filter
          (fun b => b.remark = autoCompleteRemark "minor") =
        [⟨autoCompleteRemark "minor", true, "student.is_minor?",
          ["consent_complete", "interview_complete"]⟩] ∧
      "quiet" ∈ r.compiled.keys ∧
      (autoCompleteBlocks r.compiled r.states).filter
          (fun b => b.remark = autoCompleteRemark "quiet") = [] ∧
      ∃ block ∈ autoCompleteBlocks r.compiled r.states,
        block.remark = autoCompleteRemark "minor" ∧ "consent_complete" ∈ block.fields := by
  intro p steps
  obtain ⟨-, run⟩ := autoComplete_block_iff_branch interviewSteps .studentTerm "acme"
  obtain ⟨r, resolved, eq⟩ := exists_ok_of_map
    (f := fun r => (r.compiled.get? "minor", r.compiled.get? "quiet"))
    (x := (resolve Heuristic.defaults interviewSteps steps .studentTerm).outcome)
    (b := (some ⟨"student.is_minor?", ["minor"]⟩, some ⟨"fields[\"quiet\"]", ["quiet"]⟩))
    (by decide +kernel)
  obtain ⟨minor, quiet⟩ := Prod.mk.inj eq
  have lookup (n : String) (tokens : List String)
      (h : ((discoverBranches Heuristic.defaults steps).result.lookup n).map Branch.states =
        some tokens) : ∃ b, (discoverBranches Heuristic.defaults steps).result.lookup n = some b ∧
      b.states = tokens := by
    simpa using h
  obtain ⟨b, found, tokens⟩ := lookup "minor" ["consent_complete", "interview_complete"]
    (by decide +kernel)
  obtain ⟨q, foundQuiet, noTokens⟩ := lookup "quiet" [] (by decide +kernel)
  rw [resolved] at run
  obtain ⟨emitted, blocks, moreover⟩ := run
  have named : "minor" ∈ r.compiled.keys := Keyed.mem_keys_iff.mpr ⟨_, minor⟩
  have split : ∃ after, steps = [] ++ ⟨0, gatedStep "Consent" "minor"⟩ :: after := ⟨_, rfl⟩
  obtain ⟨after, split⟩ := split
  obtain ⟨block, mem, remark, token, set, own⟩ := moreover "minor" [] _ after (.one "minor") split
    named (by decide) rfl rfl (by decide) (by simp)
  have consent : (gatedStep "Consent" "minor").completionToken? = some "consent_complete" := by
    decide +kernel
  have same : token = "consent_complete" := Option.some.inj (own.symm.trans consent)
  refine ⟨r, _, resolved, emitted, ?_, Keyed.mem_keys_iff.mpr ⟨_, quiet⟩, ?_, block, mem, remark,
    same ▸ set⟩
  · rw [blocks "minor", minor, found]
    simp only [tokens]
    rfl
  · rw [blocks "quiet", quiet, foundQuiet]
    simp only [noTokens]
    rfl

end Gatehouse
