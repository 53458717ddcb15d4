import Gatehouse.CommandLine.Run
import Gatehouse.Proofs.CodeRun
import Gatehouse.Proofs.LoadingFaults

namespace Gatehouse

namespace Report

/-- The report does not end in a fault of loading. -/
def IsBeyondLoading (r : Report) : Prop := ∀ f, r.ending ≠ .crashed (.load f)

theorem isBeyondLoading_ofLines (lines : List String) (t : FileTree) :
    (ofLines lines t).IsBeyondLoading := by
  unfold ofLines
  split
  next => nofun
  next => nofun

theorem isBeyondLoading_refuse (message : String) (t : FileTree) :
    (refuse message t).IsBeyondLoading := nofun

theorem isBeyondLoading_misuse (fault : UsageFault) (t : FileTree) :
    (misuse fault t).IsBeyondLoading := nofun

theorem isBeyondLoading_crash {c : Crash} (other : ∀ f, c ≠ .load f) (t : FileTree) :
    (crash c t).IsBeyondLoading := fun f eq => other f (by cases eq; rfl)

theorem IsBeyondLoading.after {r : Report} (h : r.IsBeyondLoading) (lines : List String) :
    (r.after lines).IsBeyondLoading := by
  unfold Report.after
  simp only
  split
  next => exact h
  next => exact isBeyondLoading_ofLines lines r.tree

theorem ofLoadFault_of_told {f : LoadFault} {m : String} (told : f.message? = some m)
    (t : FileTree) : ofLoadFault f t = refuse m t := by
  rw [ofLoadFault, told]

theorem ofLoadFault_of_silent {f : LoadFault} (silent : f.message? = none) (t : FileTree) :
    ofLoadFault f t = crash (.load f) t := by
  rw [ofLoadFault, silent]

/-- A report answers for the loading of a file: a fault is reported, behind warnings perhaps, and
no other fault of loading is. -/
structure AnswersFor [Yaml.SetOrder] (r : Report) (t : FileTree) (file? : Option Pathname) :
    Prop where
  reports : ∀ p f, file? = some p → (Workflow.loadFile t p).result = .error f →
    ∃ warnings, r = { ofLoadFault f t with
      complaint := unlines warnings ++ (ofLoadFault f t).complaint }
  only : ∀ f, r.ending = .crashed (.load f) →
    ∃ p, file? = some p ∧ (Workflow.loadFile t p).result = .error f

variable {t : FileTree} {r : Report}

theorem IsBeyondLoading.answersFor [Yaml.SetOrder] (h : r.IsBeyondLoading) : r.AnswersFor t none :=
  ⟨nofun, fun f crashed => absurd crashed (h f)⟩

theorem answersFor_of_loading [Yaml.SetOrder] {p : Pathname}
    (failed : ∀ f, (Workflow.loadFile t p).result = .error f → r = ofLoadFault f t)
    (read : ∀ w, (Workflow.loadFile t p).result = .ok w → r.IsBeyondLoading) :
    r.AnswersFor t (some p) := by
  constructor
  · intro q f eq load
    cases eq
    exact ⟨[], failed f load⟩
  · intro f crashed
    cases load : (Workflow.loadFile t p).result with
    | ok w => exact absurd crashed (read w load f)
    | error g =>
      rw [failed g load] at crashed
      cases told : g.message? with
      | some m =>
        rw [ofLoadFault_of_told told] at crashed
        cases crashed
      | none =>
        rw [ofLoadFault_of_silent told] at crashed
        cases crashed
        exact ⟨p, rfl, load⟩

/-- Warnings before the complaint change nothing else. -/
theorem AnswersFor.warn [Yaml.SetOrder] {file? : Option Pathname} (h : r.AnswersFor t file?)
    (lines : List String) :
    AnswersFor { r with complaint := unlines lines ++ r.complaint } t file? := by
  constructor
  · intro p f eq load
    obtain ⟨warnings, reported⟩ := h.reports p f eq load
    refine ⟨lines ++ warnings, ?_⟩
    rw [reported, unlines_append, String.append_assoc]
  · exact h.only

/-- A command ends in a fault of loading exactly if its file has one without a message. -/
theorem AnswersFor.crashed_iff [Yaml.SetOrder] {file? : Option Pathname} (h : r.AnswersFor t file?)
    {f : LoadFault} :
    r.ending = .crashed (.load f) ↔ ∃ p, file? = some p ∧ Workflow.FileBreaksOff t p f := by
  constructor
  · intro crashed
    obtain ⟨p, file, load⟩ := h.only f crashed
    obtain ⟨warnings, reported⟩ := h.reports p f file load
    refine ⟨p, file, Workflow.loadFile_silent_iff.mp ⟨load, ?_⟩⟩
    cases told : f.message? with
    | none => rfl
    | some m =>
      rw [reported, ofLoadFault_of_told told] at crashed
      cases crashed
  · rintro ⟨p, file, breaks⟩
    obtain ⟨load, silent⟩ := Workflow.loadFile_silent_iff.mpr breaks
    obtain ⟨warnings, reported⟩ := h.reports p f file load
    rw [reported, ofLoadFault_of_silent silent]
    rfl

end Report

open Report

theorem answersFor_validateFile [Yaml.SetOrder] (t : FileTree) (file : Pathname) (verbose : Bool) :
    (validateFile t file verbose).result.AnswersFor t (some file) := by
  refine answersFor_of_loading (fun f load => ?_) fun w load => ?_
  · simp only [validateFile, Logged.result_bind, load, Logged.result_pure]
  · simp only [validateFile, Logged.result_bind, load]
    split
    next =>
      rw [Logged.result_pure]
      exact (isBeyondLoading_crash (by simp) t).after _
    next =>
      rw [Logged.result_pure]
      exact isBeyondLoading_ofLines _ t

theorem answersFor_showBranches [Yaml.SetOrder] (t : FileTree) (file : Pathname)
    (target : Option Target) :
    (showBranches t file target).result.AnswersFor t (some file) := by
  refine answersFor_of_loading (fun f load => ?_) fun w load => ?_
  · simp only [showBranches, Logged.result_bind, load, Logged.result_pure]
  · simp only [showBranches, Logged.result_bind, load]
    -- the steps are chosen first, then it is asked whether they have branches
    split <;> split
    all_goals
      rw [Logged.result_pure]
      exact isBeyondLoading_ofLines _ t

theorem writeCrash_ne_load (fault : FileTree.WriteFault) (f : LoadFault) :
    writeCrash fault ≠ .load f := by
  cases fault with
  | path => simp [writeCrash]
  | text => simp [writeCrash]

theorem exportCrash_ne_load (fault : ExportFault) (f : LoadFault) :
    exportCrash fault ≠ .load f := by
  cases fault with
  | unsupported => simp [exportCrash]
  | emit => simp [exportCrash]
  | file fault => exact writeCrash_ne_load fault f

theorem answersFor_generateOne [Yaml.SetOrder] (t : FileTree) (s : Settings) (file : Pathname)
    (college : Option String) (target : Target) (output : Option Pathname) :
    (generateOne t s file college target output).result.AnswersFor t (some file) := by
  refine answersFor_of_loading (fun f load => ?_) fun w load => ?_
  · simp only [generateOne, Logged.result_bind, load, Logged.result_pure]
  · simp only [generateOne, Logged.result_bind, load]
    split
    next =>
      rw [Logged.result_pure]
      exact isBeyondLoading_misuse _ t
    next =>
      simp only [Logged.result_bind]
      split
      next =>
        rw [Logged.result_pure]
        exact isBeyondLoading_crash (by simp) t
      next =>
        split
        next =>
          rw [Logged.result_pure]
          exact isBeyondLoading_ofLines _ t
        next =>
          split
          next fault _ =>
            rw [Logged.result_pure]
            exact isBeyondLoading_crash (writeCrash_ne_load fault) _
          next =>
            rw [Logged.result_pure]
            exact isBeyondLoading_ofLines _ _

theorem answersFor_exportFile [Yaml.SetOrder] (t : FileTree) (file : Pathname) (college : String)
    (targets : List Target) (directory : Pathname) (location : Option Pathname) :
    (exportFile t file college targets directory location).result.AnswersFor t (some file) := by
  refine answersFor_of_loading (fun f load => ?_) fun w load => ?_
  · simp only [exportFile, Logged.result_bind, load, Logged.result_pure]
  · simp only [exportFile, Logged.result_bind, load]
    split
    next fault _ =>
      rw [Logged.result_pure]
      exact (isBeyondLoading_crash (exportCrash_ne_load fault) _).after _
    next =>
      rw [Logged.result_pure]
      exact isBeyondLoading_ofLines _ _

/-- The file that is read for the classes of some targets: the college must be known, and no class
may stand in the way unless it is overwritten. -/
def exportedFile? (t : FileTree) (s : Settings) (file : Pathname) (college : Option String)
    (targets : List Target) (output : Option Pathname) (force : Bool) : Option Pathname :=
  match chooseCollege college s with
  | .error _ => none
  | .ok college =>
    let directory := output.getD (.ofText s.outputDir)
    let selected := if targets.isEmpty then Target.all else targets
    match firstTaken t (selected.map fun target => (Profile.ofTarget target).path directory college)
      with
    | .error _ => none
    | .ok taken => if !force && taken.isSome then none else some file

theorem answersFor_generateAll [Yaml.SetOrder] (t : FileTree) (s : Settings) (file : Pathname)
    (college : Option String) (targets : List Target) (output : Option Pathname)
    (force verbose : Bool) :
    (generateAll t s file college targets output force verbose).result.AnswersFor t
      (exportedFile? t s file college targets output force) := by
  unfold generateAll exportedFile?
  cases chooseCollege college s with
  | error fault =>
    simp only [Logged.result_pure]
    exact (isBeyondLoading_misuse fault t).answersFor
  | ok college =>
    simp only
    cases firstTaken t ((if targets.isEmpty then Target.all else targets).map fun target =>
        (Profile.ofTarget target).path (output.getD (.ofText s.outputDir)) college) with
    | error fault =>
      simp only [Logged.result_pure]
      exact (isBeyondLoading_crash (by simp) t).answersFor
    | ok taken =>
      cases force with
      | true => exact answersFor_exportFile t file _ _ _ _
      | false =>
        cases taken with
        | none => exact answersFor_exportFile t file _ _ _ _
        | some path => exact (isBeyondLoading_refuse _ t).answersFor

namespace Request

/-- The file that is read to inspect it. -/
def inspectedFile? : Request → Option Pathname
  | .validate file _ | .branches file _ => some (.ofText file)
  | _ => none

/-- The file that is read to build classes from it. -/
def generatedFile? (t : FileTree) (s : Settings) : Request → Option Pathname
  | .generateOne file _ _ _ => some (.ofText file)
  | .generateAll file college targets output force =>
    exportedFile? t s (.ofText file) college targets (output.map .ofText) force
  | _ => none

end Request

/-- The settings must be readable before the words behind the name of a command are. -/
def generateFile? (t : FileTree) (env : Environment) (name : CommandName) (verbose : Bool)
    (words : List String) : Option Pathname :=
  (Settings.read? env t).bind fun s =>
    (leastRank (if verbose then "DEBUG" else s.logLevel)).toOption.bind fun _ =>
      (readRequest t.reaches name words).toOption.bind (Request.generatedFile? t s)

/-- The workflow file that a command gets to read, if it gets so far. -/
def commandFile? (t : FileTree) (env : Environment) (words : List String) : Option Pathname :=
  match readStart words with
  | .ok (.command name verbose words) =>
    match name with
    | .generateOne | .generateAll => generateFile? t env name verbose words
    | _ => (readRequest t.reaches name words).toOption.bind Request.inspectedFile?
  | _ => none

theorem answersFor_runInspection [Yaml.SetOrder] (t : FileTree) (r : Request) :
    (runInspection t r).result.AnswersFor t r.inspectedFile? := by
  unfold runInspection Request.inspectedFile?
  cases r with
  | validate file verbose => exact answersFor_validateFile t _ verbose
  | branches file target => exact answersFor_showBranches t _ target
  | category target =>
    rw [Logged.result_pure]
    exact (isBeyondLoading_ofLines _ t).answersFor
  | _ =>
    rw [Logged.result_pure]
    exact (isBeyondLoading_ofLines _ t).answersFor

theorem answersFor_runGeneration [Yaml.SetOrder] (t : FileTree) (s : Settings) (verbose : Bool)
    (r : Request) :
    (runGeneration t s verbose r).result.AnswersFor t (r.generatedFile? t s) := by
  unfold runGeneration Request.generatedFile?
  cases r with
  | generateOne file college target output => exact answersFor_generateOne t s _ college target _
  | generateAll file college targets output force =>
    exact answersFor_generateAll t s _ college targets _ force verbose
  | _ =>
    rw [Logged.result_pure]
    exact (isBeyondLoading_ofLines _ t).answersFor

theorem answersFor_runCommand [Yaml.SetOrder] {t : FileTree} {run : Request → Logged Report}
    {file? : Request → Option Pathname} (h : ∀ r, (run r).result.AnswersFor t (file? r))
    (name : CommandName) (words : List String) :
    (runCommand t name words run).result.AnswersFor t
      ((readRequest t.reaches name words).toOption.bind file?) := by
  unfold runCommand
  cases readRequest t.reaches name words with
  | ok r => exact h r
  | error fault =>
    cases fault with
    | usage f => exact (isBeyondLoading_misuse f t).answersFor
    | path f => exact (isBeyondLoading_crash (by simp) t).answersFor

theorem leastRank_ne_load {name : String} {c : Crash} (h : leastRank name = .error c)
    (f : LoadFault) : c ≠ .load f := by
  unfold leastRank at h
  cases found : leastRanks.lookup (upperText name) with
  | none =>
    rw [found] at h
    cases h
  | some rank =>
    rw [found] at h
    obtain ⟨before, after, split, -⟩ := List.lookup_eq_some_iff.mp found
    have listed : (upperText name, Except.error c) ∈ leastRanks := by
      rw [split, ← show rank = .error c from h]
      simp
    simp only [leastRanks, List.mem_cons, Prod.mk.injEq, reduceCtorEq, and_false, false_or,
      Except.error.injEq, List.not_mem_nil, or_false] at listed
    rcases listed with ⟨-, rfl⟩ | ⟨-, rfl⟩
    · exact Crash.noConfusion
    · exact Crash.noConfusion

theorem answersFor_runGenerate [Yaml.SetOrder] (t : FileTree) (env : Environment)
    (name : CommandName) (verbose : Bool) (words : List String) :
    (runGenerate t env name verbose words).report.AnswersFor t
      (generateFile? t env name verbose words) := by
  unfold runGenerate generateFile?
  cases Settings.read? env t with
  | none => exact (isBeyondLoading_crash (by simp) t).answersFor
  | some s =>
    simp only [Run.warn, Option.bind_some]
    apply AnswersFor.warn
    -- a level that has no rank ends the program, too, but never in a fault of loading
    cases least : leastRank (if verbose then "DEBUG" else s.logLevel) with
    | error c => exact (isBeyondLoading_crash (leastRank_ne_load least) t).answersFor
    | ok rank => exact answersFor_runCommand (answersFor_runGeneration t s verbose) name words

/-- A command answers for the loading of the file that it gets to read. -/
theorem answersFor_runWords [Yaml.SetOrder] (t : FileTree) (env : Environment)
    (words : List String) :
    (runWords t env words).report.AnswersFor t (commandFile? t env words) := by
  unfold runWords commandFile?
  cases readStart words with
  | error fault => exact (isBeyondLoading_misuse fault t).answersFor
  | ok start =>
    cases start with
    | help =>
      simp only [Run.silent]
      exact (isBeyondLoading_ofLines helpLines t).answersFor
    | version =>
      simp only [Run.silent]
      exact (isBeyondLoading_ofLines [versionText] t).answersFor
    | command name verbose words =>
      have inspects := answersFor_runCommand (answersFor_runInspection t) name words
      have generates := answersFor_runGenerate t env name verbose words
      cases name with
      | validate => exact inspects
      | branches => exact inspects
      | category => exact inspects
      | generateOne => exact generates
      | generateAll => exact generates

/-- Loading a workflow ends without a message exactly if reading the text or the file breaks off,
and a command that gets to read the file then ends in that fault. Any other fault of loading is
told, and the command refuses its work. -/
theorem loading_breaksOff_iff [Yaml.SetOrder] (text : String) (t : FileTree) (p : Pathname)
    (env : Environment) (words : List String) :
    (∀ f, (Workflow.load text).result = .error f ∧ f.message? = none ↔
      Workflow.BreaksOff text f) ∧
    (∀ f, (Workflow.loadFile t p).result = .error f ∧ f.message? = none ↔
      Workflow.FileBreaksOff t p f) ∧
    let report := (runWords t env words).report
    (∀ f, report.ending = .crashed (.load f) ↔
      ∃ q, commandFile? t env words = some q ∧ Workflow.FileBreaksOff t q f) ∧
    ∀ q f m, commandFile? t env words = some q → (Workflow.loadFile t q).result = .error f →
      f.message? = some m → report.ending = .refused ∧ report.output = "" ∧ report.tree = t ∧
        ∃ warnings, report.complaint = unlines warnings ++ complaintText ("❌ " ++ m) := by
  have answers := answersFor_runWords t env words
  refine ⟨fun f => ?_, fun f => Workflow.loadFile_silent_iff, fun f => answers.crashed_iff, ?_⟩
  · rw [Workflow.load, Workflow.result_loaded, Workflow.ofText_silent_iff]
  · intro q f m file load told
    obtain ⟨warnings, reported⟩ := answers.reports q f file load
    rw [ofLoadFault_of_told told] at reported
    rw [reported]
    exact ⟨rfl, rfl, rfl, warnings, rfl⟩

/-- A directory with a workflow file of the given text. -/
def workflowTree (text : String) : FileTree := ⟨[(["workflow.yaml"], .file text.toUTF8)], []⟩

def validateWords : List String := ["workflow", "validate", "workflow.yaml"]

theorem exists_error_of_message {r : Except LoadFault Workflow} {m : Option String}
    (h : (match r with
      | .error f => some f.message?
      | .ok _ => none) = some m) : ∃ f, r = .error f ∧ f.message? = m := by
  cases r with
  | error f => exact ⟨f, rfl, Option.some.inj h⟩
  | ok w => cases h

/-- Conditions that are given as a list end the program, while a document that is a number is told
of. -/
theorem loading_breaksOff_list :
    (∃ f, (runWords (workflowTree "conditions: [a]\n") [] validateWords).report.ending =
        .crashed (.load f)) ∧
      let report := (runWords (workflowTree "5\n") [] validateWords).report
      report.ending = .refused ∧ ∃ warnings, report.complaint =
        unlines warnings ++ complaintText "❌ Workflow document must be a mapping, got int" := by
  have runs := fun text => loading_breaksOff_iff text (workflowTree text)
    (.ofText "workflow.yaml") [] validateWords
  have file : ∀ text ∈ ["conditions: [a]\n", "5\n"],
      commandFile? (workflowTree text) [] validateWords = some (.ofText "workflow.yaml") := by
    decide +kernel
  constructor
  · obtain ⟨f, load, silent⟩ := exists_error_of_message (m := none)
      (r := (Workflow.loadFile (workflowTree "conditions: [a]\n") (.ofText "workflow.yaml")).result)
      (by decide +kernel)
    obtain ⟨-, files, crashes, -⟩ := runs "conditions: [a]\n"
    exact ⟨f, (crashes f).mpr ⟨_, file _ (by simp), (files f).mp ⟨load, silent⟩⟩⟩
  · obtain ⟨f, load, told⟩ := exists_error_of_message
      (m := some "Workflow document must be a mapping, got int")
      (r := (Workflow.loadFile (workflowTree "5\n") (.ofText "workflow.yaml")).result)
      (by decide +kernel)
    obtain ⟨-, -, -, tells⟩ := runs "5\n"
    obtain ⟨refused, -, -, complaint⟩ := tells _ f _ (file _ (by simp)) load told
    exact ⟨refused, complaint⟩

end Gatehouse
