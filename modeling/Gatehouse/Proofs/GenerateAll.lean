import Gatehouse.CommandLine.Generate
import Gatehouse.Proofs.ClassFiles
import Gatehouse.Proofs.ClassLines
import Gatehouse.Proofs.LoadingFaults
import Gatehouse.Proofs.PlainText
import Gatehouse.Proofs.SetListing

namespace Gatehouse

namespace Report

theorem tree_ofLines (lines : List String) (t : FileTree) : (ofLines lines t).tree = t := by
  unfold ofLines
  split
  next => rfl
  next => rfl

theorem tree_after (lines : List String) (r : Report) : (r.after lines).tree = r.tree := by
  unfold Report.after
  simp only
  split
  next => rfl
  next => exact tree_ofLines lines r.tree

theorem tree_ofLoadFault (f : LoadFault) (t : FileTree) : (ofLoadFault f t).tree = t := by
  unfold ofLoadFault
  split
  next => rfl
  next => rfl

theorem ending_ofLoadFault (f : LoadFault) (t : FileTree) : (ofLoadFault f t).ending ≠ .done := by
  unfold ofLoadFault
  split
  next => exact nofun
  next => exact nofun

theorem ending_after {lines : List String} {r : Report} (h : (r.after lines).ending = .done) :
    r.ending = .done := by
  unfold Report.after at h
  simp only at h
  split at h
  next => exact h
  next other => exact absurd h other

/-- A text is printed without the control sequences in it, unless it cannot be encoded. -/
theorem ofLines_singleton (line : String) (t : FileTree) :
    ofLines [line] t = ⟨plainText line ++ "\n", "", .done, t⟩ ∨
      ∃ fault, (ofLines [line] t).ending = .crashed (.encoding fault) := by
  simp only [ofLines, printLines]
  cases encodingFault? (plainText line) with
  | none => exact Or.inl (by simp)
  | some fault => exact Or.inr ⟨fault, rfl⟩

end Report

/-- The targets that classes are built for: all of them if none is given. -/
def selectedTargets (targets : List Target) : List Target :=
  if targets.isEmpty then Target.all else targets

theorem selectedTargets_ne_nil (targets : List Target) : selectedTargets targets ≠ [] := by
  unfold selectedTargets
  split
  next => exact nofun
  next some => exact fun none => some (by rw [none]; rfl)

variable {t made : FileTree} {s : Settings} {file : Pathname} {college : Option String}
  {targets : List Target} {output : Option Pathname} {force verbose : Bool}

theorem exists_mem_of_mapM {α β ε : Type} {f : α → Except ε β} {xs : List α} {ys : List β}
    (h : xs.mapM f = .ok ys) : ∀ x ∈ xs, ∃ y ∈ ys, f x = .ok y := by
  induction xs generalizing ys with
  | nil => exact fun _ hx => absurd hx List.not_mem_nil
  | cons x rest ih =>
    rw [List.mapM_cons] at h
    cases first : f x with
    | error fault =>
      rw [first] at h
      cases h
    | ok y =>
      cases later : rest.mapM f with
      | error fault =>
        rw [first, later] at h
        cases h
      | ok more =>
        rw [first, later] at h
        cases h
        intro z hz
        rcases List.mem_cons.mp hz with rfl | hz
        · exact ⟨y, List.mem_cons_self, first⟩
        · obtain ⟨u, hu, found⟩ := ih later z hz
          exact ⟨u, List.mem_cons_of_mem y hu, found⟩

theorem find_ne_ok_of_firstTaken {paths : List Pathname} (h : firstTaken t paths = .ok none) :
    ∀ p ∈ paths, ∀ e, t.find p ≠ .ok e := by
  intro p hp e there
  rw [firstTaken] at h
  cases looked : (paths.mapM fun p => return (p, ← pathIsTaken t p) :
      Except FileTree.PathFault (List (Pathname × Bool))) with
  | error f =>
    rw [looked] at h
    cases h
  | ok all =>
    rw [looked] at h
    obtain ⟨found, listed, taken⟩ := exists_mem_of_mapM looked p hp
    unfold pathIsTaken at taken
    rw [there] at taken
    cases taken
    have none : all.find? Prod.snd = none := Option.map_eq_none_iff.mp (Except.ok.inj h)
    exact absurd rfl (List.find?_eq_none.mp none _ listed)

/-- A run for the selected targets leaves all as it is, or it reads the file, and then no class may
stand in the way unless it is overwritten. -/
theorem generateAll_cases [Yaml.SetOrder] (t : FileTree) (s : Settings) (file : Pathname)
    (college : Option String) (targets : List Target) (output : Option Pathname)
    (force verbose : Bool) :
    let r := (generateAll t s file college targets output force verbose).result
    let directory := output.getD (.ofText s.outputDir)
    (r.tree = t ∧ r.ending ≠ .done) ∨ ∃ name location, chooseCollege college s = .ok name ∧
      (force = false → ∀ target ∈ selectedTargets targets, ∀ e,
        t.find (target.classPath directory name) ≠ .ok e) ∧
      r = (exportFile t file name (selectedTargets targets) directory location).result := by
  unfold generateAll
  cases chooseCollege college s with
  | error fault => exact Or.inl ⟨rfl, nofun⟩
  | ok name =>
    simp only
    cases taken : firstTaken t ((if targets.isEmpty then Target.all else targets).map fun target =>
        (Profile.ofTarget target).path (output.getD (.ofText s.outputDir)) name) with
    | error fault => exact Or.inl ⟨rfl, nofun⟩
    | ok first =>
      cases force with
      | true => exact Or.inr ⟨name, _, rfl, nofun, rfl⟩
      | false =>
        cases first with
        | some path => exact Or.inl ⟨rfl, nofun⟩
        | none =>
          refine Or.inr ⟨name, _, rfl, fun _ target ht => ?_, rfl⟩
          exact find_ne_ok_of_firstTaken taken _ (List.mem_map_of_mem ht)

section

variable {name : String} {selected : List Target} {directory : Pathname}
  {location : Option Pathname}

theorem exportFile_of_unread [Yaml.SetOrder] {f : LoadFault}
    (failed : (Workflow.loadFile t file).result = .error f) :
    (exportFile t file name selected directory location).result = .ofLoadFault f t := by
  simp only [exportFile, Logged.result_bind, failed, Logged.result_pure]

/-- Once the file is read, the tree is the one that the writing of the classes leaves. -/
theorem exportFile_of_read [Yaml.SetOrder] {w : Workflow} (name : String) (selected : List Target)
    (directory : Pathname) (location : Option Pathname)
    (loaded : (Workflow.loadFile t file).result = .ok w) :
    let r := (exportFile t file name selected directory location).result
    let x := (Emitter.standard.exportTo w name directory
      (selected.map fun t => .text t.name) t).result
    r.tree = x.tree ∧ (r.ending = .done → ∃ written, x.outcome = .ok written) := by
  simp only [exportFile, Logged.result_bind, loaded]
  cases (Emitter.standard.exportTo w name directory
      (selected.map fun t => .text t.name) t).result.outcome with
  | error fault =>
    simp only [Logged.result_pure, Report.tree_after]
    exact ⟨rfl, fun done => absurd (Report.ending_after done) nofun⟩
  | ok written =>
    simp only [Logged.result_pure, Report.tree_ofLines]
    exact ⟨trivial, fun _ => ⟨written, rfl⟩⟩

theorem exportTo_cases (t : FileTree) (w : Workflow) (name : String) (directory : Pathname)
    (some : selected ≠ []) :
    let x := (Emitter.standard.exportTo w name directory
      (selected.map fun t => .text t.name) t).result
    (x.tree = t ∧ ∀ written, x.outcome ≠ .ok written) ∨
      ∃ made, t.ensureDirectories directory = .ok made ∧
        x = (Emitter.standard.writeClasses w name directory
          (selected.map fun t => .text t.name) [] made).result := by
  unfold Emitter.exportTo
  cases t.ensureDirectories directory with
  | error fault => exact Or.inl ⟨rfl, nofun⟩
  | ok made =>
    have more : (selected.map fun t => Value.text t.name).isEmpty = false := by
      cases selected with
      | nil => exact absurd rfl some
      | cons target rest => rfl
    simp only [more, Bool.false_eq_true, if_false]
    exact Or.inr ⟨made, rfl, rfl⟩

end

/-- What a run for one target does with the code of a class: it writes it, and one line end, into
any file that can be written, and without a file it prints it, without control sequences. -/
structure GeneratesOne [Yaml.SetOrder] (t : FileTree) (s : Settings) (file : Pathname)
    (college : Option String) (target : Target) (code : String) : Prop where
  written : ∀ f, let one := (generateOne t s file college target (some f)).result
    (one.ending = .done ∧ one.tree.read f = .ok (encodeText (code ++ "\n"))) ∨
      ∃ fault, one.ending = .crashed (writeCrash fault)
  printed : let one := (generateOne t s file college target none).result
    one = ⟨plainText code ++ "\n", "", .done, t⟩ ∨
      ∃ fault, one.ending = .crashed (.encoding fault)

/-- A class that is built is printed, as it is. -/
theorem generateOne_of_emit [Yaml.SetOrder] {w : Workflow} {name code : String} {target : Target}
    (loaded : (Workflow.loadFile t file).result = .ok w)
    (chosen : chooseCollege college s = .ok name)
    (emitted : (Emitter.standard.emit (.ofTarget target) w name).result = .ok code) :
    (generateOne t s file college target none).result = .ofLines [code] t := by
  simp only [generateOne, Logged.result_bind, loaded, chosen, emitted, Logged.result_pure]

theorem generatesOne_of_emit [Yaml.SetOrder] {w : Workflow} {name code : String} {target : Target}
    (loaded : (Workflow.loadFile t file).result = .ok w)
    (chosen : chooseCollege college s = .ok name)
    (emitted : (Emitter.standard.emit (.ofTarget target) w name).result = .ok code) :
    GeneratesOne t s file college target code := by
  constructor
  · intro f
    simp only [generateOne, Logged.result_bind, loaded, chosen, emitted]
    split
    next fault _ => exact Or.inr ⟨fault, rfl⟩
    next t' wrote =>
      rcases Report.ofLines_singleton ("✅ Wrote " ++ f.text) t' with printed | ⟨fault, crashed⟩
      · left
        rw [Logged.result_pure, printed]
        unfold writeOutput at wrote
        split at wrote
        next => cases wrote
        next made _ =>
          obtain ⟨l, located, there⟩ := FileTree.lookup?_of_write wrote
          have one := FileTree.writesAt_write made f (code ++ "\n")
          rw [wrote] at one
          exact ⟨rfl, FileTree.read_eq_ok.mpr ⟨l, one.locate_iff.mpr located, there⟩⟩
      · exact Or.inr ⟨.text fault, crashed⟩
  · simp only [generateOne_of_emit loaded chosen emitted]
    exact Report.ofLines_singleton code t

/-- On the way to the directory of a class nothing new leads to what was there. -/
theorem FileTree.HasWay.locate_classPath {directory : Pathname} {goal m : Location}
    (closed : t.IsClosed) (way : HasWay t made directory goal) {target : Target} {name : String}
    (located : made.locate (target.classPath directory name) = .ok m)
    (old : t.lookup? m ≠ none) : t.locate (target.classPath directory name) = .ok m := by
  obtain ⟨first, rest, parts, plain⟩ := (Profile.ofTarget target).head_fileName name
  obtain ⟨text, walked⟩ := locate_eq_ok.mp located
  refine locate_eq_ok.mpr ⟨text, ?_⟩
  rw [Target.classPath, Profile.path_eq, parts] at walked ⊢
  have start : made.start directory = t.start directory := by
    simp only [FileTree.start, way.here]
  exact way.walk_of_lookup? closed plain (start ▸ walked) old

/-- Without force nothing that is there is changed, if the way to the directory leads down from one
that is there. -/
theorem lookup?_generateAll [Yaml.SetOrder] (closed : t.IsClosed)
    (straight : ∃ l known rest, t.LeadsDown (output.getD (.ofText s.outputDir)) l known rest)
    {m : Location} {e : Entry} (there : t.lookup? m = some e) :
    (generateAll t s file college targets output false verbose).result.tree.lookup? m = some e := by
  rcases generateAll_cases t s file college targets output false verbose with
    ⟨same, -⟩ | ⟨name, location, -, free, run⟩
  · rw [same, there]
  · rw [run]
    cases loaded : (Workflow.loadFile t file).result with
    | error f => rw [exportFile_of_unread loaded, Report.tree_ofLoadFault, there]
    | ok w =>
      rw [(exportFile_of_read _ _ _ _ loaded).1]
      generalize output.getD (.ofText s.outputDir) = directory at straight free ⊢
      rcases exportTo_cases t w name directory (selectedTargets_ne_nil targets) with
        ⟨same, -⟩ | ⟨made, ensured, wrote⟩
      · rw [same, there]
      · obtain ⟨slashes, parts⟩ := directory
        obtain ⟨l, known, rest, straight⟩ := straight
        obtain rfl : parts = known ++ rest := straight.parts
        obtain ⟨goal, way⟩ := FileTree.ensureParts_hasWay closed straight ensured
        rw [(Emitter.writesAt_of_writeClasses wrote.symm).lookup?_eq fun p hp located => ?_,
          way.kept m e there]
        -- what is changed stands where a class is written, and nothing stood there
        obtain ⟨target, ht, rfl⟩ := List.mem_map.mp hp
        have before := way.locate_classPath closed located (by rw [there]; exact nofun)
        exact free rfl target ht e (FileTree.find_eq_ok.mpr ⟨m, before, there⟩)

/-- A run that is refused because a class is in the way, or that cannot read its file, changes
nothing. -/
theorem tree_generateAll [Yaml.SetOrder] (h : (∃ f, (Workflow.loadFile t file).result = .error f) ∨
      force = false ∧ ∃ name, chooseCollege college s = .ok name ∧
        ∃ target ∈ selectedTargets targets, ∃ e,
          t.find (target.classPath (output.getD (.ofText s.outputDir)) name) = .ok e) :
    (generateAll t s file college targets output force verbose).result.tree = t := by
  rcases generateAll_cases t s file college targets output force verbose with
    ⟨same, -⟩ | ⟨name, location, chosen, free, run⟩
  · exact same
  · rcases h with ⟨f, failed⟩ | ⟨kept, name', chosen', target, ht, e, taken⟩
    · rw [run, exportFile_of_unread failed, Report.tree_ofLoadFault]
    · cases chosen.symm.trans chosen'
      exact absurd taken (free kept target ht e)

/-- A run that ends well writes the classes for the selected targets, as runs for one target do that
read the same workflow, and changes no other file. -/
theorem files_generateAll [order : Yaml.SetOrder]
    (done : (generateAll t s file college targets output force verbose).result.ending = .done) :
    let r := (generateAll t s file college targets output force verbose).result
    let directory := output.getD (.ofText s.outputDir)
    ∃ name, chooseCollege college s = .ok name ∧
      (∀ target ∈ selectedTargets targets, ∃ code,
        r.tree.read (target.classPath directory name) = .ok (encodeText (code ++ "\n")) ∧
        ∀ other : Yaml.SetOrder, Workflow.hasSettledSets t file = true ∨
            (@Workflow.loadFile other t file).result = (@Workflow.loadFile order t file).result →
          @GeneratesOne other t s file college target code) ∧
      ∀ m, (∀ target ∈ selectedTargets targets,
          r.tree.locate (target.classPath directory name) ≠ .ok m) →
        ∀ content, r.tree.lookup? m = some (.file content) ↔
          t.lookup? m = some (.file content) := by
  simp only
  rcases generateAll_cases t s file college targets output force verbose with
    ⟨-, other⟩ | ⟨name, location, chosen, -, run⟩
  · exact absurd done other
  · rw [run] at done ⊢
    cases loaded : (Workflow.loadFile t file).result with
    | error f =>
      rw [exportFile_of_unread loaded] at done
      exact absurd done (Report.ending_ofLoadFault f t)
    | ok w =>
      obtain ⟨tree, outcome⟩ := exportFile_of_read name (selectedTargets targets)
        (output.getD (.ofText s.outputDir)) location loaded
      obtain ⟨out, exported⟩ := outcome done
      rw [tree]
      rcases exportTo_cases t w name (output.getD (.ofText s.outputDir))
        (selectedTargets_ne_nil targets) with ⟨-, failed⟩ | ⟨made, ensured, wrote⟩
      · exact absurd exported (failed out)
      · have at' := Emitter.writesAt_of_writeClasses wrote.symm
        have there := Emitter.lookup?_of_writeClasses wrote.symm exported
        refine ⟨name, chosen, fun target ht => ?_, fun m away content => ?_⟩
        · obtain ⟨code, m, emitted, located, written⟩ := there target ht
          refine ⟨code, FileTree.read_eq_ok.mpr ⟨m, at'.locate_iff.mpr located, written⟩,
            fun other alike => ?_⟩
          have same : (@Workflow.loadFile other t file).result = .ok w := by
            rcases alike with settled | same
            · rw [Workflow.loadFile_eq other _ settled, loaded]
            · exact same
          exact @generatesOne_of_emit _ _ _ _ other w name code target same chosen emitted
        · rw [← (FileTree.addsDirectories_of_ensureParts ensured).file_iff,
            at'.lookup?_eq fun p hp located => ?_]
          obtain ⟨target, ht, rfl⟩ := List.mem_map.mp hp
          exact away target ht (at'.locate_iff.mpr located)

/-- A run for one target, if nothing keeps its class from being built and written. -/
theorem generateAll_one [Yaml.SetOrder] {w : Workflow} {name code : String} {target : Target}
    {directory : Pathname} {m : Location}
    (chosen : chooseCollege college s = .ok name)
    (free : firstTaken t [target.classPath directory name] = .ok none)
    (loaded : (Workflow.loadFile t file).result = .ok w)
    (ensured : t.ensureDirectories directory = .ok made)
    (located : made.locate (target.classPath directory name) = .ok m)
    (other : made.lookup? m ≠ some .directory)
    (emitted : (Emitter.standard.emit (.ofTarget target) w name).result = .ok code)
    (whole : encodingFault? (code ++ "\n") = none) :
    (generateAll t s file college [target] (some directory) false false).result =
      .ofLines ["📖 Loaded " ++ toString w.steps.length ++ " steps, "
          ++ toString w.conditions.size ++ " conditions",
        "   " ++ (Profile.ofTarget target).target.name ++ ": "
          ++ (target.classPath directory name).text,
        "🎉 Generated " ++ toString 1 ++ " initializer(s)"]
        (made.put m (.file (encodeText (code ++ "\n")))) := by
  have run : (generateAll t s file college [target] (some directory) false false).result =
      (exportFile t file name [target] directory none).result := by
    rw [Target.classPath] at free
    simp only [generateAll, chosen, Option.getD_some, List.isEmpty_cons, Bool.false_eq_true,
      if_false, List.map_cons, List.map_nil, free]
  have exported : (Emitter.standard.exportTo w name directory [.text target.name] t).result =
      ⟨made.put m (.file (encodeText (code ++ "\n"))),
        .ok [((Profile.ofTarget target).target, target.classPath directory name)]⟩ := by
    simp only [Emitter.exportTo, ensured]
    simp only [List.isEmpty_cons, Bool.false_eq_true, if_false]
    rw [Emitter.result_writeClasses_cons, emitted]
    simp only [FileTree.write_of_whole located other whole]
    rfl
  rw [run]
  simp only [exportFile, Logged.result_bind, loaded, List.map_cons, List.map_nil, exported,
    Option.toList_none, List.length_singleton, List.append_nil, List.cons_append, List.nil_append,
    Logged.result_pure]

/-- The code of a class for a course, with lines that come from a workflow. -/
def courseCode (college : String) (filled : List String) : String :=
  unlines ((Profile.ofTarget .studentCourse).openLines college filled) ++ "end"

theorem courseCode_eq (college : String) (filled : List String) :
    courseCode college filled =
      (Profile.ofTarget .studentCourse).headText college ++ unlines filled ++ tailText :=
  (Profile.classText_eq_unlines _ college filled).symm

/-- How many steps and conditions a workflow has, and what it puts into a class for a course. -/
def courseShare (w : Workflow) : Option (Nat × Nat × String) :=
  match (resolve Heuristic.defaults w ((Profile.ofTarget .studentCourse).selectSteps w)
      .studentCourse).outcome with
  | .error _ => none
  | .ok r => some (w.steps.length, w.conditions.size, conditionalCode r.compiled
      ++ autoCompleteCode r.compiled r.states ++ mergeText schoolNames r.compiled r.states)

theorem result_emit_of_courseShare {w : Workflow} {steps conditions : Nat} {filled : List String}
    (share : courseShare w = some (steps, conditions, unlines filled)) (college : String) :
    (Emitter.standard.emit (.ofTarget .studentCourse) w college).result =
      .ok (courseCode college filled) := by
  unfold courseShare at share
  split at share
  next => cases share
  next r resolved =>
    rw [Emitter.standard, result_emit_of_resolved resolved, courseCode_eq,
      ← (Prod.mk.inj (Prod.mk.inj (Option.some.inj share)).2).2]
    simp only [String.append_assoc]

/-- The workflow of an empty file. -/
def Workflow.bare : Workflow := ⟨.empty, [], .empty⟩

theorem result_emit_bare (college : String) :
    (Emitter.standard.emit (.ofTarget .studentCourse) .bare college).result =
      .ok (courseCode college []) :=
  result_emit_of_courseShare (rfl : courseShare .bare = some (0, 0, unlines [])) college

theorem isSmallText_courseCode {college : String} (h : IsSmallText (capitalize college))
    {filled : List String} (small : ∀ line ∈ filled, IsSmallText line) :
    IsSmallText (courseCode college filled) := by
  have rest : ∀ line ∈ fieldMethodLines ++ ("  def self.on_activate(*args)" ::
      (Profile.ofTarget .studentCourse).activationLines filled ++ ["  end"]) ++ [""],
      IsSmallText line := by
    have empty : IsSmallText "" := by decide
    simp only [fieldMethodLines, Profile.activationLines, recordLines, Profile.bindingLines,
      Profile.bindings, Profile.ofTarget, Profile.studentCourse, Profile.schoolLines,
      completeLines, FieldGuard.lines, GuardedBlock.setLine, homeSchoolPredicate,
      nonPartnerPredicate, KnownCondition.expression, Entity.accessor, Entity.name, if_true,
      List.map_cons, List.map_nil, List.flatMap_cons, List.flatMap_nil, List.append_nil,
      List.forall_mem_append, List.forall_mem_cons, List.not_mem_nil, false_implies,
      implies_true, and_true, true_and, isSmallText_append, empty]
    and_intros <;> first | exact small | exact isSmallText_ofList (by rfl)
  have first : IsSmallText ((Profile.ofTarget .studentCourse).classLine college) :=
    (IsSmallText.append (by decide) ((((IsSmallText.append (by decide) h).append
      (by decide)).append (by decide)))).append (by decide)
  have lines := isSmallText_unlines (List.forall_mem_cons.mpr ⟨first, rest⟩)
  exact lines.append (by decide)

/-- The name of the college stands in the first line. -/
theorem exists_toList_courseCode (college : String) (filled : List String) : ∃ rest,
    (courseCode college filled).toList =
      "class Initialize".toList ++ ((capitalize college).toList ++ rest) := by
  rw [show "class Initialize".toList = "class ".toList ++ "Initialize".toList from rfl]
  simp only [courseCode, Profile.openLines, unlines_cons, Profile.classLine, Profile.className,
    String.toList_append, List.append_assoc]
  exact ⟨_, rfl⟩

def plainSettings : Settings := ⟨"INFO", "console", none, "initializers"⟩

/-- A run for courses. -/
abbrev courseRun [Yaml.SetOrder] (t : FileTree) (college : String) (directory : Pathname) :
    Report :=
  (generateAll t plainSettings (.ofText "workflow.yaml") (some college) [.studentCourse]
    (some directory) false false).result

/-- The same class in a run for one target, which prints it. -/
abbrev coursePrinted [Yaml.SetOrder] (t : FileTree) (college : String) : Report :=
  (generateOne t plainSettings (.ofText "workflow.yaml") (some college) .studentCourse none).result

/-- What a run for courses prints once its class is written. -/
def courseReport (steps conditions : Nat) (path : Pathname) : List String := [
  "📖 Loaded " ++ toString steps ++ " steps, " ++ toString conditions ++ " conditions",
  "   " ++ (Profile.ofTarget .studentCourse).target.name ++ ": " ++ path.text,
  "🎉 Generated " ++ toString 1 ++ " initializer(s)"]

/-- The file of the runs is read, with what it puts into a class for a course. -/
structure SharesLines [Yaml.SetOrder] (t : FileTree) (steps conditions : Nat)
    (filled : List String) : Prop where
  read : ∃ w, (Workflow.loadFile t (.ofText "workflow.yaml")).result = .ok w ∧
    courseShare w = some (steps, conditions, unlines filled)
  small : ∀ line ∈ filled, IsSmallText line

theorem ending_ofLines {lines : List String} (printed : (Report.printLines lines).2 = none)
    (t : FileTree) : (Report.ofLines lines t).ending = .done := by
  unfold Report.ofLines
  split
  next => rfl
  next failed =>
    rw [failed] at printed
    cases printed

theorem courseRun_of_shares [Yaml.SetOrder] {t made : FileTree} {college name : String}
    {directory : Pathname} {m : Location} {steps conditions : Nat} {filled : List String}
    (shares : SharesLines t steps conditions filled)
    (chosen : chooseCollege (some college) plainSettings = .ok name)
    (small : IsSmallText (capitalize name))
    (free : firstTaken t [Target.studentCourse.classPath directory name] = .ok none)
    (ensured : t.ensureDirectories directory = .ok made)
    (located : made.locate (Target.studentCourse.classPath directory name) = .ok m)
    (other : made.lookup? m ≠ some .directory)
    (printed : (Report.printLines (courseReport steps conditions
      (Target.studentCourse.classPath directory name))).2 = none) :
    (courseRun t college directory).ending = .done ∧
      (courseRun t college directory).tree =
        made.put m (.file (encodeText (courseCode name filled ++ "\n"))) := by
  obtain ⟨w, loaded, share⟩ := shares.read
  have counts : w.steps.length = steps ∧ w.conditions.size = conditions := by
    unfold courseShare at share
    split at share
    next => cases share
    next =>
      have same := Prod.mk.inj (Option.some.inj share)
      exact ⟨same.1, (Prod.mk.inj same.2).1⟩
  have whole := ((isSmallText_courseCode small shares.small).append
    (by decide : IsSmallText "\n")).encodingFault?
  have one := generateAll_one chosen free loaded ensured located other
    (result_emit_of_courseShare share name) whole
  rw [counts.1, counts.2] at one
  rw [courseRun, one, Report.tree_ofLines]
  exact ⟨ending_ofLines printed _, rfl⟩

theorem coursePrinted_of_shares [Yaml.SetOrder] {t : FileTree} {college name : String}
    {steps conditions : Nat} {filled : List String}
    (shares : SharesLines t steps conditions filled)
    (chosen : chooseCollege (some college) plainSettings = .ok name)
    (small : IsSmallText (capitalize name)) :
    coursePrinted t college = ⟨plainText (courseCode name filled) ++ "\n", "", .done, t⟩ := by
  obtain ⟨w, loaded, share⟩ := shares.read
  have whole := (isSmallText_courseCode small shares.small).plainText.encodingFault?
  rw [coursePrinted, generateOne_of_emit loaded chosen (result_emit_of_courseShare share name)]
  simp only [Report.ofLines, Report.printLines, whole, String.append_empty]

/-- A tree with the file of an empty workflow. -/
def bareTree (entries : List (Location × Entry)) : FileTree :=
  ⟨(["workflow.yaml"], .file .empty) :: entries, []⟩

theorem sharesLines_bare [Yaml.SetOrder] (entries : List (Location × Entry)) :
    SharesLines (bareTree entries) 0 0 [] := by
  have read : (bareTree entries).read (.ofText "workflow.yaml") = .ok .empty := rfl
  refine ⟨⟨.bare, ?_, rfl⟩, List.forall_mem_nil _⟩
  rw [Workflow.loadFile_of_decoded read (rfl : decodeText? .empty = some "")]
  rfl

theorem FileTree.isClosed_of_entries
    (h : ∀ e ∈ t.entries, t.lookup? e.1.dropLast = some .directory) : t.IsClosed := by
  intro l name there
  have deep : l ++ [name] ≠ [] := by simp
  rw [lookup?, if_neg deep] at there
  obtain ⟨e, found⟩ := Option.ne_none_iff_exists'.mp there
  obtain ⟨before, after, split, -⟩ := List.lookup_eq_some_iff.mp found
  have listed : (l ++ [name], e) ∈ t.entries := by
    rw [split]
    simp
  simpa using h _ listed

def notesTree : FileTree := bareTree [(["notes"], .file "kept".toUTF8)]

def classTree : FileTree :=
  bareTree [(["initialize_acme_course_registration_step.rb"], .file .empty)]

/-- The order that is given, the other way round. -/
@[reducible] def backwards : Yaml.SetOrder := ⟨List.reverse, List.reverse_perm⟩

/-- A tree with the file of a step that is gated by a set. -/
def setTree : FileTree :=
  ⟨[(["workflow.yaml"],
    .file "[\x7bconditional: true, workflowCondition: !!set \x7bb, a\x7d\x7d]".toUTF8)], []⟩

/-- What the set comes to in a class. -/
def gateLines (gates : List String) : List String :=
  "    # Conditional fields based on workflow conditions" :: gates.flatMap fun gate =>
    ["    # Condition: " ++ gate, "    if fields[\"" ++ gate ++ "\"]",
      GuardedBlock.setLine gate, "    end", ""]

theorem sharesLines_set [order : Yaml.SetOrder] {gates : List String}
    (share : ((@Workflow.loadFile order setTree (.ofText "workflow.yaml")).result.toOption.bind
      courseShare) = some (1, 0, unlines (gateLines gates)))
    (small : ∀ line ∈ gateLines gates, IsSmallText line) :
    SharesLines setTree 1 0 (gateLines gates) := by
  obtain ⟨w, loaded, share⟩ := Option.bind_eq_some_iff.mp share
  cases read : (Workflow.loadFile setTree (.ofText "workflow.yaml")).result with
  | error fault =>
    rw [read] at loaded
    cases loaded
  | ok w' =>
    rw [read] at loaded
    cases loaded
    exact ⟨⟨w, read, share⟩, small⟩

theorem sharesLines_set_given : SharesLines setTree 1 0 (gateLines ["b", "a"]) :=
  sharesLines_set (by decide +kernel) (by decide)

theorem sharesLines_set_backwards :
    @SharesLines backwards setTree 1 0 (gateLines ["a", "b"]) :=
  @sharesLines_set backwards _ (by decide +kernel) (by decide)

/-- A run for all classes and one for a single class, each with its order of sets: if the first
writes what the second prints, its code is what is printed of the code of the second. -/
theorem courseCode_eq_of_read (order other : Yaml.SetOrder) {t : FileTree}
    {college name : String} {m : Location} {steps conditions : Nat} {filled filled' : List String}
    (shares : @SharesLines order t steps conditions filled)
    (shares' : @SharesLines other t steps conditions filled')
    (chosen : chooseCollege (some college) plainSettings = .ok name)
    (small : IsSmallText (capitalize name))
    (free : firstTaken t [Target.studentCourse.classPath (.ofText ".") name] = .ok none)
    (ensured : t.ensureDirectories (.ofText ".") = .ok t)
    (located : t.locate (Target.studentCourse.classPath (.ofText ".") name) = .ok m)
    (away : t.lookup? m ≠ some .directory)
    (printed : (Report.printLines (courseReport steps conditions
      (Target.studentCourse.classPath (.ofText ".") name))).2 = none) :
    let r := @courseRun order t college (.ofText ".")
    let one := @coursePrinted other t college
    r.ending = .done ∧ one.ending = .done ∧
      (r.tree.read (Target.studentCourse.classPath (.ofText ".") name) =
          .ok (encodeText one.output) →
        courseCode name filled = plainText (courseCode name filled')) := by
  obtain ⟨done, tree⟩ := @courseRun_of_shares order _ _ _ _ _ _ _ _ _ shares chosen small free
    ensured located away printed
  have one := @coursePrinted_of_shares other _ _ _ _ _ _ shares' chosen small
  have code := isSmallText_courseCode small (@SharesLines.small order _ _ _ _ shares)
  have code' := isSmallText_courseCode small (@SharesLines.small other _ _ _ _ shares')
  refine ⟨done, by rw [one], fun same => ?_⟩
  have written := FileTree.writesAt_put located away (encodeText (courseCode name filled ++ "\n"))
  rw [tree, FileTree.read_eq_ok.mpr ⟨_, written.locate_iff.mpr located, by
    rw [FileTree.lookup?_put (FileTree.ne_root_of_lookup? away), if_pos rfl]⟩, one,
    (code.append (by decide)).encodeText, (code'.plainText.append (by decide)).encodeText] at same
  have same := congrArg String.toList (String.toByteArray_inj.mp (Except.ok.inj same))
  rw [String.toList_append, String.toList_append, List.append_cancel_right_eq] at same
  exact String.toList_inj.mp same

/-- The college is not printed as it is. -/
theorem length_plainText_courseCode :
    (plainText (courseCode "\x1b[1macme" [])).length < (courseCode "\x1b[1macme" []).length := by
  obtain ⟨rest, chars⟩ := exists_toList_courseCode "\x1b[1macme" []
  have shorter := length_dropSequences_lt (n := (courseCode "\x1b[1macme" []).length)
    "class Initialize".toList
    (rfl : afterSequence? ((capitalize "\x1b[1macme").toList ++ rest) = some _) (by
      have some : 0 < (capitalize "\x1b[1macme").toList.length := by decide
      rw [← String.length_toList, chars, List.length_append, List.length_append]
      omega)
  rw [← chars, String.length_toList] at shorter
  rw [plainText, String.length_ofList]
  exact shorter

/-- What is printed with the gates in one order is not the code with them in the other. -/
theorem plainText_gateLines_ne :
    courseCode "acme" (gateLines ["b", "a"]) ≠
      plainText (courseCode "acme" (gateLines ["a", "b"])) := by
  intro same
  have long : (unlines (gateLines ["b", "a"])).length =
      (unlines (gateLines ["a", "b"])).length := by
    rw [← String.length_toList, ← String.length_toList, toList_unlines, toList_unlines]
    decide +kernel
  -- nothing is left out, since both codes are of one length
  have part : (courseCode "acme" (gateLines ["b", "a"])).toList.Sublist
      (courseCode "acme" (gateLines ["a", "b"])).toList := by
    rw [same, plainText, String.toList_ofList]
    exact dropSequences_sublist _ _
  have whole := part.eq_of_length (by
    simp only [String.length_toList, courseCode_eq, String.length_append, long])
  simp only [courseCode_eq, String.toList_append, List.append_cancel_right_eq,
    List.append_cancel_left_eq] at whole
  have lines := congrArg linesOf (String.toList_inj.mp whole)
  rw [linesOf_unlines (by decide +kernel), linesOf_unlines (by decide +kernel)] at lines
  exact absurd lines (by decide +kernel)

end Gatehouse
