import Gatehouse.Initializer.Generate
import Gatehouse.Proofs.GenerateAll
import Gatehouse.Proofs.ResolutionDomain
import Mathlib.Data.List.TakeWhile

namespace Gatehouse

namespace FileTree

variable {t t' : FileTree} {p : Pathname} {text : String}

theorem write_ok_iff : (t.write p text).2 = .ok () ↔
    (∃ l, t.locate p = .ok l ∧ t.lookup? l ≠ some .directory) ∧ encodingFault? text = none := by
  constructor
  · intro wrote
    rcases t.write_cases p text with ⟨f, failed⟩ | ⟨l, content, located, other, -, -⟩
    · rw [failed] at wrote
      cases wrote
    · refine ⟨⟨l, located, other⟩, ?_⟩
      cases whole : encodingFault? text with
      | none => rfl
      | some f =>
        have broken : (t.write p text).2 = .error (.text f) := by
          have put : t.writeBytes p .empty = .ok (t.put l (.file .empty)) := by
            simp only [writeBytes, located]
          simp [write, whole, put]
        rw [broken] at wrote
        cases wrote
  · rintro ⟨⟨l, located, other⟩, whole⟩
    rw [write_of_whole located other whole]

/-- What is written elsewhere does not keep a text from being written. -/
theorem WritesAt.write_ok {paths : List Pathname} (h : WritesAt t t' paths)
    (ok : (t.write p text).2 = .ok ()) : (t'.write p text).2 = .ok () := by
  obtain ⟨⟨l, located, other⟩, whole⟩ := write_ok_iff.mp ok
  exact write_ok_iff.mpr
    ⟨⟨l, h.locate_iff.mpr located, fun there => other ((h.directory_iff l).mp there)⟩, whole⟩

end FileTree

/-- The targets that some values name, up to the first value that names none, and that value. -/
def namedTargets : List Value → List Target × Option Value
  | [] => ([], none)
  | v :: rest =>
    match Profile.ofValue? v with
    | some p => (p.target :: (namedTargets rest).1, (namedTargets rest).2)
    | none => ([], some v)

/-- The targets that classes are asked for: all of them if none is named. -/
def askedTargets (targets : List Value) : List Target × Option Value :=
  if targets = [] then (Target.all, none) else namedTargets targets

def nameValues (targets : List Target) : List Value := targets.map fun target => .text target.name

theorem Profile.ofValue?_eq_some {v : Value} {p : Profile} (h : ofValue? v = some p) :
    v = .text p.target.name ∧ p = ofTarget p.target := by
  cases v with
  | text s =>
    obtain ⟨target, named, rfl⟩ := Option.map_eq_some_iff.mp h
    have same : target.name = s := by simpa using List.find?_some named
    rw [target_ofTarget, same]
    exact ⟨rfl, rfl⟩
  | _ => cases h

/-- The values are the names of the targets, and maybe a value that names none and what follows. -/
theorem namedTargets_eq (targets : List Value) : ∃ rest,
    targets = nameValues (namedTargets targets).1 ++ rest ∧
      rest.head? = (namedTargets targets).2 ∧
      ∀ v, (namedTargets targets).2 = some v → Profile.ofValue? v = none := by
  induction targets with
  | nil => exact ⟨[], rfl, rfl, nofun⟩
  | cons v more ih =>
    cases named : Profile.ofValue? v with
    | none =>
      refine ⟨v :: more, by simp [namedTargets, named, nameValues],
        by simp [namedTargets, named], fun u hu => ?_⟩
      simp only [namedTargets, named, Option.some.injEq] at hu
      exact hu ▸ named
    | some p =>
      obtain ⟨rest, split, first, unnamed⟩ := ih
      simp only [namedTargets, named]
      refine ⟨rest, ?_, first, unnamed⟩
      rw [nameValues, List.map_cons, ← (Profile.ofValue?_eq_some named).1, List.cons_append,
        ← nameValues, ← split]

theorem namedTargets_nameValues (targets : List Target) :
    namedTargets (nameValues targets) = (targets, none) := by
  induction targets with
  | nil => rfl
  | cons target rest ih =>
    rw [nameValues, List.map_cons, ← nameValues, namedTargets, Profile.ofValue?_name, ih]
    simp only [Profile.target_ofTarget]

/-- Where the classes for some targets are, each once and in the order in which they come first. -/
def classPaths (directory : Pathname) (college : String) (targets : List Target) :
    List (Target × Pathname) :=
  targets.eraseDups.map fun target => (target, target.classPath directory college)

theorem foldl_recordWritten (directory : Pathname) (college : String) (targets : List Target) :
    targets.foldl (fun written target =>
        recordWritten target (target.classPath directory college) written) [] =
      classPaths directory college targets := by
  unfold classPaths
  induction targets using List.reverseRecOn with
  | nil => rfl
  | append_singleton targets target ih =>
    rw [List.foldl_append, ih, List.eraseDups_append]
    by_cases old : target ∈ targets
    · have there : (targets.eraseDups.map fun target =>
          (target, target.classPath directory college)).any (fun w => w.1 == target) = true := by
        simpa using old
      simp [recordWritten, there, List.removeAll, old]
    · have new : (targets.eraseDups.map fun target =>
          (target, target.classPath directory college)).any (fun w => w.1 == target) = false := by
        simpa using fun x hx => ne_of_mem_of_not_mem hx old
      simp [recordWritten, new, List.removeAll, old, List.eraseDups_cons]

namespace Emitter

variable {e : Emitter} {w : Workflow} {college : String} {directory : Pathname}
  {targets : List Target} {t : FileTree}

/-- The class for a target can be built. -/
def Builds (e : Emitter) (w : Workflow) (college : String) (target : Target) : Prop :=
  ∃ code, (e.emit (.ofTarget target) w college).result = .ok code

theorem not_builds_of_error {target : Target} {fault : EmitFault}
    (h : (e.emit (.ofTarget target) w college).result = .error fault) :
    ¬e.Builds w college target :=
  fun ⟨_, emitted⟩ => nomatch emitted.symm.trans h

theorem exists_fault_of_not_builds {target : Target} (h : ¬e.Builds w college target) :
    ∃ fault, (e.emit (.ofTarget target) w college).result = .error fault := by
  rw [Builds] at h
  cases emitted : (e.emit (.ofTarget target) w college).result with
  | ok code => exact absurd ⟨code, emitted⟩ h
  | error fault => exact ⟨fault, rfl⟩

/-- Whatever can be built for the targets can be written. -/
def CanWrite (e : Emitter) (w : Workflow) (college : String) (directory : Pathname)
    (t : FileTree) (targets : List Target) : Prop :=
  ∀ target ∈ targets, ∀ code, (e.emit (.ofTarget target) w college).result = .ok code →
    (t.write (target.classPath directory college) (code ++ "\n")).2 = .ok ()

/-- Classes that can be built are written before all that follows. -/
theorem writeClasses_built (built : ∀ target ∈ targets, e.Builds w college target)
    (writes : e.CanWrite w college directory t targets) (rest : List Value)
    (written : List (Target × Pathname)) : ∃ t',
      let noted := targets.foldl (fun written target =>
        recordWritten target (target.classPath directory college) written) written
      (e.writeClasses w college directory (nameValues targets) written t).result =
          ⟨t', .ok noted⟩ ∧
        (e.writeClasses w college directory (nameValues targets ++ rest) written t).result =
          (e.writeClasses w college directory rest noted t').result := by
  induction targets generalizing t written with
  | nil => exact ⟨t, rfl, rfl⟩
  | cons target more ih =>
    obtain ⟨code, emitted⟩ := built target List.mem_cons_self
    have ok := writes target List.mem_cons_self code emitted
    have one := FileTree.writesAt_write t (target.classPath directory college) (code ++ "\n")
    cases wrote : t.write (target.classPath directory college) (code ++ "\n") with
    | mk t₁ outcome =>
      rw [wrote] at ok one
      obtain rfl : outcome = .ok () := ok
      obtain ⟨t', done, onward⟩ := ih (t := t₁)
        (fun target ht => built target (List.mem_cons_of_mem _ ht))
        (fun target ht code emitted =>
          one.write_ok (writes target (List.mem_cons_of_mem _ ht) code emitted))
        (recordWritten target (target.classPath directory college) written)
      refine ⟨t', ?_, ?_⟩
      · rw [nameValues, List.map_cons, result_writeClasses_cons, emitted]
        simp only [wrote, Profile.target_ofTarget, List.foldl_cons]
        exact done
      · rw [nameValues, List.map_cons, List.cons_append, result_writeClasses_cons, emitted]
        simp only [wrote, Profile.target_ofTarget, List.foldl_cons]
        exact onward

instance (e : Emitter) (w : Workflow) (college : String) : DecidablePred (e.Builds w college) :=
  fun target =>
    match h : (e.emit (.ofTarget target) w college).result with
    | .ok code => isTrue ⟨code, h⟩
    | .error _ => isFalse fun ⟨_, other⟩ => nomatch h.symm.trans other

/-- The targets up to the first whose class cannot be built. -/
def builtTargets (e : Emitter) (w : Workflow) (college : String) (targets : List Target) :
    List Target :=
  targets.takeWhile fun target => e.Builds w college target

theorem builds_of_mem_builtTargets {target : Target}
    (h : target ∈ e.builtTargets w college targets) : e.Builds w college target := by
  simpa using List.mem_takeWhile_imp h

theorem builtTargets_eq_self (h : ∀ target ∈ targets, e.Builds w college target) :
    e.builtTargets w college targets = targets :=
  List.takeWhile_eq_self_iff.mpr fun target ht => by simpa using h target ht

theorem builtTargets_append {target : Target} (before after : List Target)
    (h : ∀ b ∈ before, e.Builds w college b) (failed : ¬e.Builds w college target) :
    e.builtTargets w college (before ++ target :: after) = before := by
  rw [builtTargets, List.takeWhile_append_of_pos fun b hb => by simpa using h b hb,
    List.takeWhile_cons_of_neg (by simpa using failed), List.append_nil]

/-- All classes can be built, or there is a first that cannot. -/
theorem builtTargets_cases (e : Emitter) (w : Workflow) (college : String)
    (targets : List Target) :
    (e.builtTargets w college targets = targets) ∨
      ∃ target after fault, targets = e.builtTargets w college targets ++ target :: after ∧
        (e.emit (.ofTarget target) w college).result = .error fault := by
  induction targets with
  | nil => exact .inl rfl
  | cons target rest ih =>
    cases emitted : (e.emit (.ofTarget target) w college).result with
    | error fault =>
      refine .inr ⟨target, rest, fault, ?_, emitted⟩
      have none := builtTargets_append [] rest nofun (not_builds_of_error emitted)
      exact congrArg (· ++ target :: rest) none.symm
    | ok code =>
      have first : e.builtTargets w college (target :: rest) =
          target :: e.builtTargets w college rest :=
        List.takeWhile_cons_of_pos (by simpa using ⟨code, emitted⟩)
      rw [first]
      rcases ih with all | ⟨target', after, fault, split, failed⟩
      · exact .inl (congrArg _ all)
      · exact .inr ⟨target', after, fault, congrArg _ split, failed⟩

end Emitter

theorem askedTargets_eq (values : List Value) :
    askedTargets values =
      namedTargets (if values.isEmpty then nameValues Target.all else values) := by
  cases values with
  | nil => exact (namedTargets_nameValues Target.all).symm
  | cons v rest => rfl

namespace Emitter

variable {e : Emitter} {w : Workflow} {college : String} {directory : Pathname}
  {targets : List Target} {t made : FileTree} {values : List Value}

/-- An export writes the classes for the targets that are asked for, and comes then to a value
that names none. -/
theorem result_exportTo (e : Emitter) (w : Workflow) (college : String) (values : List Value)
    (ensured : t.ensureDirectories directory = .ok made) : ∃ rest,
    rest.head? = (askedTargets values).2 ∧
      (∀ v, (askedTargets values).2 = some v → Profile.ofValue? v = none) ∧
      (e.exportTo w college directory values t).result =
        (e.writeClasses w college directory (nameValues (askedTargets values).1 ++ rest) []
          made).result := by
  obtain ⟨rest, split, first, unnamed⟩ := namedTargets_eq
    (if values.isEmpty then nameValues Target.all else values)
  rw [← askedTargets_eq] at split first unnamed
  refine ⟨rest, first, unnamed, ?_⟩
  rw [← split, exportTo, ensured]
  rfl

/-- How an export ends after the targets that it is asked for, and the tree that it leaves. -/
structure Ends (e : Emitter) (w : Workflow) (college : String) (directory : Pathname)
    (asked : List Target × Option Value) (made : FileTree) (x : Export) : Prop where
  tree : (e.writeClasses w college directory (nameValues (e.builtTargets w college asked.1)) []
    made).result = ⟨x.tree, .ok (classPaths directory college (e.builtTargets w college asked.1))⟩
  outcome : (∀ target ∈ asked.1, e.Builds w college target) → x.outcome =
    match asked.2 with
    | none => .ok (classPaths directory college asked.1)
    | some v => .error (.unsupported v)
  failed : ∀ before target after fault, asked.1 = before ++ target :: after →
    (∀ b ∈ before, e.Builds w college b) →
    (e.emit (.ofTarget target) w college).result = .error fault → x.outcome = .error (.emit fault)

theorem ends_exportTo (ensured : t.ensureDirectories directory = .ok made)
    (writes : e.CanWrite w college directory made
      (e.builtTargets w college (askedTargets values).1)) :
    e.Ends w college directory (askedTargets values) made
      (e.exportTo w college directory values t).result := by
  obtain ⟨rest, first, unnamed, run⟩ := result_exportTo e w college values ensured
  generalize askedTargets values = asked at *
  generalize (e.exportTo w college directory values t).result = x at *
  rcases builtTargets_cases e w college asked.1 with all | ⟨target, after, fault, split, failed⟩
  · have built : ∀ target ∈ asked.1, e.Builds w college target :=
      fun target ht => builds_of_mem_builtTargets (all.symm ▸ ht)
    obtain ⟨t', done, onward⟩ := writeClasses_built built (all ▸ writes) rest []
    rw [foldl_recordWritten] at done onward
    rw [onward] at run
    have last : x = ⟨t', match asked.2 with
        | none => .ok (classPaths directory college asked.1)
        | some v => .error (.unsupported v)⟩ := by
      rw [run]
      cases rest with
      | nil =>
        rw [← first]
        rfl
      | cons v _ =>
        rw [writeClasses_cons, unnamed v first.symm, ← first]
        rfl
    refine ⟨?_, fun _ => last ▸ rfl, fun before target after fault split _ failed => ?_⟩
    · rw [all, done, last]
    · obtain ⟨code, emitted⟩ := built target (split ▸ by simp)
      cases emitted.symm.trans failed
  · have fails := not_builds_of_error failed
    obtain ⟨t', done, onward⟩ := writeClasses_built (fun _ => builds_of_mem_builtTargets) writes
      (nameValues (target :: after) ++ rest) []
    have stopped : x = ⟨t', .error (.emit fault)⟩ := by
      have through : nameValues asked.1 ++ rest = nameValues (e.builtTargets w college asked.1) ++
          (nameValues (target :: after) ++ rest) := by
        conv_lhs => rw [split, nameValues, List.map_append, List.append_assoc]
        rfl
      rw [run, through, onward, nameValues, List.map_cons, List.cons_append,
        result_writeClasses_cons, failed]
    rw [foldl_recordWritten] at done
    refine ⟨?_, fun built => ?_, fun before target' after' fault' split' built failed' => ?_⟩
    · rw [done, stopped]
    · exact absurd (built target (split ▸ by simp)) fails
    · have front : e.builtTargets w college asked.1 = before := by
        conv_lhs => rw [split']
        exact builtTargets_append before after' built (not_builds_of_error failed')
      rw [front, split'] at split
      obtain ⟨rfl, -⟩ := List.cons_eq_cons.mp (List.append_cancel_left split)
      cases failed.symm.trans failed'
      exact congrArg Export.outcome stopped

/-- Where a target's class is among the classes that could be built, it is the one that is built
for the target alone. -/
theorem Ends.lookup?_built {asked : List Target × Option Value} {x : Export}
    (h : e.Ends w college directory asked made x) {target : Target}
    (built : target ∈ e.builtTargets w college asked.1) :
    ∃ code m, (e.emit (.ofTarget target) w college).result = .ok code ∧
      made.locate (target.classPath directory college) = .ok m ∧
      x.tree.lookup? m = some (.file (encodeText (code ++ "\n"))) :=
  lookup?_of_writeClasses h.tree rfl target built

theorem Ends.writesAt {asked : List Target × Option Value} {x : Export}
    (h : e.Ends w college directory asked made x) : FileTree.WritesAt made x.tree
      ((e.builtTargets w college asked.1).map (·.classPath directory college)) := by
  have only := writesAt_of_writeClasses h.tree
  exact only

/-- Two exports that build classes for the same targets leave the same files. -/
theorem Ends.lookup?_congr {asked others : List Target × Option Value} {x y : Export}
    (hx : e.Ends w college directory asked made x) (hy : e.Ends w college directory others made y)
    (same : ∀ target, target ∈ e.builtTargets w college others.1 ↔
      target ∈ e.builtTargets w college asked.1) (m : Location) :
    y.tree.lookup? m = x.tree.lookup? m := by
  by_cases there : ∃ target ∈ e.builtTargets w college asked.1,
      made.locate (target.classPath directory college) = .ok m
  · obtain ⟨target, built, located⟩ := there
    obtain ⟨code, _, emitted, at_, holds⟩ := hx.lookup?_built built
    obtain ⟨code', _, emitted', at', holds'⟩ := hy.lookup?_built ((same target).mpr built)
    cases emitted.symm.trans emitted'
    cases located.symm.trans at_
    cases located.symm.trans at'
    rw [holds, holds']
  · have away {targets : List Target}
        (h : ∀ target ∈ targets, target ∈ e.builtTargets w college asked.1) :
        ∀ p ∈ targets.map (·.classPath directory college), made.locate p ≠ .ok m := by
      intro p hp located
      obtain ⟨target, ht, rfl⟩ := List.mem_map.mp hp
      exact there ⟨target, h target ht, located⟩
    rw [hx.writesAt.lookup?_eq (away fun _ ht => ht),
      hy.writesAt.lookup?_eq (away fun target => (same target).mp)]

end Emitter

theorem splitChars_whole {sep : Char → Bool} {cs : List Char} (whole : cs.any sep = false) :
    splitChars sep cs = [cs] := by
  induction cs with
  | nil => rfl
  | cons c rest ih =>
    rw [List.any_cons, Bool.or_eq_false_iff] at whole
    rw [splitChars, whole.1, ih whole.2]
    rfl

/-- The file of a target's class in the directory, by its name. -/
def Target.fileIn (target : Target) (directory : Pathname) (college : String) : Pathname :=
  { directory with parts := directory.parts ++ [(Profile.ofTarget target).fileName college] }

/-- The class of a college without a slash is a file of the directory itself. -/
theorem Target.classPath_of_flat {college : String} (flat : '/' ∉ college.toList) (target : Target)
    (directory : Pathname) :
    target.classPath directory college = target.fileIn directory college := by
  unfold fileIn
  generalize named : (Profile.ofTarget target).fileName college = name
  have chars := Profile.toList_fileName (Profile.ofTarget target) college
  rw [named] at chars
  have whole : name.toList.any (· == '/') = false := by
    have ending : ('_' :: (Profile.ofTarget target).fileEnding).any (· == '/') = false := by
      cases target <;> decide
    have start : ("initialize_" ++ college).toList.any (· == '/') = false := by
      simpa using fun c hc (slash : c = '/') => flat (slash ▸ hc)
    rw [chars, List.any_append, start, ending, Bool.or_false]
  have plain := Profile.plain_fileEnding ("initialize_" ++ college).toList target
  rw [← chars, String.ofList_toList] at plain
  have one : (Pathname.ofText name).parts = [name] := by
    simp [Pathname.ofText, Pathname.pieces, splitChars_whole whole, plain.1, plain.2.1]
  rw [classPath, Profile.path_eq, named, one]

namespace Emitter

variable {w : Workflow} {college : String}

/-- With the built-in templates a class can be built unless a declared condition that gates a step
and is within reach of the target cannot be compiled. -/
theorem builds_iff (heuristics : List Heuristic) (partition : List String) (target : Target) :
    Builds ⟨.builtIn, heuristics, partition⟩ w college target ↔
      ∀ c ∈ w.conditions.entries,
        c.1 ∈ referencedNames heuristics ((Profile.ofTarget target).selectSteps w) →
        c.2.isRelevant target = true → ∃ found, c.2.compile.outcome = .ok found := by
  rw [Builds, result_emit, Profile.target_ofTarget]
  cases h : (resolve heuristics w ((Profile.ofTarget target).selectSteps w) target).outcome with
  | error fault =>
    obtain ⟨before, c, after, split, gates, relevant, failed, -⟩ :=
      Resolution.exists_first_of_error h
    refine iff_of_false nofun fun compiles => ?_
    obtain ⟨found, compiled⟩ := compiles c (split ▸ by simp) gates relevant
    cases failed.symm.trans compiled
  | ok r => exact iff_of_true ⟨_, rfl⟩ (Resolution.exists_compile_of_ok h)

theorem result_generate {e : Emitter} {document : Value} (reads : Workflow.ofValue document = .ok w)
    (target : Target) : (e.generate document college (.text target.name)).result =
      (e.emit (.ofTarget target) w college).result.mapError .emit := by
  rw [generate, Profile.ofValue?_name]
  simp only [reads]
  rfl

end Emitter

/-- The classes that are asked for are built, each in the file of its name, and nothing else is
written. -/
structure Emitter.ExportsAsked (e : Emitter) (w : Workflow) (college : String)
    (directory : Pathname) (t made : FileTree) (values : List Value) : Prop where
  outcome : (∀ target ∈ (askedTargets values).1, e.Builds w college target) →
    (e.exportTo w college directory values t).result.outcome =
      match (askedTargets values).2 with
      | none => .ok ((askedTargets values).1.eraseDups.map fun target =>
          (target, target.fileIn directory college))
      | some v => .error (.unsupported v)
  /-- A supported target whose class cannot be built ends the export. -/
  failed : ∀ before target after fault, (askedTargets values).1 = before ++ target :: after →
    (∀ b ∈ before, e.Builds w college b) →
    (e.emit (.ofTarget target) w college).result = .error fault →
    e.builtTargets w college (askedTargets values).1 = before ∧
      (e.exportTo w college directory values t).result.outcome = .error (.emit fault)
  /-- Each class is the one that is built for its target alone. -/
  files : ∀ target ∈ e.builtTargets w college (askedTargets values).1, ∃ code,
    (e.emit (.ofTarget target) w college).result = .ok code ∧
    (∀ document, Workflow.ofValue document = .ok w →
      (e.generate document college (.text target.name)).result = .ok code) ∧
    (e.exportTo w college directory values t).result.tree.read (target.fileIn directory college) =
      .ok (encodeText (code ++ "\n"))
  others : ∀ m, (∀ target ∈ e.builtTargets w college (askedTargets values).1,
      made.locate (target.fileIn directory college) ≠ .ok m) →
    ∀ content,
      (e.exportTo w college directory values t).result.tree.lookup? m = some (.file content) ↔
        t.lookup? m = some (.file content)
  /-- Neither the order of the targets nor what is repeated matters. -/
  unordered : ∀ more, (∀ target, target ∈ e.builtTargets w college (askedTargets more).1 ↔
      target ∈ e.builtTargets w college (askedTargets values).1) →
    ∀ m, (e.exportTo w college directory more t).result.tree.lookup? m =
      (e.exportTo w college directory values t).result.tree.lookup? m
  /-- The targets before a value that names none are written as they are without it. -/
  front : (askedTargets values).1 ≠ [] → ∀ m,
    (e.exportTo w college directory (nameValues (askedTargets values).1) t).result.tree.lookup? m =
      (e.exportTo w college directory values t).result.tree.lookup? m
  none : (askedTargets values).1 = [] →
    (e.exportTo w college directory values t).result.tree = made

/-- An export writes the classes that are asked for and ends at the first value that names no
target, or at the first class that cannot be built. With the built-in templates only a declared
condition that gates a step, is within reach and cannot be compiled keeps a class from being
built. -/
theorem exportTo_writes_asked (e : Emitter) (w : Workflow) {college : String}
    {directory : Pathname} (values : List Value) {t made : FileTree}
    (flat : '/' ∉ college.toList) (ensured : t.ensureDirectories directory = .ok made)
    (writes : e.CanWrite w college directory made
      (e.builtTargets w college (askedTargets values).1)) :
    e.ExportsAsked w college directory t made values ∧
    (e.templates = .builtIn → ∀ target, e.Builds w college target ↔
      ∀ c ∈ w.conditions.entries,
        c.1 ∈ referencedNames e.heuristics ((Profile.ofTarget target).selectSteps w) →
        c.2.isRelevant target = true → ∃ found, c.2.compile.outcome = .ok found) := by
  have ends {more : List Value} (same : ∀ target,
      target ∈ e.builtTargets w college (askedTargets more).1 →
        target ∈ e.builtTargets w college (askedTargets values).1) :
      e.Ends w college directory (askedTargets more) made
        (e.exportTo w college directory more t).result :=
    Emitter.ends_exportTo ensured fun target ht => writes target (same target ht)
  have own := ends fun _ ht => ht
  have place (target : Target) :
      target.classPath directory college = target.fileIn directory college :=
    target.classPath_of_flat flat directory
  have unordered (more : List Value) (same : ∀ target,
      target ∈ e.builtTargets w college (askedTargets more).1 ↔
        target ∈ e.builtTargets w college (askedTargets values).1) :=
    own.lookup?_congr (ends fun target => (same target).mp) same
  refine ⟨⟨fun built => ?_, ?_, fun target built => ?_, ?_, unordered, ?_, ?_⟩, ?_⟩
  · simp only [own.outcome built, classPaths, place]
  · intro before target after fault split built failed
    refine ⟨?_, own.failed before target after fault split built failed⟩
    rw [split]
    exact Emitter.builtTargets_append before after built (Emitter.not_builds_of_error failed)
  · rw [← place]
    obtain ⟨code, m, emitted, located, holds⟩ := own.lookup?_built built
    refine ⟨code, emitted, fun document reads => ?_,
      FileTree.read_eq_ok.mpr ⟨m, own.writesAt.locate_iff.mpr located, holds⟩⟩
    rw [Emitter.result_generate reads, emitted]
    rfl
  · intro m away content
    rw [← (FileTree.addsDirectories_of_ensureParts ensured).file_iff, own.writesAt.lookup?_eq]
    intro p hp
    obtain ⟨target, ht, rfl⟩ := List.mem_map.mp hp
    exact place target ▸ away target ht
  · intro some m
    have named : askedTargets (nameValues (askedTargets values).1) =
        ((askedTargets values).1, none) := by
      have other : nameValues (askedTargets values).1 ≠ [] := by simpa [nameValues] using some
      rw [askedTargets, if_neg other, namedTargets_nameValues]
    exact unordered _ (by simp [named]) m
  · intro none
    have same := own.tree
    rw [none] at same
    exact (congrArg Export.tree same).symm
  · obtain ⟨templates, heuristics, partition⟩ := e
    rintro rfl
    exact Emitter.builds_iff heuristics partition

/-- A workflow with one step, for a condition that cannot be compiled. -/
def longNumberExam : Workflow := { longNumberWorkflow with steps := [gatedStep "Exam" "gpa"] }

theorem not_builds_longNumberExam :
    ¬Emitter.standard.Builds longNumberExam "acme" .studentTerm := by
  intro builds
  have compiles := (Emitter.builds_iff Heuristic.defaults schoolNames .studentTerm).mp builds
  have long : ∃ c ∈ longNumberExam.conditions.entries,
      c.1 ∈ referencedNames Heuristic.defaults
        ((Profile.ofTarget .studentTerm).selectSteps longNumberExam) ∧
      c.2.isRelevant .studentTerm = true ∧ c.2.compile.outcome.toOption = none := by
    decide +kernel
  obtain ⟨c, hc, gates, relevant, failed⟩ := long
  obtain ⟨found, compiled⟩ := compiles c hc gates relevant
  rw [compiled] at failed
  cases failed

theorem builds_bare_course : Emitter.standard.Builds .bare "acme" .studentCourse :=
  ⟨_, result_emit_bare "acme"⟩

def outDirectory : Pathname := ⟨0, ["out"]⟩

theorem canWrite_bare_course (targets : List Target)
    (only : ∀ target ∈ targets, target = .studentCourse) :
    Emitter.standard.CanWrite .bare "acme" outDirectory (bareTree [(["out"], .directory)])
      targets := by
  intro target ht code emitted
  obtain rfl := only target ht
  cases (result_emit_bare "acme").symm.trans emitted
  have located : (bareTree [(["out"], .directory)]).locate
      (Target.studentCourse.classPath outDirectory "acme") =
        .ok ["out", "initialize_acme_course_registration_step.rb"] := by rfl
  have small := isSmallText_courseCode (by decide : IsSmallText (capitalize "acme"))
    (List.forall_mem_nil IsSmallText)
  exact FileTree.write_ok_iff.mpr ⟨⟨_, located, by decide⟩,
    (small.append (by decide)).encodingFault?⟩

/-- The classes of a college that are written into a tree without directories. -/
abbrev outExport (w : Workflow) (values : List Value) : Export :=
  (Emitter.standard.exportTo w "acme" outDirectory values (bareTree [])).result

def coursesTwice : List Value := nameValues [.studentCourse, .studentCourse]

def invoiceBehind : List Value := coursesTwice ++ [.text "Invoice", .text Target.studentTerm.name]

/-- A target that is named twice is written once, also before a value that names none; a supported
target whose class cannot be built ends the export. -/
theorem exportTo_writes_asked_course :
    (outExport .bare coursesTwice).outcome =
        .ok [(.studentCourse, Target.studentCourse.fileIn outDirectory "acme")] ∧
      (outExport .bare invoiceBehind).outcome = .error (.unsupported (.text "Invoice")) ∧
      (outExport .bare invoiceBehind).tree.read (Target.studentCourse.fileIn outDirectory "acme") =
        .ok (encodeText (courseCode "acme" [] ++ "\n")) ∧
      ∃ fault, (outExport longNumberExam (nameValues [.studentTerm])).outcome =
        .error (.emit fault) := by
  rw [outExport, outExport, outExport]
  have flat : '/' ∉ "acme".toList := by decide
  have ensured : (bareTree []).ensureDirectories outDirectory =
      .ok (bareTree [(["out"], .directory)]) := by rfl
  have both : ∀ target ∈ [Target.studentCourse, .studentCourse],
      Emitter.standard.Builds .bare "acme" target := by
    simpa using builds_bare_course
  have built := Emitter.builtTargets_eq_self both
  have asked : askedTargets coursesTwice = ([.studentCourse, .studentCourse], none) := by rfl
  have asked' : askedTargets invoiceBehind =
      ([.studentCourse, .studentCourse], some (.text "Invoice")) := by rfl
  have term : askedTargets (nameValues [.studentTerm]) = ([.studentTerm], none) := by rfl
  obtain ⟨plain, -⟩ := exportTo_writes_asked .standard .bare coursesTwice flat ensured
    (by rw [asked, built]; exact canWrite_bare_course _ (by simp))
  obtain ⟨stopped, -⟩ := exportTo_writes_asked .standard .bare invoiceBehind flat ensured
    (by rw [asked', built]; exact canWrite_bare_course _ (by simp))
  have done := plain.outcome
  have ended := stopped.outcome
  have files := stopped.files .studentCourse
  have once : [Target.studentCourse, .studentCourse].eraseDups = [.studentCourse] := by decide
  simp only [asked, once, List.map_cons, List.map_nil] at done
  simp only [asked'] at ended files
  refine ⟨done both, ended both, ?_, ?_⟩
  · have first : Target.studentCourse ∈ Emitter.standard.builtTargets .bare "acme"
        [.studentCourse, .studentCourse] := by
      rw [built]
      exact List.mem_cons_self
    obtain ⟨code, emitted, -, read⟩ := files first
    obtain rfl := Except.ok.inj ((result_emit_bare "acme").symm.trans emitted)
    exact read
  · obtain ⟨fault, emitted⟩ := Emitter.exists_fault_of_not_builds not_builds_longNumberExam
    have none : Emitter.standard.builtTargets longNumberExam "acme" [.studentTerm] = [] :=
      Emitter.builtTargets_append [] [] nofun not_builds_longNumberExam
    obtain ⟨longer, -⟩ := exportTo_writes_asked .standard longNumberExam (nameValues [.studentTerm])
      flat ensured (by rw [term, none]; exact fun target ht => absurd ht List.not_mem_nil)
    have failed := longer.failed [] .studentTerm [] fault
    rw [term] at failed
    exact ⟨fault, (failed rfl nofun emitted).2⟩

end Gatehouse
