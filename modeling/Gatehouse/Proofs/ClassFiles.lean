import Gatehouse.Proofs.OutputNames
import Gatehouse.Proofs.TreeGrowth

namespace Gatehouse

namespace FileTree

variable {t t' t'' : FileTree}

/-- The other tree differs only in files at some paths. -/
structure WritesAt (t t' : FileTree) (paths : List Pathname) : Prop where
  here : t'.here = t.here
  directory_iff : ∀ m, t'.lookup? m = some .directory ↔ t.lookup? m = some .directory
  changed : ∀ m, t'.lookup? m ≠ t.lookup? m → ∃ p ∈ paths, t.locate p = .ok m

variable {paths more : List Pathname}

theorem WritesAt.refl (t : FileTree) (paths : List Pathname) : WritesAt t t paths :=
  ⟨rfl, fun _ => Iff.rfl, fun _ h => absurd rfl h⟩

/-- Paths lead to the same places. -/
theorem WritesAt.locate_iff (h : WritesAt t t' paths) {p : Pathname} {l : Location} :
    t'.locate p = .ok l ↔ t.locate p = .ok l := by
  have start : t'.start p = t.start p := by simp only [FileTree.start, h.here]
  rw [locate_eq_ok, locate_eq_ok, start]
  constructor
  · rintro ⟨text, walked⟩
    exact ⟨text, walk_mono (fun m => (h.directory_iff m).mp) walked⟩
  · rintro ⟨text, walked⟩
    exact ⟨text, walk_mono (fun m => (h.directory_iff m).mpr) walked⟩

theorem WritesAt.trans (h : WritesAt t t' paths) (h' : WritesAt t' t'' more) :
    WritesAt t t'' (paths ++ more) := by
  refine ⟨h'.here.trans h.here, fun m => (h'.directory_iff m).trans (h.directory_iff m),
    fun m hm => ?_⟩
  by_cases same : t''.lookup? m = t'.lookup? m
  · obtain ⟨p, hp, located⟩ := h.changed m (same ▸ hm)
    exact ⟨p, List.mem_append_left more hp, located⟩
  · obtain ⟨p, hp, located⟩ := h'.changed m same
    exact ⟨p, List.mem_append_right paths hp, h.locate_iff.mp located⟩

theorem WritesAt.lookup?_eq (h : WritesAt t t' paths) {m : Location}
    (away : ∀ p ∈ paths, t.locate p ≠ .ok m) : t'.lookup? m = t.lookup? m := by
  by_cases same : t'.lookup? m = t.lookup? m
  · exact same
  · obtain ⟨p, hp, located⟩ := h.changed m same
    exact absurd located (away p hp)

theorem writesAt_put {p : Pathname} {l : Location} (located : t.locate p = .ok l)
    (other : t.lookup? l ≠ some .directory) (content : ByteArray) :
    WritesAt t (t.put l (.file content)) [p] := by
  have deep := ne_root_of_lookup? other
  refine ⟨rfl, fun m => ?_, fun m hm => ?_⟩
  · rw [lookup?_put deep]
    split
    next same => simp [same, other]
    next => rfl
  · rw [lookup?_put deep] at hm
    split at hm
    next same => exact ⟨p, List.mem_singleton_self p, same ▸ located⟩
    next => exact absurd rfl hm

theorem writesAt_write (t : FileTree) (p : Pathname) (text : String) :
    WritesAt t (t.write p text).1 [p] := by
  rcases t.write_cases p text with ⟨f, failed⟩ | ⟨l, content, located, other, wrote, -⟩
  · rw [failed]
    exact .refl t [p]
  · rw [wrote]
    exact writesAt_put located other content

/-- What was written can be read. -/
theorem lookup?_of_write {p : Pathname} {text : String} (h : t.write p text = (t', .ok ())) :
    ∃ l, t.locate p = .ok l ∧ t'.lookup? l = some (.file (encodeText text)) := by
  rcases t.write_cases p text with ⟨f, failed⟩ | ⟨l, content, located, other, wrote, whole⟩
  · rw [failed] at h
    cases h
  · rw [h] at wrote whole
    refine ⟨l, located, ?_⟩
    rw [show t' = _ from wrote, lookup?_put (ne_root_of_lookup? other), if_pos rfl, whole rfl]

theorem write_of_whole {p : Pathname} {l : Location} {text : String}
    (located : t.locate p = .ok l) (other : t.lookup? l ≠ some .directory)
    (whole : encodingFault? text = none) :
    t.write p text = (t.put l (.file (encodeText text)), .ok ()) := by
  have wrote : t.writeBytes p (encodeText text) = .ok (t.put l (.file (encodeText text))) := by
    simp only [writeBytes, located]
  simp [write, whole, wrote]

theorem read_eq_ok {p : Pathname} {content : ByteArray} :
    t.read p = .ok content ↔ ∃ l, t.locate p = .ok l ∧ t.lookup? l = some (.file content) := by
  rw [← find_eq_ok, read]
  cases t.find p with
  | error f => simp [bind, Except.bind]
  | ok e => cases e <;> simp [bind, Except.bind]

end FileTree

/-- Where the class for a target is written. -/
def Target.classPath (target : Target) (directory : Pathname) (college : String) : Pathname :=
  (Profile.ofTarget target).path directory college

theorem Profile.ofValue?_name (target : Target) :
    ofValue? (.text target.name) = some (ofTarget target) := by
  have named : Target.ofName? target.name = some target := by cases target <;> decide
  rw [ofValue?, named, Option.map_some]

/-- Classes for different targets are written at different places. -/
theorem eq_of_locate_classPath {t : FileTree} {directory : Pathname} {college : String}
    {target other : Target} {m : Location} (h : t.locate (target.classPath directory college) = .ok m)
    (h' : t.locate (other.classPath directory college) = .ok m) : target = other := by
  obtain ⟨front, start, last⟩ := Profile.parts_fileName college
  -- both names are looked up in the same directory
  have place {target : Target} (h : t.locate (target.classPath directory college) = .ok m) :
      ∃ l, t.walk (t.start directory) (directory.parts ++ front) = .ok l ∧
        m = l ++ [knownName (String.ofList (start ++ '_' :: (Profile.ofTarget target).fileEnding))] := by
    have walked := (FileTree.locate_eq_ok.mp h).2
    rw [Target.classPath, Profile.path_eq, last, ← List.append_assoc,
      FileTree.walk_append_eq_ok] at walked
    obtain ⟨l, first, second⟩ := walked
    exact ⟨l, first, FileTree.walk_plain second (Profile.plain_fileEnding start target)⟩
  obtain ⟨l, walked, rfl⟩ := place h
  obtain ⟨l', walked', names⟩ := place h'
  cases walked.symm.trans walked'
  have same := List.append_cancel_left names
  exact eq_of_knownName_fileEnding start (List.singleton_inj.mp same)

namespace Emitter

section

-- how a text is written does not matter for the walk over the targets
attribute [local irreducible] FileTree.write

theorem writeClasses_cons (e : Emitter) (w : Workflow) (college : String) (directory : Pathname)
    (target : Value) (rest : List Value) (written : List (Target × Pathname)) (t : FileTree) :
    e.writeClasses w college directory (target :: rest) written t =
      match Profile.ofValue? target with
      | none => pure ⟨t, .error (.unsupported target)⟩
      | some p => e.emit p w college >>= fun
        | .error fault => pure ⟨t, .error (.emit fault)⟩
        | .ok code =>
          match t.write (p.path directory college) (code ++ "\n") with
          | (t, .error fault) => pure ⟨t, .error (.file fault)⟩
          | (t, .ok ()) =>
            Logged.note (.initializerWritten p.target (p.path directory college).text) >>= fun _ =>
              e.writeClasses w college directory rest
                (recordWritten p.target (p.path directory college) written) t :=
  rfl

theorem result_writeClasses_cons (e : Emitter) (w : Workflow) (college : String)
    (directory : Pathname) (target : Target) (rest : List Value)
    (written : List (Target × Pathname)) (t : FileTree) :
    (e.writeClasses w college directory (.text target.name :: rest) written t).result =
      match (e.emit (.ofTarget target) w college).result with
      | .error fault => ⟨t, .error (.emit fault)⟩
      | .ok code =>
        match t.write (target.classPath directory college) (code ++ "\n") with
        | (t, .error fault) => ⟨t, .error (.file fault)⟩
        | (t, .ok ()) => (e.writeClasses w college directory rest
            (recordWritten (Profile.ofTarget target).target (target.classPath directory college)
              written) t).result := by
  rw [writeClasses_cons, Profile.ofValue?_name]
  simp only [Logged.result_bind, Target.classPath]
  cases (e.emit (.ofTarget target) w college).result with
  | error fault => rfl
  | ok code =>
    simp only
    split
    next => rfl
    next => rfl

end

variable {e : Emitter} {w : Workflow} {college : String} {directory : Pathname}
  {targets : List Target} {written : List (Target × Pathname)} {t : FileTree} {x : Export}

/-- Classes are written at their places only, whether all of them are written or not. -/
theorem writesAt_of_writeClasses (run : (e.writeClasses w college directory
      (targets.map fun t => .text t.name) written t).result = x) :
    FileTree.WritesAt t x.tree (targets.map (·.classPath directory college)) := by
  induction targets generalizing written t with
  | nil => exact run ▸ .refl t _
  | cons target rest ih =>
    rw [List.map_cons, result_writeClasses_cons] at run
    split at run
    next => exact run ▸ .refl t _
    next code _ =>
      have one := FileTree.writesAt_write t (target.classPath directory college) (code ++ "\n")
      split at run
      next t' fault wrote =>
        rw [wrote] at one
        subst run
        exact one.trans (.refl t' (rest.map (·.classPath directory college)))
      next t' wrote =>
        rw [wrote] at one
        exact one.trans (ih run)

/-- If all classes are written, each stands at its place. -/
theorem lookup?_of_writeClasses {out : List (Target × Pathname)}
    (run : (e.writeClasses w college directory (targets.map fun t => .text t.name) written t).result
      = x) (done : x.outcome = .ok out) :
    ∀ target ∈ targets, ∃ code m, (e.emit (.ofTarget target) w college).result = .ok code ∧
      t.locate (target.classPath directory college) = .ok m ∧
      x.tree.lookup? m = some (.file (encodeText (code ++ "\n"))) := by
  induction targets generalizing written t with
  | nil => exact fun _ h => absurd h List.not_mem_nil
  | cons first rest ih =>
    rw [List.map_cons, result_writeClasses_cons] at run
    split at run
    next =>
      subst run
      cases done
    next code emitted =>
      split at run
      next =>
        subst run
        cases done
      next t' wrote =>
        have one := FileTree.writesAt_write t (first.classPath directory college) (code ++ "\n")
        rw [wrote] at one
        intro target ht
        by_cases again : target ∈ rest
        · obtain ⟨code, m, emitted, located, there⟩ := ih run target again
          exact ⟨code, m, emitted, one.locate_iff.mp located, there⟩
        · -- the class that was written first is not overwritten by those for other targets
          obtain rfl : target = first := (List.mem_cons.mp ht).resolve_right again
          obtain ⟨m, located, there⟩ := FileTree.lookup?_of_write wrote
          refine ⟨code, m, emitted, located, ?_⟩
          rw [(writesAt_of_writeClasses run).lookup?_eq fun p hp located' => ?_, there]
          obtain ⟨other, ho, rfl⟩ := List.mem_map.mp hp
          have eq := eq_of_locate_classPath located (one.locate_iff.mp located')
          exact again (eq ▸ ho)

end Emitter

end Gatehouse
