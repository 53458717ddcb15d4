import Gatehouse.FileTree.Basic
import Mathlib.Data.List.Induction

namespace Gatehouse

namespace FileTree

/-- All that stands somewhere stands in a directory. -/
def IsClosed (t : FileTree) : Prop :=
  ∀ l name, t.lookup? (l ++ [name]) ≠ none → t.lookup? l = some .directory

/-- The place that the names of a path start from. -/
def start (t : FileTree) (p : Pathname) : Location := if p.isAbsolute then [] else t.here

variable {t t' : FileTree}

theorem ne_root_of_lookup? {l : Location} (h : t.lookup? l ≠ some .directory) : l ≠ [] := by
  rintro rfl
  exact h rfl

/-- The places on the way to something are directories. -/
theorem IsClosed.directory_of_prefix (closed : t.IsClosed) {l m : Location} (hp : l <+: m)
    (hm : t.lookup? m = some .directory) : t.lookup? l = some .directory := by
  obtain ⟨rest, rfl⟩ := hp
  induction rest using List.reverseRecOn with
  | nil => rwa [List.append_nil] at hm
  | append_singleton rest name ih =>
    rw [← List.append_assoc] at hm
    exact ih (closed _ name (by rw [hm]; exact nofun))

theorem locate_eq_ok {p : Pathname} {l : Location} :
    t.locate p = .ok l ↔ checkText p.text = .ok () ∧ t.walk (t.start p) p.parts = .ok l := by
  rw [locate, start]
  cases checkText p.text with
  | error f => simp [bind, Except.bind]
  | ok u => simp [bind, Except.bind]

theorem find_eq_ok {p : Pathname} {e : Entry} :
    t.find p = .ok e ↔ ∃ l, t.locate p = .ok l ∧ t.lookup? l = some e := by
  rw [find]
  cases t.locate p with
  | error f => simp [bind, Except.bind]
  | ok l =>
    simp only [bind, Except.bind, Except.ok.injEq, exists_eq_left']
    cases t.lookup? l with
    | none => simp
    | some e => simp

theorem walk_append (l : Location) (first rest : List String) :
    t.walk l (first ++ rest) = (t.walk l first).bind fun m => t.walk m rest := by
  induction first generalizing l with
  | nil => rfl
  | cons piece first ih =>
    rw [List.cons_append, walk, walk]
    split
    next => rfl
    next => rfl
    next =>
      split
      next => exact ih l
      next =>
        split
        next => exact ih _
        next =>
          split
          next => rfl
          next => exact ih _

theorem walk_append_eq_ok {l m : Location} {first rest : List String} :
    t.walk l (first ++ rest) = .ok m ↔ ∃ k, t.walk l first = .ok k ∧ t.walk k rest = .ok m := by
  rw [walk_append]
  cases t.walk l first with
  | error f => simp [Except.bind]
  | ok k => simp [Except.bind]

/-- Directories that stay keep the ways through them. -/
theorem walk_mono (kept : ∀ m, t.lookup? m = some .directory → t'.lookup? m = some .directory)
    {l m : Location} {pieces : List String} (h : t.walk l pieces = .ok m) :
    t'.walk l pieces = .ok m := by
  induction pieces generalizing l with
  | nil => exact h
  | cons piece rest ih =>
    rw [walk] at h
    split at h
    next => cases h
    next => cases h
    next here =>
      rw [walk, kept l here]
      split at h
      next plain => simpa only [if_pos plain] using ih h
      next plain =>
        split at h
        next up => simpa only [if_neg plain, if_pos up] using ih h
        next up =>
          split at h
          next => cases h
          next short => simpa only [if_neg plain, if_neg up, if_neg short] using ih h

/-- One piece that does not lead back leads to the same place or down. -/
theorem walk_singleton {l m : Location} {piece : String} (h : t.walk l [piece] = .ok m)
    (down : piece ≠ "..") : m = l ∨ ∃ name, m = l ++ [name] := by
  rw [walk] at h
  split at h
  next => cases h
  next => cases h
  next =>
    rw [if_neg down] at h
    split at h
    next => exact Or.inl (Except.ok.inj h).symm
    next =>
      split at h
      next => cases h
      next => exact Or.inr ⟨_, (Except.ok.inj h).symm⟩

theorem walk_plain {l m : Location} {piece : String} (h : t.walk l [piece] = .ok m)
    (plain : piece ≠ "" ∧ piece ≠ "." ∧ piece ≠ "..") : m = l ++ [knownName piece] := by
  rw [walk] at h
  split at h
  next => cases h
  next => cases h
  next =>
    simp only [plain.1, plain.2.1, plain.2.2, or_self, if_false] at h
    split at h
    next => cases h
    next => exact (Except.ok.inj h).symm

theorem walk_singleton_congr {l : Location} (h : t.lookup? l = t'.lookup? l) (piece : String) :
    t.walk l [piece] = t'.walk l [piece] := by
  rw [walk, walk, h]
  rfl

theorem makeDirectory_eq_ok {p : Pathname} (h : t.makeDirectory p = .ok t') :
    ∃ l, t.locate p = .ok l ∧ t.lookup? l = none ∧ t' = t.put l .directory := by
  rw [makeDirectory] at h
  cases located : t.locate p with
  | error f =>
    rw [located] at h
    cases h
  | ok l =>
    rw [located] at h
    simp only [bind, Except.bind] at h
    split at h
    next => cases h
    next none => exact ⟨l, rfl, none, (Except.ok.inj h).symm⟩

theorem isDirectory_iff {p : Pathname} :
    t.isDirectory p = true ↔ ∃ l, t.locate p = .ok l ∧ t.lookup? l = some .directory := by
  unfold isDirectory
  rw [← find_eq_ok]
  split
  next h => simp [h]
  next other =>
    constructor
    · exact nofun
    · exact fun h => absurd h other

/-- The tree has all that the other one has; what it has beside that are files and directories on
the way to a place. -/
structure Grows (t t' : FileTree) (goal : Location) : Prop where
  here : t'.here = t.here
  kept : ∀ m e, t.lookup? m = some e → t'.lookup? m = some e
  directories : ∀ m, t'.lookup? m = some .directory → t.lookup? m = some .directory ∨ m <+: goal

theorem Grows.refl (t : FileTree) (goal : Location) : Grows t t goal :=
  ⟨rfl, fun _ _ h => h, fun _ h => Or.inl h⟩

theorem Grows.mono {goal further : Location} (h : Grows t t' goal) (hp : goal <+: further) :
    Grows t t' further :=
  ⟨h.here, h.kept, fun m hm => (h.directories m hm).imp_right fun on => on.trans hp⟩

theorem Grows.put {goal m : Location} {e : Entry} (h : Grows t t' goal)
    (new : t.lookup? m = none) (way : e = .directory → m <+: goal) :
    Grows t (t'.put m e) goal := by
  have deep : m ≠ [] := ne_root_of_lookup? (by rw [new]; exact nofun)
  refine ⟨h.here, fun l d hl => ?_, fun l hl => ?_⟩
  · have other : l ≠ m := by
      rintro rfl
      rw [new] at hl
      cases hl
    rw [lookup?_put deep, if_neg other, h.kept l d hl]
  · rw [lookup?_put deep] at hl
    split at hl
    next same => exact Or.inr (same ▸ way (Option.some.inj hl))
    next => exact h.directories l hl

/-- The way to a path leads down from a directory that is there. -/
structure LeadsDown (t : FileTree) (p : Pathname) (l : Location) (known rest : List String) :
    Prop where
  parts : p.parts = known ++ rest
  walked : t.walk (t.start p) known = .ok l
  directory : t.lookup? l = some .directory
  down : ".." ∉ rest

/-- A tree after the way to a directory was made. -/
structure HasWay (t t' : FileTree) (p : Pathname) (goal : Location) : Prop extends
    Grows t t' goal where
  walked : t'.walk (t.start p) p.parts = .ok goal
  directory : t'.lookup? goal = some .directory
  /-- if the goal was there, then the way led to it -/
  known : ∀ e, t.lookup? goal = some e → t.walk (t.start p) p.parts = .ok goal

/-- A directory that is there already. -/
theorem hasWay_of_isDirectory {p : Pathname} (h : t.isDirectory p = true) :
    ∃ goal, HasWay t t p goal := by
  obtain ⟨l, located, there⟩ := isDirectory_iff.mp h
  have walked := (locate_eq_ok.mp located).2
  exact ⟨l, .refl t l, walked, there, fun _ _ => walked⟩

theorem hasWay_of_makeDirectory {p : Pathname} (h : t.makeDirectory p = .ok t') :
    ∃ goal, HasWay t t' p goal := by
  obtain ⟨l, located, new, rfl⟩ := makeDirectory_eq_ok h
  have grows := (Grows.refl t l).put (e := .directory) new fun _ => List.prefix_rfl
  have deep : l ≠ [] := ne_root_of_lookup? (by rw [new]; exact nofun)
  refine ⟨l, grows, ?_, by rw [lookup?_put deep, if_pos rfl], ?_⟩
  · exact walk_mono (fun m hm => grows.kept m _ hm) (locate_eq_ok.mp located).2
  · intro e he
    rw [new] at he
    cases he

/-- The way to a directory goes on to one in it. -/
theorem HasWay.descend {slashes : Nat} {parts : List String} {part : String} {goal : Location}
    {made : FileTree} (closed : t.IsClosed) (way : HasWay t made ⟨slashes, parts⟩ goal)
    (down : part ≠ "..") (h : made.ensureDirectory ⟨slashes, parts ++ [part]⟩ = .ok t') :
    ∃ further, HasWay t t' ⟨slashes, parts ++ [part]⟩ further := by
  let p : Pathname := ⟨slashes, parts ++ [part]⟩
  have same : made.start p = t.start p := by simp only [start, way.here]
  -- what the last part leads to, it leads to before the way is made as well, if it is there
  have step {m : Location} (walked : made.walk (made.start p) p.parts = .ok m) :
      goal <+: m ∧ ∀ e, t.lookup? m = some e → t.walk (t.start p) p.parts = .ok m := by
    have first : made.walk (t.start p) parts = .ok goal := way.walked
    rw [same, show p.parts = parts ++ [part] from rfl, walk_append, first] at walked
    have last : made.walk goal [part] = .ok m := walked
    have there (h : t.lookup? goal = some .directory) : t.walk (t.start p) p.parts = .ok m := by
      have first' : t.walk (t.start p) parts = .ok goal := way.known _ h
      rw [show p.parts = parts ++ [part] from rfl, walk_append, first']
      exact (walk_singleton_congr (h.trans way.directory.symm) part).trans last
    rcases walk_singleton last down with rfl | ⟨name, rfl⟩
    · refine ⟨List.prefix_rfl, fun e he => there ?_⟩
      rw [he, ← way.kept m e he, way.directory]
    · refine ⟨List.prefix_append _ _, fun e he => there (closed goal name ?_)⟩
      rw [he]
      exact nofun
  unfold ensureDirectory at h
  split at h
  next made' =>
    cases h
    obtain ⟨m, located, new, rfl⟩ := makeDirectory_eq_ok made'
    have walked := (locate_eq_ok.mp located).2
    obtain ⟨on, -⟩ := step walked
    have fresh : t.lookup? m = none := by
      cases old : t.lookup? m with
      | none => rfl
      | some e => rw [way.kept m e old] at new; cases new
    have deep : m ≠ [] := ne_root_of_lookup? (by rw [new]; exact nofun)
    have grows := (way.toGrows.mono on).put (e := .directory) fresh fun _ => List.prefix_rfl
    refine ⟨m, grows, ?_, by rw [lookup?_put deep, if_pos rfl], ?_⟩
    · refine walk_mono (fun l hl => ?_) (same ▸ walked)
      have other : l ≠ m := by
        rintro rfl
        rw [new] at hl
        cases hl
      rwa [lookup?_put deep, if_neg other]
    · intro e he
      rw [fresh] at he
      cases he
  next f failed =>
    split at h
    next there =>
      cases h
      obtain ⟨m, located, directory⟩ := isDirectory_iff.mp there
      have walked := (locate_eq_ok.mp located).2
      obtain ⟨on, known⟩ := step walked
      exact ⟨m, way.toGrows.mono on, same ▸ walked, directory, known⟩
    next => cases h

theorem checkText_ne_missing (text : String) : checkText text ≠ .error .missing := by
  unfold checkText
  split
  next => exact nofun
  next =>
    split
    next => exact nofun
    next => split <;> exact nofun

/-- Where a directory is, none is made, and the fault is not that something is missing. -/
theorem makeDirectory_of_directory {p : Pathname} {l : Location}
    (walked : t.walk (t.start p) p.parts = .ok l) (there : t.lookup? l = some .directory) :
    ∃ f, t.makeDirectory p = .error f ∧ f ≠ .missing := by
  rw [makeDirectory]
  cases located : t.locate p with
  | error f =>
    refine ⟨f, rfl, ?_⟩
    rintro rfl
    rw [locate] at located
    cases text : checkText p.text with
    | error f =>
      rw [text] at located
      cases located
      exact checkText_ne_missing p.text text
    | ok _ =>
      rw [text] at located
      cases walked.symm.trans located
  | ok m =>
    cases walked.symm.trans (locate_eq_ok.mp located).2
    exact ⟨.taken, by simp [bind, Except.bind, there], nofun⟩

theorem ensureParts_hasWay (closed : t.IsClosed) {slashes : Nat} {l : Location}
    {known rest : List String} (straight : LeadsDown t ⟨slashes, known ++ rest⟩ l known rest)
    {n : Nat} (h : t.ensureParts slashes n (known ++ rest).reverse = .ok t') :
    ∃ goal, HasWay t t' ⟨slashes, known ++ rest⟩ goal := by
  -- on the parts from the last one on, as the directories are made
  induction rest using List.reverseRecOn generalizing n t' with
  | nil =>
    rw [List.append_nil] at h straight ⊢
    have walked : t.walk (t.start ⟨slashes, known⟩) known = .ok l := straight.walked
    have here : HasWay t t ⟨slashes, known⟩ l :=
      ⟨.refl t l, walked, straight.directory, fun _ _ => walked⟩
    cases hk : known.reverse with
    | nil =>
      rw [hk] at h
      cases n <;> exact ⟨l, Except.ok.inj h ▸ here⟩
    | cons part outer =>
      have back : (part :: outer).reverse = known := by rw [← hk, List.reverse_reverse]
      rw [hk] at h
      cases n with
      | zero => cases h
      | succ n =>
        obtain ⟨f, refused, other⟩ := makeDirectory_of_directory walked straight.directory
        unfold ensureParts at h
        simp only [back, refused] at h
        split at h
        next =>
          cases h
          exact ⟨l, here⟩
        next => cases h
  | append_singleton rest part ih =>
    rw [← List.append_assoc] at h straight ⊢
    rw [List.reverse_append, List.reverse_singleton, List.singleton_append] at h
    cases n with
    | zero => cases h
    | succ n =>
      have back : (part :: (known ++ rest).reverse).reverse = known ++ rest ++ [part] := by simp
      unfold ensureParts at h
      simp only [back] at h
      split at h
      next made => exact hasWay_of_makeDirectory (Except.ok.inj h ▸ made)
      next =>
        cases outer : t.ensureParts slashes n (known ++ rest).reverse with
        | error f =>
          rw [outer] at h
          cases h
        | ok made =>
          rw [outer] at h
          have down := straight.down
          rw [List.mem_append, List.mem_singleton, not_or] at down
          obtain ⟨goal, way⟩ := ih ⟨rfl, straight.walked, straight.directory, down.1⟩ outer
          exact way.descend closed (Ne.symm down.2) h
      next =>
        split at h
        next there =>
          cases h
          exact hasWay_of_isDirectory there
        next => cases h

/-- With what is made on the way to a directory, a name behind it leads to something old only if it
did so before. -/
theorem HasWay.walk_of_lookup? {p : Pathname} {goal m : Location} {first : String}
    {rest : List String} (closed : t.IsClosed) (way : HasWay t t' p goal)
    (plain : first ≠ "" ∧ first ≠ "." ∧ first ≠ "..")
    (walked : t'.walk (t.start p) (p.parts ++ first :: rest) = .ok m)
    (old : t.lookup? m ≠ none) : t.walk (t.start p) (p.parts ++ first :: rest) = .ok m := by
  by_cases there : t.lookup? goal = none
  · -- the goal is new, and nothing old is in it
    exfalso
    rw [walk_append, way.walked] at walked
    have inside : t'.walk goal (first :: rest) = .ok m := walked
    have empty (name : String) : t.lookup? (goal ++ [name]) = none := by
      by_cases h : t.lookup? (goal ++ [name]) = none
      · exact h
      · rw [closed goal name h] at there
        cases there
    rw [walk, way.directory] at inside
    simp only [plain.1, plain.2.1, plain.2.2, or_self, if_false] at inside
    split at inside
    next => cases inside
    next =>
      cases rest with
      | nil =>
        cases inside
        exact old (empty _)
      | cons piece rest =>
        rw [walk] at inside
        split at inside
        next => cases inside
        next => cases inside
        next directory =>
          rcases way.directories _ directory with same | on
          · rw [empty] at same
            cases same
          · exact absurd on.length_le (by simp)
  · -- no directory is new
    obtain ⟨e, he⟩ := Option.ne_none_iff_exists'.mp there
    have goalThere : t.lookup? goal = some .directory := by
      rw [he, ← way.kept goal e he, way.directory]
    refine walk_mono (fun l hl => ?_) walked
    rcases way.directories l hl with same | on
    · exact same
    · exact closed.directory_of_prefix on goalThere

/-- The other tree differs only in directories that are new. -/
structure AddsDirectories (t t' : FileTree) : Prop where
  here : t'.here = t.here
  lookup? : ∀ m, t'.lookup? m = t.lookup? m ∨
    t.lookup? m = none ∧ t'.lookup? m = some .directory

theorem AddsDirectories.refl (t : FileTree) : AddsDirectories t t := ⟨rfl, fun _ => Or.inl rfl⟩

theorem AddsDirectories.trans {t'' : FileTree} (h : AddsDirectories t t')
    (h' : AddsDirectories t' t'') : AddsDirectories t t'' := by
  refine ⟨h'.here.trans h.here, fun m => ?_⟩
  rcases h'.lookup? m with same | ⟨none, new⟩
  · rw [same]
    exact h.lookup? m
  · rcases h.lookup? m with same | ⟨-, there⟩
    · exact Or.inr ⟨same ▸ none, new⟩
    · rw [none] at there
      cases there

/-- New directories change no file. -/
theorem AddsDirectories.file_iff (h : AddsDirectories t t') {m : Location} {content : ByteArray} :
    t'.lookup? m = some (.file content) ↔ t.lookup? m = some (.file content) := by
  rcases h.lookup? m with same | ⟨none, new⟩
  · rw [same]
  · rw [none, new]
    exact ⟨nofun, nofun⟩

theorem addsDirectories_of_makeDirectory {p : Pathname} (h : t.makeDirectory p = .ok t') :
    AddsDirectories t t' := by
  obtain ⟨l, -, new, rfl⟩ := makeDirectory_eq_ok h
  have deep : l ≠ [] := ne_root_of_lookup? (by rw [new]; exact nofun)
  refine ⟨rfl, fun m => ?_⟩
  rw [lookup?_put deep]
  split
  next same => exact Or.inr ⟨same ▸ new, rfl⟩
  next => exact Or.inl rfl

theorem addsDirectories_of_ensureDirectory {p : Pathname} (h : t.ensureDirectory p = .ok t') :
    AddsDirectories t t' := by
  unfold ensureDirectory at h
  split at h
  next made => exact addsDirectories_of_makeDirectory (Except.ok.inj h ▸ made)
  next =>
    split at h
    next =>
      cases h
      exact .refl t
    next => cases h

theorem addsDirectories_of_ensureParts {slashes n : Nat} {parts : List String}
    (h : t.ensureParts slashes n parts = .ok t') : AddsDirectories t t' := by
  induction parts generalizing n t' with
  | nil =>
    cases n <;> exact Except.ok.inj h ▸ .refl t
  | cons part outer ih =>
    cases n with
    | zero => cases h
    | succ n =>
      unfold ensureParts at h
      simp only at h
      split at h
      next made => exact addsDirectories_of_makeDirectory (Except.ok.inj h ▸ made)
      next =>
        cases made : t.ensureParts slashes n outer with
        | error f =>
          rw [made] at h
          cases h
        | ok between =>
          rw [made] at h
          exact (ih made).trans (addsDirectories_of_ensureDirectory h)
      next =>
        split at h
        next =>
          cases h
          exact .refl t
        next => cases h

/-- A text is written where no directory is, or nothing is changed. -/
theorem write_cases (t : FileTree) (p : Pathname) (text : String) :
    (∃ f, t.write p text = (t, .error f)) ∨
      ∃ l content, t.locate p = .ok l ∧ t.lookup? l ≠ some .directory ∧
        (t.write p text).1 = t.put l (.file content) ∧
        ((t.write p text).2 = .ok () → content = encodeText text) := by
  rw [write]
  simp only [writeBytes]
  cases located : t.locate p with
  | error f => exact Or.inl ⟨_, rfl⟩
  | ok l =>
    simp only
    split
    next f failed =>
      split at failed
      next => exact Or.inl ⟨_, rfl⟩
      next => cases failed
    next made =>
      split at made
      next => cases made
      next other =>
        cases made
        cases whole : encodingFault? text with
        | some f => exact Or.inr ⟨l, .empty, rfl, other, rfl, nofun⟩
        | none => exact Or.inr ⟨l, encodeText text, rfl, other, rfl, fun _ => rfl⟩

end FileTree

end Gatehouse
