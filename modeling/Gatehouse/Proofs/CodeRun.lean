import Gatehouse.Initializer.Completion
import Mathlib.Data.List.Basic

namespace Gatehouse

/-- What a line of a class says. -/
inductive Line where
  | idle
  | guard (negated : Bool) (predicate : String)
  | orGuard (predicate : String)
  | otherwise
  | close
  | set (field : String)
  | assign (name predicate : String)
  deriving DecidableEq

namespace Line

def ofWords (cs : List Char) : Line :=
  if cs = "else".toList then otherwise
  else if cs = "end".toList then close
  else match cs.dropPrefix? "if ".toList with
  | some e => guard false (String.ofList e)
  | none => match cs.dropPrefix? "unless ".toList with
  | some e => guard true (String.ofList e)
  | none => match cs.dropPrefix? "elsif ".toList with
  | some e => orGuard (String.ofList e)
  | none => match (cs.dropPrefix? "fields[\"".toList).bind (·.dropSuffix? "\"] = true".toList) with
  | some field => set (String.ofList field)
  | none => match (cs.dropWhile (· != ' ')).dropPrefix? " = ".toList with
  | some e => assign (String.ofList (cs.takeWhile (· != ' '))) (String.ofList e)
  | none => idle

/-- Remarks and blank lines say nothing; the depth of a line does not count. -/
def ofText (line : String) : Line :=
  let cs := line.toList.dropWhile (· == ' ')
  if cs.head? = some '#' then idle else ofWords cs

theorem ofText_blank : ofText "" = idle := rfl

theorem ofText_remark (s : String) : ofText ("    # " ++ s) = idle := by
  simp [ofText]

theorem ofText_remarkChars (cs : List Char) :
    ofText (String.ofList (' ' :: ' ' :: ' ' :: ' ' :: '#' :: cs)) = idle := by
  simp [ofText]

theorem ofText_if (e : String) : ofText ("    if " ++ e) = guard false e := by
  simp [ofText, ofWords, List.dropPrefix?]

theorem ofText_unless (e : String) : ofText ("    unless " ++ e) = guard true e := by
  simp [ofText, ofWords, List.dropPrefix?]

theorem ofText_elsif (e : String) : ofText ("    elsif " ++ e) = orGuard e := by
  simp [ofText, ofWords, List.dropPrefix?]

theorem ofText_else : ofText "    else" = otherwise := by decide

theorem ofText_end : ofText "    end" = close := by decide

theorem ofWords_fields {cs field : List Char}
    (h : cs.dropSuffix? "\"] = true".toList = some field) :
    ofWords ("fields[\"".toList ++ cs) = set (String.ofList field) := by
  have opened : ("fields[\"".toList ++ cs).dropPrefix? "fields[\"".toList = some cs := by
    rw [List.dropPrefix?_append_of_beq _ (beq_self_eq_true _)]
  have notElse : "fields[\"".toList ++ cs ≠ "else".toList := by
    intro eq
    cases (List.cons.inj eq).1
  have notEnd : "fields[\"".toList ++ cs ≠ "end".toList := by
    intro eq
    cases (List.cons.inj eq).1
  have notIf : ("fields[\"".toList ++ cs).dropPrefix? "if ".toList = none := rfl
  have notUnless : ("fields[\"".toList ++ cs).dropPrefix? "unless ".toList = none := rfl
  have notElsif : ("fields[\"".toList ++ cs).dropPrefix? "elsif ".toList = none := rfl
  simp only [ofWords, if_neg notElse, if_neg notEnd, notIf, notUnless, notElsif, opened,
    Option.bind_some, h]

theorem ofText_setLine (field : String) : ofText (GuardedBlock.setLine field) = set field := by
  have suffix : (field.toList ++ "\"] = true".toList).dropSuffix? "\"] = true".toList =
      some field.toList := List.dropSuffix?_eq_some_iff.mpr ⟨_, rfl, by simp⟩
  have words : ofText (GuardedBlock.setLine field) =
      ofWords ("fields[\"".toList ++ (field.toList ++ "\"] = true".toList)) := by
    rw [ofText, GuardedBlock.toList_setLine]
    rfl
  rw [words, ofWords_fields suffix, String.ofList_toList]
end Line

/-- How a choice that is open stands: its part is run, a later part may be, or none will be. -/
inductive Arm where
  | taken
  | waiting
  | past
  deriving DecidableEq

/-- A class while it runs: its variables, the choices that are open, and the fields that are
set. -/
structure Running where
  names : List (String × Bool)
  arms : List Arm
  fields : List String

namespace Running

def start : Running := ⟨[], [], []⟩

def isActive (r : Running) : Bool := r.arms.all (· == .taken)

/-- A variable has the value that it was given; the truth of all else may depend on the fields. -/
def value (truth : List String → String → Bool) (r : Running) (e : String) : Bool :=
  (r.names.lookup e).getD (truth r.fields e)

def step (truth : List String → String → Bool) (r : Running) : Line → Running
  | .idle => r
  | .guard negated e =>
    let arm := if !r.isActive then .past
      else if r.value truth e != negated then .taken else .waiting
    { r with arms := arm :: r.arms }
  | .orGuard e =>
    match r.arms with
    | .waiting :: rest =>
      { r with arms := (if r.value truth e then .taken else .waiting) :: rest }
    | _ :: rest => { r with arms := .past :: rest }
    | [] => r
  | .otherwise =>
    match r.arms with
    | .waiting :: rest => { r with arms := .taken :: rest }
    | _ :: rest => { r with arms := .past :: rest }
    | [] => r
  | .close => { r with arms := r.arms.drop 1 }
  | .set field => if r.isActive then { r with fields := r.fields ++ [field] } else r
  | .assign name e =>
    if r.isActive then { r with names := (name, r.value truth e) :: r.names } else r

def run (truth : List String → String → Bool) (r : Running) (lines : List String) : Running :=
  lines.foldl (fun r line => r.step truth (Line.ofText line)) r

variable {truth : List String → String → Bool} {r : Running}

theorem run_append (lines more : List String) :
    r.run truth (lines ++ more) = (r.run truth lines).run truth more := List.foldl_append

theorem run_cons (line : String) (rest : List String) :
    r.run truth (line :: rest) = (r.step truth (Line.ofText line)).run truth rest := rfl

theorem run_setLines_of_active (active : r.isActive = true) (fields : List String) :
    r.run truth (fields.map GuardedBlock.setLine) = { r with fields := r.fields ++ fields } := by
  induction fields generalizing r with
  | nil => simp [run]
  | cons field rest ih =>
    rw [List.map_cons, run_cons, Line.ofText_setLine, step, if_pos active, ih (by exact active)]
    simp

theorem run_setLines_of_not_active (active : r.isActive = false) (fields : List String) :
    r.run truth (fields.map GuardedBlock.setLine) = r := by
  induction fields generalizing r with
  | nil => rfl
  | cons field rest ih =>
    rw [List.map_cons, run_cons, Line.ofText_setLine, step, if_neg (by simp [active]), ih active]

end Running

def GuardedBlock.isTaken (b : GuardedBlock) (truth : String → Bool) : Bool :=
  truth b.predicate != b.negated

theorem Line.ofText_guard (b : GuardedBlock) :
    ofText ("    " ++ b.guardWord ++ " " ++ b.predicate) = guard b.negated b.predicate := by
  cases h : b.negated with
  | false => simpa [GuardedBlock.guardWord, h, String.append_assoc] using ofText_if b.predicate
  | true => simpa [GuardedBlock.guardWord, h, String.append_assoc] using ofText_unless b.predicate

namespace Running

variable {truth : List String → String → Bool} {r : Running}

/-- A block sets its fields if its guard lets it, and leaves no choice open. -/
theorem run_block (active : r.isActive = true) (b : GuardedBlock) :
    r.run truth b.lines = if b.isTaken (r.value truth) then
      { r with fields := r.fields ++ b.fields } else r := by
  have close (r : Running) : r.run truth ["    end", ""] = { r with arms := r.arms.drop 1 } := by
    simp [run, Line.ofText_end, Line.ofText_blank, step]
  have opened : r.run truth ["    # " ++ b.remark, "    " ++ b.guardWord ++ " " ++ b.predicate] =
      { r with arms := (if b.isTaken (r.value truth) then .taken else .waiting) :: r.arms } := by
    rw [run_cons, run_cons, Line.ofText_remark, Line.ofText_guard]
    simp [run, step, active, GuardedBlock.isTaken]
  rw [GuardedBlock.lines, run_append, run_append, opened, close]
  by_cases taken : b.isTaken (r.value truth) = true
  · have inside : (Running.mk r.names (.taken :: r.arms) r.fields).isActive = true := by
      simpa [isActive] using active
    simp only [if_pos taken, run_setLines_of_active inside, List.drop_one, List.tail_cons]
  · have inside : (Running.mk r.names (.waiting :: r.arms) r.fields).isActive = false := by
      simp [isActive]
    simp only [if_neg taken, run_setLines_of_not_active inside, List.drop_one, List.tail_cons]

end Running

def setBy (truth : String → Bool) (blocks : List GuardedBlock) : List String :=
  blocks.flatMap fun b => if b.isTaken truth then b.fields else []

theorem mem_setBy {truth : String → Bool} {blocks : List GuardedBlock} {field : String} :
    field ∈ setBy truth blocks ↔ ∃ b ∈ blocks, b.isTaken truth = true ∧ field ∈ b.fields := by
  simp only [setBy, List.mem_flatMap]
  constructor
  · rintro ⟨b, hb, hf⟩
    split at hf
    next taken => exact ⟨b, hb, taken, hf⟩
    next => cases hf
  · rintro ⟨b, hb, taken, hf⟩
    exact ⟨b, hb, by rwa [if_pos taken]⟩

theorem Running.run_blocks (truth : String → Bool) {r : Running} (active : r.isActive = true)
    (blocks : List GuardedBlock) :
    r.run (fun _ => truth) (blocks.flatMap GuardedBlock.lines) =
      { r with fields := r.fields ++ setBy (r.value fun _ => truth) blocks } := by
  induction blocks generalizing r with
  | nil => simp [run, setBy]
  | cons b rest ih =>
    rw [List.flatMap_cons, run_append, run_block active]
    by_cases taken : b.isTaken (r.value fun _ => truth) = true
    · rw [if_pos taken, ih (by exact active)]
      simp only [setBy, List.flatMap_cons, if_pos taken, List.append_assoc]
      rfl
    · rw [if_neg taken, ih active]
      simp only [setBy, List.flatMap_cons, if_neg taken, List.nil_append]

/-- The fields that a piece of a class sets, when it is run for itself. -/
def fieldsSet (truth : String → Bool) (lines : List String) : List String :=
  (Running.start.run (fun _ => truth) lines).fields

def headedLines (heading : String) (blocks : List GuardedBlock) : List String :=
  if blocks.isEmpty then [] else ("    # " ++ heading) :: blocks.flatMap GuardedBlock.lines

theorem Running.run_headedLines (truth : String → Bool) {r : Running} (active : r.isActive = true)
    (heading : String) (blocks : List GuardedBlock) :
    r.run (fun _ => truth) (headedLines heading blocks) =
      { r with fields := r.fields ++ setBy (r.value fun _ => truth) blocks } := by
  cases blocks with
  | nil => simp [headedLines, run, setBy]
  | cons b rest =>
    rw [headedLines, if_neg (by simp), run_cons, Line.ofText_remark]
    exact run_blocks truth active (b :: rest)

theorem headedBlocks_eq_unlines (heading : String) (blocks : List GuardedBlock) :
    headedBlocks heading blocks = unlines (headedLines heading blocks) := by
  have texts (bs : List GuardedBlock) :
      String.join (bs.map GuardedBlock.text) = unlines (bs.flatMap GuardedBlock.lines) := by
    induction bs with
    | nil => rfl
    | cons b rest ih =>
      rw [List.map_cons, String.join_cons, ih, List.flatMap_cons, unlines_append]
      rfl
  unfold headedBlocks headedLines
  split
  next => rfl
  next => rw [texts, unlines_cons]

/-- The lines of a text; what follows the last line feed is one, too. -/
def linesOf (text : String) : List String :=
  (splitChars (· == '\n') text.toList).map String.ofList

theorem splitChars_append {sep : Char → Bool} {piece : List Char}
    (whole : ∀ c ∈ piece, sep c = false) {c : Char} (hc : sep c = true) (rest : List Char) :
    splitChars sep (piece ++ c :: rest) = piece :: splitChars sep rest := by
  induction piece with
  | nil => simp [splitChars, hc]
  | cons d piece ih =>
    have hd := whole d List.mem_cons_self
    rw [List.cons_append, splitChars, ih fun x hx => whole x (List.mem_cons_of_mem _ hx)]
    simp [hd]

/-- Lines before a text are read as these lines. -/
theorem linesOf_unlines_append {lines : List String} (oneLine : ∀ line ∈ lines, IsOneLine line)
    (rest : String) : linesOf (unlines lines ++ rest) = lines ++ linesOf rest := by
  induction lines with
  | nil => simp [unlines]
  | cons line more ih =>
    have ih := ih fun l hl => oneLine l (List.mem_cons_of_mem _ hl)
    have plain : ∀ c ∈ line.toList, (c == '\n') = false := by
      intro c hc
      rw [beq_eq_false_iff_ne]
      rintro rfl
      exact oneLine line List.mem_cons_self hc
    have chars : (unlines (line :: more) ++ rest).toList =
        line.toList ++ '\n' :: (unlines more ++ rest).toList := by
      simp [unlines_cons]
    rw [linesOf, chars, splitChars_append plain (by simp)]
    simpa [linesOf] using ih

/-- A text of lines is read as these lines. -/
theorem linesOf_unlines {lines : List String} (oneLine : ∀ line ∈ lines, IsOneLine line) :
    linesOf (unlines lines) = lines ++ [""] := by
  rw [← String.append_empty (s := unlines lines), linesOf_unlines_append oneLine]
  rfl

end Gatehouse
