import Gatehouse.Proofs.CompletionEffect
import Gatehouse.Proofs.ResolutionForm

namespace Gatehouse

def choiceLines (first second : String) (a b c : List String) : List String :=
  ["    if " ++ first] ++ a.map GuardedBlock.setLine ++ ["    elsif " ++ second]
    ++ b.map GuardedBlock.setLine ++ ["    else"] ++ c.map GuardedBlock.setLine ++ ["    end", ""]

namespace Running

variable {truth : String → Bool} {r : Running}

/-- Of three parts the first one is run whose guard holds, or else the last one. -/
theorem run_choiceLines (active : r.isActive = true) (first second : String)
    (a b c : List String) :
    r.run (fun _ => truth) (choiceLines first second a b c) =
      { r with fields := r.fields ++ if r.value (fun _ => truth) first then a
        else if r.value (fun _ => truth) second then b else c } := by
  have inside (fields : List String) :
      (Running.mk r.names (.taken :: r.arms) fields).isActive = true := by
    simpa [isActive] using active
  have waits (fields : List String) :
      (Running.mk r.names (.waiting :: r.arms) fields).isActive = false := by simp [isActive]
  have passed (fields : List String) :
      (Running.mk r.names (.past :: r.arms) fields).isActive = false := by simp [isActive]
  have value (fields : List String) (e : String) :
      (Running.mk r.names (.waiting :: r.arms) fields).value (fun _ => truth) e =
        r.value (fun _ => truth) e := rfl
  have closed (r : Running) : r.run (fun _ => truth) ["    end", ""] =
      { r with arms := r.arms.drop 1 } := by
    simp [run, Line.ofText_end, Line.ofText_blank, step]
  have one (r : Running) (line : String) :
      r.run (fun _ => truth) [line] = r.step (fun _ => truth) (Line.ofText line) := rfl
  simp only [choiceLines, run_append, one, Line.ofText_if, Line.ofText_elsif, Line.ofText_else]
  rw [step, if_neg (by simp [active])]
  by_cases h : r.value (fun _ => truth) first = true
  · simp [h, step, run_setLines_of_active (inside _), run_setLines_of_not_active (passed _), closed]
  · by_cases k : r.value (fun _ => truth) second = true
    · simp [h, k, step, run_setLines_of_not_active (waits _), run_setLines_of_active (inside _),
        run_setLines_of_not_active (passed _), closed, value]
    · simp [h, k, step, run_setLines_of_not_active (waits _), run_setLines_of_active (inside _),
        closed, value]

end Running

namespace Line

theorem ofWords_question {name : List Char} (plain : ' ' ∉ name) (e : List Char) :
    ofWords ("is_".toList ++ (name ++ (" = ".toList ++ e))) =
      assign (String.ofList ("is_".toList ++ name)) (String.ofList e) := by
  have notWord (rest : List Char) : "is_".toList ++ rest ≠ "else".toList ∧
      "is_".toList ++ rest ≠ "end".toList := by
    refine ⟨?_, ?_⟩
    · intro eq
      cases (List.cons.inj eq).1
    · intro eq
      cases (List.cons.inj eq).1
  have notIf (rest : List Char) : ("is_".toList ++ rest).dropPrefix? "if ".toList = none := rfl
  have notUnless (rest : List Char) :
      ("is_".toList ++ rest).dropPrefix? "unless ".toList = none := rfl
  have notElsif (rest : List Char) :
      ("is_".toList ++ rest).dropPrefix? "elsif ".toList = none := rfl
  have notFields (rest : List Char) :
      ("is_".toList ++ rest).dropPrefix? "fields[\"".toList = none := rfl
  have letters : ∀ c ∈ "is_".toList ++ name, (c != ' ') = true := by
    intro c hc
    rw [bne_iff_ne]
    rintro rfl
    exact (List.mem_append.mp hc).elim (by decide) plain
  have named : ("is_".toList ++ (name ++ (" = ".toList ++ e))).takeWhile (· != ' ') =
      "is_".toList ++ name := by
    rw [← List.append_assoc, List.takeWhile_append_of_pos letters]
    exact List.append_nil _
  have value : (("is_".toList ++ (name ++ (" = ".toList ++ e))).dropWhile
      (· != ' ')).dropPrefix? " = ".toList = some e := by
    rw [← List.append_assoc, List.dropWhile_append_of_pos letters]
    exact List.dropPrefix?_append_of_beq _ (beq_self_eq_true _)
  simp only [ofWords, if_neg (notWord _).1, if_neg (notWord _).2, notIf, notUnless, notElsif,
    notFields, Option.bind_none, value, named]

theorem ofText_question {name : String} (plain : ' ' ∉ name.toList) (e : String) :
    ofText ("    is_" ++ name ++ " = " ++ e) = assign ("is_" ++ name) e := by
  have words : ofText ("    is_" ++ name ++ " = " ++ e) =
      ofWords ("is_".toList ++ (name.toList ++ (" = ".toList ++ e.toList))) := by
    rw [ofText, String.toList_append, String.toList_append, String.toList_append,
      List.append_assoc, List.append_assoc]
    rfl
  rw [words, ofWords_question plain, String.ofList_append, String.ofList_toList,
    String.ofList_toList, String.ofList_toList]

theorem ofText_isHomeSchool (e : String) :
    ofText ("    is_home_school = " ++ e) = assign "is_home_school" e := by
  have plain : ' ' ∉ "home_school".toList := by decide
  exact ofText_question plain e

theorem ofText_isNonPartner (e : String) :
    ofText ("    is_non_partner = " ++ e) = assign "is_non_partner" e := by
  have plain : ' ' ∉ "non_partner".toList := by decide
  exact ofText_question plain e

end Line
/-- Whether a class asks in place or keeps the answers in variables, it chooses the same fields. -/
theorem fieldsSet_schoolLines (p : Profile) (truth : String → Bool) :
    fieldsSet truth p.schoolLines =
      if truth homeSchoolPredicate then p.homeSchoolFields
      else if truth nonPartnerPredicate then p.nonPartnerFields else p.partnerFields := by
  cases asks : p.asksInPlace with
  | true =>
    have lines : p.schoolLines = ["    # Set high school type"] ++ choiceLines homeSchoolPredicate
        nonPartnerPredicate p.homeSchoolFields p.nonPartnerFields p.partnerFields := by
      simp [Profile.schoolLines, choiceLines, asks]
    have head : Running.start.run (fun _ => truth) ["    # Set high school type"] =
        Running.start := by
      rw [Running.run_cons, Line.ofText_remarkChars]
      rfl
    rw [fieldsSet, lines, Running.run_append, head, Running.run_choiceLines rfl]
    rfl
  | false =>
    have lines : p.schoolLines =
        ["    # Home school, non-partner and partner high school paths are mutually exclusive",
          "    is_home_school = " ++ homeSchoolPredicate,
          "    is_non_partner = " ++ nonPartnerPredicate, ""]
        ++ choiceLines "is_home_school" "is_non_partner" p.homeSchoolFields p.nonPartnerFields
          p.partnerFields := by
      simp [Profile.schoolLines, choiceLines, asks]
    have head : Running.start.run (fun _ => truth)
        ["    # Home school, non-partner and partner high school paths are mutually exclusive",
          "    is_home_school = " ++ homeSchoolPredicate,
          "    is_non_partner = " ++ nonPartnerPredicate, ""] =
        ⟨[("is_non_partner", truth nonPartnerPredicate),
          ("is_home_school", truth homeSchoolPredicate)], [], []⟩ := by
      have remark : Line.ofText
          "    # Home school, non-partner and partner high school paths are mutually exclusive" =
          .idle := Line.ofText_remarkChars _
      simp only [Running.run_cons, remark, Line.ofText_isHomeSchool, Line.ofText_isNonPartner,
        Line.ofText_blank]
      rfl
    rw [fieldsSet, lines, Running.run_append, head, Running.run_choiceLines rfl]
    rfl

/-- The answers about a school fix what the three kinds of school stand for; all else is free. -/
def schoolTruth (home nonPartner : Bool) (atoms : String → Bool) (e : String) : Bool :=
  if e = KnownCondition.homeSchool.expression then home
  else if e = KnownCondition.nonPartner.expression then nonPartner
  else if e = KnownCondition.partnerHighSchool.expression then !home && !nonPartner
  else atoms e

/-- The path for a school: a home school comes before a school without agreement. -/
def schoolPath (home nonPartner : Bool) : String :=
  if home then "home_school" else if nonPartner then "non_partner" else "high_school"

def Profile.chosenPath? (p : Profile) (truth : String → Bool) : Option String :=
  schoolNames.find? (· ∈ fieldsSet truth p.schoolLines)

section
variable {home nonPartner : Bool} {atoms : String → Bool}

theorem schoolTruth_homeSchool :
    schoolTruth home nonPartner atoms KnownCondition.homeSchool.expression = home := if_pos rfl

theorem schoolTruth_nonPartner :
    schoolTruth home nonPartner atoms KnownCondition.nonPartner.expression = nonPartner := by
  rw [schoolTruth, if_neg (by decide)]
  exact if_pos rfl

theorem schoolTruth_partnerHighSchool :
    schoolTruth home nonPartner atoms KnownCondition.partnerHighSchool.expression =
      (!home && !nonPartner) := by
  rw [schoolTruth, if_neg (by decide), if_neg (by decide)]
  exact if_pos rfl

/-- Of the three kinds of school the chosen one is true; only that without agreement may be true
beside it. -/
theorem schoolTruth_iff {s : String × KnownCondition} (hs : s ∈ schoolPartition) :
    schoolTruth home nonPartner atoms s.2.expression = true ↔
      s.1 = schoolPath home nonPartner ∨
        s.1 = "non_partner" ∧ home = true ∧ nonPartner = true := by
  simp only [schoolPartition, List.mem_cons, List.not_mem_nil, or_false] at hs
  rcases hs with rfl | rfl | rfl
  · rw [schoolTruth_partnerHighSchool]
    cases home <;> cases nonPartner <;> decide
  · rw [schoolTruth_homeSchool]
    cases home <;> cases nonPartner <;> decide
  · rw [schoolTruth_nonPartner]
    cases home <;> cases nonPartner <;> decide

end

theorem schoolPath_mem (home nonPartner : Bool) :
    ∃ s ∈ schoolPartition, s.1 = schoolPath home nonPartner := by
  cases home <;> cases nonPartner <;> decide

theorem chosenPath?_schoolTruth (target : Target) (home nonPartner : Bool)
    (atoms : String → Bool) :
    (Profile.ofTarget target).chosenPath? (schoolTruth home nonPartner atoms) =
      some (schoolPath home nonPartner) := by
  simp only [Profile.chosenPath?, fieldsSet_schoolLines, homeSchoolPredicate, nonPartnerPredicate,
    schoolTruth_homeSchool, schoolTruth_nonPartner]
  cases target <;> cases home <;> cases nonPartner <;> decide

def HasSchoolExpressions (compiled : Keyed Compiled) : Prop :=
  ∀ s ∈ schoolPartition, ∀ c, compiled.get? s.1 = some c → c.expression = s.2.expression

/-- One step for each kind of school, beside a condition that gates none. -/
def threeSchools : Workflow where
  conditions := .ofList [("minor", ⟨"minor", none, none, none, none, .null, ["minor"], .empty⟩)]
  steps := [gatedStep "Roster" "high_school", gatedStep "Affidavit" "home_school",
    gatedStep "MOU" "non_partner"]
  extra := .empty

theorem resolve_threeSchools : ∃ r, (resolve Heuristic.defaults threeSchools
      (Profile.studentTerm.selectSteps threeSchools) .studentTerm).outcome = .ok r ∧
    r.compiled.entries =
      schoolPartition.map (fun s => (s.1, compiledAs s.1 s.2.expression [s.1])) ∧
    r.states.entries = [("high_school", ["roster_complete"]),
      ("home_school", ["affidavit_complete"]), ("non_partner", ["mou_complete"])] := by
  obtain ⟨r, resolved, eq⟩ := exists_ok_of_map
    (f := fun r => (r.compiled.entries, r.states.entries))
    (x := (resolve Heuristic.defaults threeSchools
      (Profile.studentTerm.selectSteps threeSchools) .studentTerm).outcome)
    (b := (schoolPartition.map fun s => (s.1, compiledAs s.1 s.2.expression [s.1]),
        [("high_school", ["roster_complete"]), ("home_school", ["affidavit_complete"]),
          ("non_partner", ["mou_complete"])])) (by decide +kernel)
  obtain ⟨compiled, states⟩ := Prod.mk.inj eq
  exact ⟨r, resolved, compiled, states⟩

end Gatehouse
