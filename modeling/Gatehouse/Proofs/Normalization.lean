import Gatehouse.Proofs.LoadingFaults
import Gatehouse.Proofs.WorkflowRecord

namespace Gatehouse

namespace Value

def ofOption {α : Type} (write : α → Value) : Option α → Value
  | some a => write a
  | none => null

def ofTexts (xs : List String) : Value := list (xs.map text)

/-- A map with texts as keys. -/
def ofKeyed {α : Type} (write : α → Value) (m : Keyed α) : Value :=
  map (m.entries.map fun e => (text e.1, write e.2))

end Value

def Names.toValue : Names → Value
  | one name => .text name
  | many names => .ofTexts names

def StepId.toValue : StepId → Value
  | text s => .text s
  | number i => .int i

namespace Checked

theorem ofOptionalText_ofOption (s : Option String) :
    ofOptionalText (.ofOption .text s) = .valid s := by
  cases s <;> rfl

theorem ofTexts_ofTexts (xs : List String) : ofTexts (.ofTexts xs) = .valid xs :=
  ofItems_map .text fun _ _ => rfl

theorem ofNames_toValue (names : Option Names) :
    ofNames (.ofOption Names.toValue names) = .valid names := by
  match names with
  | none => rfl
  | some (.one name) => rfl
  | some (.many names) =>
    have list : ofTexts (.list (names.map .text)) = .valid names := ofTexts_ofTexts names
    simp only [Value.ofOption, Names.toValue, Value.ofTexts, ofNames, list]
    rfl

theorem ofStepId_toValue (id : Option StepId) :
    ofStepId (.ofOption StepId.toValue id) = .valid id := by
  match id with
  | none => rfl
  | some (.text s) => rfl
  | some (.number i) => rfl

theorem ofComments_ofKeyed (comments : Keyed Value) :
    ofComments (.ofKeyed (fun v => v) comments) = .valid comments := by
  have entries : sequence ((comments.entries.map fun e => (Value.text e.1, e.2)).map
      ofCommentEntry) = .valid comments.entries := by
    rw [sequence_eq_valid, List.map_map]
    rfl
  change (sequence _).map Keyed.ofList = _
  rw [map_eq_valid]
  exact ⟨_, entries, Keyed.ofList_entries comments⟩

end Checked

theorem text_recordEntries {fields : List (FieldName × Value)} {extra : Keyed Value}
    {f : FieldName} {s : Option String} (hf : AreFields (fields.map Prod.fst))
    (h : (f, .ofOption .text s) ∈ fields) : f.text (recordEntries fields extra) = .valid s :=
  check_recordEntries hf h (Checked.ofOptionalText_ofOption s)

namespace Condition

/-- A condition that has a name sets some field, and what stands beside its fields is apart from
them. -/
structure IsNormal (c : Condition) : Prop where
  fields : c.name ≠ "" → c.fields ≠ []
  extra : StandsBeside fieldNames c.extra

def record (c : Condition) : List (FieldName × Value) :=
  [(.of "name", .text c.name), (.of "entity", .ofOption .text c.entity),
    (⟨"property", "property_name"⟩, .ofOption .text c.property),
    (⟨"rubyMethod", "ruby_method"⟩, .ofOption .text c.rubyMethod),
    (.of "comparison", .ofOption .text c.comparison), (.of "value", c.value),
    (.of "fields", .ofTexts c.fields)]

/-- The condition with all its fields. -/
def toValue (c : Condition) : Value := .map (recordEntries c.record c.extra)

theorem areFields_fieldNames : AreFields fieldNames := by decide

theorem ofFields_record (c : Condition) (beside : StandsBeside fieldNames c.extra) :
    ofFields (recordEntries c.record c.extra) = .valid c := by
  have hf : AreFields (c.record.map Prod.fst) := areFields_fieldNames
  have extra : extraEntries fieldNames (recordEntries c.record c.extra) = .valid c.extra :=
    extraEntries_recordEntries hf beside
  have name : (FieldName.of "name").check (recordEntries c.record c.extra)
      (.faulty [⟨[.key "name"], .missing⟩]) Checked.ofText = .valid c.name :=
    check_recordEntries (v := .text c.name) hf (by simp [record]) rfl
  have value : (FieldName.of "value").check (recordEntries c.record c.extra) (.valid .null)
      .valid = .valid c.value := check_recordEntries (v := c.value) hf (by simp [record]) rfl
  have fields : (FieldName.of "fields").check (recordEntries c.record c.extra) (.valid [])
      Checked.ofTexts = .valid c.fields :=
    check_recordEntries (v := .ofTexts c.fields) hf (by simp [record])
      (Checked.ofTexts_ofTexts c.fields)
  rw [ofFields, name, text_recordEntries (s := c.entity) hf (by simp [record]),
    text_recordEntries (s := c.property) hf (by simp [record]),
    text_recordEntries (s := c.rubyMethod) hf (by simp [record]),
    text_recordEntries (s := c.comparison) hf (by simp [record]), value, fields, extra]
  rfl

theorem field?_record {c : Condition} {f : FieldName} {v : Value} (h : (f, v) ∈ c.record) :
    Value.field? f.main (recordEntries c.record c.extra) = some v :=
  field?_recordEntries areFields_fieldNames h

/-- A condition that is written with all its fields is read as it was. -/
theorem ofValue_toValue {c : Condition} (normal : c.IsNormal) : ofValue c.toValue = .valid c := by
  have unbroken : hasBrokenKey (recordEntries c.record c.extra) = false :=
    hasBrokenKey_recordEntries areFields_fieldNames normal.extra
  have name : Value.field? "name" (recordEntries c.record c.extra) = some (.text c.name) :=
    field?_record (f := .of "name") (by simp [record])
  have fields : Value.field? "fields" (recordEntries c.record c.extra) =
      some (.ofTexts c.fields) := field?_record (f := .of "fields") (by simp [record])
  have same : withDefaultFields (recordEntries c.record c.extra) =
      recordEntries c.record c.extra := by
    rw [withDefaultFields, fields, name]
    split
    next => rfl
    next untrue =>
      have empty : c.fields = [] := by simpa [Value.ofTexts, Value.isTrue] using untrue
      have unnamed : c.name = "" := Classical.not_not.mp fun named => normal.fields named empty
      refine Value.setField_of_field? (fields.trans ?_)
      rw [empty, unnamed]
      rfl
  change ofEntries _ = _
  rw [ofEntries, unbroken, same]
  exact ofFields_record c normal.extra

end Condition

theorem decodeText?_eq_empty {bs : List UInt8} {s : String}
    (h : decodeText? ⟨bs.toArray⟩ = some s) : s = "" ↔ bs = [] := by
  rw [decodeText?, String.fromUTF8?] at h
  split at h
  next valid =>
    cases Option.some.inj h
    have spelled (t : String) : spellText t = "" ↔ t = "" := by
      have long (n : Nat) : spellPoint n ≠ [] := by
        unfold spellPoint
        split
        next => simp
        next => split <;> simp
      rw [spellText, ← String.toList_eq_nil_iff, String.toList_ofList, spell,
        List.flatMap_eq_nil_iff, ← String.toList_eq_nil_iff]
      cases t.toList with
      | nil => simp
      | cons c rest => simp only [List.map_cons, List.forall_mem_cons, long, false_and, reduceCtorEq]
    rw [spelled, ← String.toByteArray_inj]
    change (⟨bs.toArray⟩ : ByteArray) = ByteArray.empty ↔ _
    exact ⟨congrArg fun b : ByteArray => b.data.toList, fun eq => by rw [eq]; rfl⟩
  next => cases h

theorem Value.isTrue_iff_of_ofText {v : Value} {s : String} (h : Checked.ofText v = .valid s) :
    v.isTrue = true ↔ s ≠ "" := by
  cases v with
  | text t =>
    cases h
    simp [isTrue]
  | bytes bs =>
    change Checked.ofBytes .stringUnicode bs = .valid s at h
    unfold Checked.ofBytes at h
    split at h
    next decoded =>
      cases h
      rw [ne_eq, decodeText?_eq_empty decoded]
      cases bs <;> simp [isTrue]
    next => cases h
  | _ => cases h

/-- A list or set is true if it has items. -/
theorem Value.isTrue_iff_of_items? {v : Value} {xs : List Value} (h : v.items? = some xs) :
    v.isTrue = true ↔ xs ≠ [] := by
  have inside (n : Nat) (whole : Value) (ys : List Value) :
      tieItems n whole ys = [] ↔ ys = [] := by
    cases ys <;> simp [tieItems]
  have shape : v.opened = list xs ∨ v.opened = set xs := by
    unfold items? at h
    split at h
    next eq => exact Or.inl (Option.some.inj h ▸ eq)
    next eq => exact Or.inr (Option.some.inj h ▸ eq)
    next => cases h
  cases v with
  | list ys => simp_all [opened, isTrue]
  | set ys => simp_all [opened, isTrue]
  | knot n u =>
    cases u with
    | list ys =>
      have tied : tieItems n (knot n (list ys)) ys = xs := by simpa [opened, tie] using shape
      simp [isTrue, ← tied, inside]
    | set ys =>
      have tied : tieItems n (knot n (set ys)) ys = xs := by simpa [opened, tie] using shape
      simp [isTrue, ← tied, inside]
    | knot m w =>
      rw [opened, tie] at shape
      split at shape <;> simp at shape
    | again m isMap =>
      rw [opened, tie] at shape
      split at shape <;> simp at shape
    | _ => simp [opened, tie] at shape
  | _ => simp [opened] at shape

theorem Checked.ofTexts_eq_valid {v : Value} {xs : List String} (h : ofTexts v = .valid xs) :
    v.isTrue = true ↔ xs ≠ [] := by
  unfold ofTexts at h
  split at h
  next items found =>
    rw [Value.isTrue_iff_of_items? found, ne_eq, ne_eq, ← List.length_eq_zero_iff,
      ← List.length_eq_zero_iff, length_ofItems h]
  next => cases h

theorem FieldName.field?_of_check {α : Type} {name : String} {entries : List (Value × Value)}
    {issues : List Issue} {reader : Value → Checked α} {a : α}
    (h : (FieldName.of name).check entries (.faulty issues) reader = .valid a) :
    ∃ v, Value.field? name entries = some v ∧ reader v = .valid a := by
  unfold check at h
  split at h
  next key v given =>
    refine ⟨v, ?_, Checked.within_eq_valid.mp h⟩
    cases found : Value.field? name entries with
    | none => simp [given?, of, found] at given
    | some u =>
      rw [given?_of_main found] at given
      exact congrArg some (Prod.mk.inj (Option.some.inj given)).2
  next => cases h

/-- If a condition has a name, then it is read with some field. -/
theorem Condition.field?_withDefaultFields (entries : List (Value × Value)) :
    ∃ fields, Value.field? "fields" (withDefaultFields entries) = some fields ∧
      (((Value.field? "name" entries).getD .null).isTrue = true → fields.isTrue = true) := by
  unfold withDefaultFields
  split
  next given =>
    cases found : Value.field? "fields" entries with
    | none =>
      rw [found] at given
      cases given
    | some fields =>
      rw [found] at given
      exact ⟨fields, rfl, fun _ => given⟩
  next =>
    simp only [Value.field?_setField, if_pos]
    refine ⟨_, rfl, fun named => ?_⟩
    rw [if_pos named]
    rfl

theorem Condition.isNormal_of_ofEntries {entries : List (Value × Value)} {c : Condition}
    (h : ofEntries entries = .valid c) : c.IsNormal ∧
      ∃ v, Value.field? "name" entries = some v ∧ Checked.ofText v = .valid c.name := by
  unfold ofEntries at h
  split at h
  next => cases h
  next unbroken =>
    simp only [ofFields, Checked.seq_eq_valid, Checked.fmap_eq_valid] at h
    obtain ⟨_, extra, ⟨_, fields, ⟨_, _, ⟨_, _, ⟨_, _, ⟨_, _, ⟨_, _, ⟨name, named, rfl⟩, _, rfl⟩, _,
      rfl⟩, _, rfl⟩, _, rfl⟩, _, rfl⟩, listed, rfl⟩, beside, rfl⟩ := h
    have kept : hasBrokenKey (withDefaultFields entries) = false := by
      have whole : hasBrokenKey entries = false := Bool.eq_false_iff.mpr unbroken
      rw [withDefaultFields]
      split
      next => exact whole
      next => exact hasBrokenKey_setField _ (by decide) whole
    obtain ⟨v, given, read⟩ := FieldName.field?_of_check named
    have own : Value.field? "name" entries = some v := by
      rw [← given, withDefaultFields]
      split
      next => rfl
      next => simp [Value.field?_setField]
    obtain ⟨u, found, filled⟩ := field?_withDefaultFields entries
    refine ⟨⟨fun named => ?_, standsBeside_of_extraEntries kept beside⟩, v, own, read⟩
    rw [own] at filled
    rw [FieldName.check, FieldName.given?_of_main found, Checked.within_eq_valid] at listed
    exact (Checked.ofTexts_eq_valid listed).mp (filled ((Value.isTrue_iff_of_ofText read).mpr named))

namespace Step

def record (s : Step) : List (FieldName × Value) :=
  [(.of "id", .ofOption StepId.toValue s.id), (.of "title", .ofOption .text s.title),
    (⟨"stepType", "step_type"⟩, .ofOption .text s.stepType),
    (.of "role", .ofOption .text s.role), (.of "description", .ofOption .text s.description),
    (.of "workflow_category", .ofOption .text s.category), (.of "conditional", .bool s.conditional),
    (⟨"workflowCondition", "workflow_condition"⟩, .ofOption Names.toValue s.workflowCondition),
    (⟨"softRequiredFields", "soft_required_fields"⟩,
      .ofOption Names.toValue s.softRequiredFields),
    (⟨"actionOptions", "action_options"⟩, .list s.actionOptions),
    (.of "comments", .ofKeyed (fun v => v) s.comments)]

/-- The step with all its fields. -/
def toValue (s : Step) : Value := .map (recordEntries s.record s.extra)

theorem areFields_fieldNames : AreFields fieldNames := by decide

theorem ofFields_record (s : Step) (beside : StandsBeside fieldNames s.extra) :
    ofFields (recordEntries s.record s.extra) = .valid s := by
  have hf : AreFields (s.record.map Prod.fst) := areFields_fieldNames
  have extra : extraEntries fieldNames (recordEntries s.record s.extra) = .valid s.extra :=
    extraEntries_recordEntries hf beside
  have id : (FieldName.of "id").check (recordEntries s.record s.extra) (.valid none)
      Checked.ofStepId = .valid s.id :=
    check_recordEntries hf (by simp [record]) (Checked.ofStepId_toValue s.id)
  have conditional : (FieldName.of "conditional").check (recordEntries s.record s.extra)
      (.valid false) (fun v => .valid v.isTrue) = .valid s.conditional :=
    check_recordEntries (v := .bool s.conditional) hf (by simp [record]) rfl
  have condition : (FieldName.mk "workflowCondition" "workflow_condition").check
      (recordEntries s.record s.extra) (.valid none) Checked.ofNames = .valid s.workflowCondition :=
    check_recordEntries hf (by simp [record]) (Checked.ofNames_toValue _)
  have soft : (FieldName.mk "softRequiredFields" "soft_required_fields").check
      (recordEntries s.record s.extra) (.valid none) Checked.ofNames =
        .valid s.softRequiredFields :=
    check_recordEntries hf (by simp [record]) (Checked.ofNames_toValue _)
  have options : (FieldName.mk "actionOptions" "action_options").check
      (recordEntries s.record s.extra) (.valid []) Checked.ofOptions = .valid s.actionOptions :=
    check_recordEntries (v := .list s.actionOptions) hf (by simp [record]) rfl
  have comments : (FieldName.of "comments").check (recordEntries s.record s.extra)
      (.valid Keyed.empty) Checked.ofComments = .valid s.comments :=
    check_recordEntries hf (by simp [record]) (Checked.ofComments_ofKeyed s.comments)
  rw [ofFields, id, text_recordEntries (s := s.title) hf (by simp [record]),
    text_recordEntries (s := s.stepType) hf (by simp [record]),
    text_recordEntries (s := s.role) hf (by simp [record]),
    text_recordEntries (s := s.description) hf (by simp [record]),
    text_recordEntries (s := s.category) hf (by simp [record]),
    conditional, condition, soft, options, comments, extra]
  rfl

/-- A step that is written with all its fields is read as it was. -/
theorem ofValue_toValue {s : Step} (beside : StandsBeside fieldNames s.extra) :
    ofValue s.toValue = .valid s := by
  have unbroken : hasBrokenKey (recordEntries s.record s.extra) = false :=
    hasBrokenKey_recordEntries areFields_fieldNames beside
  change ofEntries _ = _
  rw [ofEntries, unbroken]
  exact ofFields_record s beside

theorem standsBeside_of_ofValue {v : Value} {s : Step} (h : ofValue v = .valid s) :
    StandsBeside fieldNames s.extra := by
  unfold ofValue at h
  split at h
  next entries _ =>
    unfold ofEntries at h
    split at h
    next => cases h
    next unbroken =>
      simp only [ofFields, Checked.seq_eq_valid, Checked.fmap_eq_valid] at h
      obtain ⟨_, _, ⟨_, _, ⟨_, _, ⟨_, _, ⟨_, _, ⟨_, _, ⟨_, _, ⟨_, _, ⟨_, _, ⟨_, _, ⟨_, _, ⟨_,
        -, rfl⟩, -, rfl⟩, -, rfl⟩, -, rfl⟩, -, rfl⟩, -, rfl⟩, -, rfl⟩, -, rfl⟩, -, rfl⟩, -, rfl⟩,
        -, rfl⟩, beside, rfl⟩ := h
      exact standsBeside_of_extraEntries (Bool.eq_false_iff.mpr unbroken) beside
  next => cases h

end Step

namespace Workflow

/-- Each condition and step is read again as it is, and so is what stands beside them. A condition
without a name is declared under the empty one. -/
structure IsNormal (w : Workflow) : Prop where
  conditions : ∀ e ∈ w.conditions.entries, e.2.IsNormal ∧ (e.2.name = "" → e.1 = "")
  steps : ∀ s ∈ w.steps, StandsBeside Step.fieldNames s.extra
  extra : StandsBeside fieldNames w.extra

def record (w : Workflow) : List (FieldName × Value) :=
  [(.of "conditions", .ofKeyed Condition.toValue w.conditions),
    (.of "workflow", .list (w.steps.map Step.toValue))]

/-- The workflow with all fields of its conditions and steps, the conditions under their keys. -/
def toValue (w : Workflow) : Value := .map (recordEntries w.record w.extra)

theorem areFields_fieldNames : AreFields fieldNames := by decide

theorem nameCondition_toValue {key : String} {c : Condition} (h : c.name = "" → key = "") :
    nameCondition (.text key) c.toValue = c.toValue := by
  have name : Value.field? "name" (recordEntries c.record c.extra) = some (.text c.name) :=
    Condition.field?_record (f := .of "name") (by simp [Condition.record])
  change (if ((Value.field? "name" (recordEntries c.record c.extra)).getD .null).isTrue
    then c.toValue
    else .map (Value.setField "name" (.text key) (recordEntries c.record c.extra))) = _
  split
  next => rfl
  next untrue =>
    have unnamed : c.name = "" := by simpa [name, Value.isTrue] using untrue
    rw [Value.setField_of_field? (name.trans (by rw [unnamed, h unnamed]))]
    rfl

theorem checkConditions_toValue {w : Workflow} (normal : w.IsNormal) :
    checkConditions (w.conditions.entries.map fun e => (.text e.1, e.2.toValue)) =
      .valid w.conditions := by
  have entries : Checked.sequence ((w.conditions.entries.map fun e =>
      (Value.text e.1, e.2.toValue)).map checkConditionEntry) = .valid w.conditions.entries := by
    rw [Checked.sequence_eq_valid, List.map_map]
    apply List.map_congr_left
    rintro ⟨key, c⟩ he
    obtain ⟨own, named⟩ := normal.conditions _ he
    rw [Function.comp_apply, checkConditionEntry, nameCondition_toValue named,
      Condition.ofValue_toValue own]
    rfl
  rw [checkConditions, Checked.within_eq_valid, Checked.map_eq_valid]
  exact ⟨_, entries, Keyed.ofList_entries _⟩

theorem checkSteps_toValue {steps : List Step}
    (beside : ∀ s ∈ steps, StandsBeside Step.fieldNames s.extra) :
    checkSteps (.list (steps.map Step.toValue)) = .valid steps := by
  have read : Checked.ofItems Step.ofValue (steps.map Step.toValue) = .valid steps :=
    Checked.ofItems_map Step.toValue fun s hs => Step.ofValue_toValue (beside s hs)
  unfold checkSteps
  split
  next => exact read
  next untrue =>
    have none : steps = [] := by simpa [Value.isTrue] using untrue
    rw [none]

theorem ofValue_toValue {w : Workflow} (normal : w.IsNormal) : ofValue w.toValue = .ok w := by
  have unbroken : hasBrokenKey (recordEntries w.record w.extra) = false :=
    hasBrokenKey_recordEntries areFields_fieldNames normal.extra
  have extra : extraEntries fieldNames (recordEntries w.record w.extra) = .valid w.extra :=
    extraEntries_recordEntries (areFields_fieldNames : AreFields (w.record.map Prod.fst))
      normal.extra
  have steps : (FieldName.of "workflow").check (recordEntries w.record w.extra) (.valid [])
      checkSteps = .valid w.steps :=
    check_recordEntries areFields_fieldNames (by simp [record]) (checkSteps_toValue normal.steps)
  have conditions : conditionEntries? (recordEntries w.record w.extra) =
      .ok (w.conditions.entries.map fun e => (.text e.1, e.2.toValue)) := by
    have given : Value.field? "conditions" (recordEntries w.record w.extra) =
        some (.ofKeyed Condition.toValue w.conditions) :=
      field?_recordEntries (f := .of "conditions")
        (areFields_fieldNames : AreFields (w.record.map Prod.fst)) (by simp [record])
    rw [conditionEntries?, given]
    cases h : w.conditions.entries with
    | nil => simp [Value.ofKeyed, h, Value.isTrue]
    | cons e rest => simp [Value.ofKeyed, h, Value.isTrue, Value.entries?, Value.opened]
  rw [toValue, ofValue_map, ofEntries, conditions]
  simp only [bind, Except.bind, unbroken, checkConditions_toValue normal, steps, extra]
  rfl

/-- The conditions as a document declares them. -/
def declared (document : Value) : List (Value × Value) :=
  ((document.entries?.bind (Value.field? "conditions")).bind Value.entries?).getD []

/-- The name that a declared condition is given for itself, unless it is something false. -/
def ownName? (v : Value) : Option String :=
  (v.entries?.bind (Value.field? "name")).bind fun name =>
    match name.isTrue, Checked.ofText name with
    | true, .valid s => some s
    | _, _ => none

/-- A condition has the name that it is given for itself, or else the one that it is declared
under. -/
theorem isNormal_of_checkConditionEntry {raw : Value × Value} {e : String × Condition}
    (h : checkConditionEntry raw = .valid e) :
    e.2.IsNormal ∧ (e.2.name = "" → e.1 = "") ∧ Checked.ofKey raw.1 = .valid e.1 ∧
      e.2.name = (ownName? raw.2).getD e.1 := by
  obtain ⟨key, v⟩ := raw
  simp only [checkConditionEntry, Checked.seq_eq_valid, Checked.fmap_eq_valid] at h
  obtain ⟨_, c, ⟨k, keyed, rfl⟩, read, rfl⟩ := h
  rw [Checked.within_eq_valid] at read
  have text : Checked.ofText key = .valid k :=
    Checked.within_eq_valid.mp (Checked.within_eq_valid.mp keyed)
  unfold Condition.ofValue at read
  split at read
  next entries found =>
    obtain ⟨normal, name, given, nameRead⟩ := Condition.isNormal_of_ofEntries read
    unfold nameCondition at found
    split at found
    next es held =>
      split at found
      next named =>
        cases held.symm.trans found
        rw [given] at named
        have true_ : c.name ≠ "" := (Value.isTrue_iff_of_ofText nameRead).mp named
        refine ⟨normal, fun unnamed => absurd unnamed true_, keyed, ?_⟩
        simp [ownName?, held, given, show name.isTrue = true from named, nameRead]
      next unnamed =>
        cases (found : some (Value.setField "name" key es) = some entries)
        rw [Value.field?_setField, if_pos rfl] at given
        cases given
        cases text.symm.trans nameRead
        refine ⟨normal, fun eq => eq, keyed, ?_⟩
        cases own : Value.field? "name" es with
        | none => simp [ownName?, held, own]
        | some name =>
          have false_ : name.isTrue = false := by simpa [own] using unnamed
          simp [ownName?, held, own, false_]
    next none => cases none.symm.trans found
  next => cases read

theorem checkConditions_eq_valid {conditions : List (Value × Value)} {m : Keyed Condition}
    (h : checkConditions conditions = .valid m) {e : String × Condition} (he : e ∈ m.entries) :
    ∃ before raw after, conditions = before ++ raw :: after ∧
      checkConditionEntry raw = .valid e ∧ ∀ r ∈ after, Checked.ofKey r.1 ≠ .valid e.1 := by
  rw [checkConditions, Checked.within_eq_valid] at h
  obtain ⟨list, valid, rfl⟩ := Checked.map_eq_valid.mp h
  rw [Checked.sequence_eq_valid] at valid
  obtain ⟨before, after, rfl, last⟩ := Keyed.last_of_mem_ofList he
  rw [List.map_append, List.map_cons] at valid
  obtain ⟨before', rest, rfl, -, eq⟩ := List.map_eq_append_iff.mp valid
  obtain ⟨raw, after', rfl, own, more⟩ := List.map_eq_cons_iff.mp eq
  refine ⟨before', raw, after', rfl, own, fun r hr same => last ?_⟩
  have listed : checkConditionEntry r ∈ after.map Checked.valid := more ▸ List.mem_map_of_mem hr
  obtain ⟨other, hother, eq⟩ := List.mem_map.mp listed
  obtain ⟨-, -, keyed, -⟩ := isNormal_of_checkConditionEntry eq.symm
  have key : other.1 = e.1 := Checked.valid.inj (keyed.symm.trans same)
  exact key ▸ List.mem_map_of_mem hother

theorem conditionEntries?_eq_ok {entries conditions : List (Value × Value)}
    (h : conditionEntries? entries = .ok conditions) :
    conditions = [] ∨ (Value.field? "conditions" entries).bind Value.entries? = some conditions := by
  unfold conditionEntries? at h
  simp only at h
  split at h
  next given =>
    split at h
    next found =>
      cases h
      cases own : Value.field? "conditions" entries with
      | none =>
        rw [own] at given
        cases given
      | some v => exact Or.inr (by rwa [own] at found)
    next => cases h
  next =>
    cases h
    exact Or.inl rfl

/-- What all parts of an accepted workflow are read from. -/
theorem ofEntries_eq_ok {entries : List (Value × Value)} {w : Workflow}
    (h : ofEntries entries = .ok w) :
    ∃ conditions, conditionEntries? entries = .ok conditions ∧ hasBrokenKey entries = false ∧
      checkConditions conditions = .valid w.conditions ∧
      (FieldName.of "workflow").check entries (.valid []) checkSteps = .valid w.steps ∧
      extraEntries fieldNames entries = .valid w.extra := by
  unfold ofEntries at h
  cases found : conditionEntries? entries with
  | error fault =>
    rw [found] at h
    cases h
  | ok conditions =>
    rw [found] at h
    simp only [bind, Except.bind] at h
    split at h
    next checked =>
      cases h
      split at checked
      next => cases checked
      next unbroken =>
        simp only [Checked.seq_eq_valid, Checked.fmap_eq_valid] at checked
        obtain ⟨_, extra, ⟨_, steps, ⟨named, read, rfl⟩, listed, rfl⟩, beside, rfl⟩ := checked
        exact ⟨conditions, rfl, Bool.eq_false_iff.mpr unbroken, read, listed, beside⟩
    next => cases h

theorem standsBeside_of_checkSteps {entries : List (Value × Value)} {steps : List Step}
    (h : (FieldName.of "workflow").check entries (.valid []) checkSteps = .valid steps) :
    ∀ s ∈ steps, StandsBeside Step.fieldNames s.extra := by
  intro s hs
  unfold FieldName.check at h
  split at h
  next =>
    rw [Checked.within_eq_valid] at h
    unfold checkSteps at h
    split at h
    next =>
      split at h
      next =>
        obtain ⟨x, read⟩ := Checked.read_of_ofItems h hs
        exact Step.standsBeside_of_ofValue read
      next => cases h
    next =>
      cases h
      cases hs
  next =>
    cases h
    cases hs

theorem isNormal_of_ofEntries {entries : List (Value × Value)} {w : Workflow}
    (h : ofEntries entries = .ok w) : w.IsNormal := by
  obtain ⟨conditions, -, unbroken, read, listed, beside⟩ := ofEntries_eq_ok h
  refine ⟨fun e he => ?_, standsBeside_of_checkSteps listed,
    standsBeside_of_extraEntries unbroken beside⟩
  obtain ⟨_, raw, _, -, own, -⟩ := checkConditions_eq_valid read he
  obtain ⟨normal, named, -⟩ := isNormal_of_checkConditionEntry own
  exact ⟨normal, named⟩

/-- An accepted workflow, written with all its fields, is accepted again and is the same. Each of
its conditions is the one that is declared last under its key, has its own name or that of the key,
and sets some field if it has a name. -/
theorem ofValue_normalizes {document : Value} {w : Workflow}
    (accepted : ofValue document = .ok w) :
    ofValue w.toValue = .ok w ∧ ∀ e ∈ w.conditions.entries,
      (e.2.name ≠ "" → e.2.fields ≠ []) ∧
      ∃ before raw after, declared document = before ++ raw :: after ∧
        Checked.ofKey raw.1 = .valid e.1 ∧ (∀ r ∈ after, Checked.ofKey r.1 ≠ .valid e.1) ∧
        e.2.name = (ownName? raw.2).getD e.1 := by
  have entries : ∃ entries, ofEntries entries = .ok w ∧
      (entries = [] ∨ document.entries? = some entries) := by
    unfold ofValue at accepted
    split at accepted
    next =>
      split at accepted
      next entries found => exact ⟨entries, accepted, Or.inr found⟩
      next => cases accepted
    next => exact ⟨[], accepted, Or.inl rfl⟩
  obtain ⟨entries, read, held⟩ := entries
  have normal := isNormal_of_ofEntries read
  refine ⟨ofValue_toValue normal, fun e he => ⟨(normal.conditions e he).1.fields, ?_⟩⟩
  obtain ⟨conditions, found, -, checked, -⟩ := ofEntries_eq_ok read
  obtain ⟨before, raw, after, rfl, own, last⟩ := checkConditions_eq_valid checked he
  obtain ⟨-, -, keyed, named⟩ := isNormal_of_checkConditionEntry own
  refine ⟨before, raw, after, ?_, keyed, last, named⟩
  rcases conditionEntries?_eq_ok found with none | given
  · simp at none
  · rcases held with rfl | held
    · cases given
    · rw [declared, held, Option.bind_some, given]
      rfl

/-- Fields under their second names, beside the main ones or alone, null and false values, and a
condition without a name. -/
theorem ofValue_normalizes_secondNames :
    let minor : Value := .map [(.text "property_name", .text "age"), (.text "property", .null),
      (.text "fields", .list []), (.text "name", .bool false)]
    let step : Value := .map [(.text "step_type", .text "Upload"), (.text "id", .bool true),
      (.text "conditional", .text "no"), (.text "workflow_condition", .list [.text "minor"]),
      (.text "comments", .null), (.text "note", .int 3)]
    let document : Value := .map [(.text "workflow", .list [step]), (.text "version", .int 2),
      (.text "conditions", .map [(.text "minor", minor), (.text "", .map [])])]
    ∃ w, ofValue document = .ok w ∧ ofValue w.toValue = .ok w ∧
      w.conditions.entries.map (fun e => (e.1, e.2.name, e.2.fields)) =
        [("minor", "minor", ["minor"]), ("", "", [])] := by
  intro minor step document
  obtain ⟨w, accepted, names⟩ : ∃ w, ofValue document = .ok w ∧
      w.conditions.entries.map (fun e => (e.1, e.2.name, e.2.fields)) =
        [("minor", "minor", ["minor"]), ("", "", [])] := ⟨_, rfl, by decide +kernel⟩
  exact ⟨w, accepted, (ofValue_normalizes accepted).1, names⟩

end Workflow

end Gatehouse
