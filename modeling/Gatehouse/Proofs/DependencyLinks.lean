import Gatehouse.Proofs.Membership
import Gatehouse.Proofs.ResolutionForm

namespace Gatehouse

section

variable {steps : List PlacedStep}

theorem eq_of_key_eq (distinct : (steps.map PlacedStep.key).Nodup) {s t : PlacedStep}
    (hs : s ∈ steps) (ht : t ∈ steps) (eq : s.key = t.key) : s = t :=
  List.inj_on_of_nodup_map distinct hs ht eq

/-- Where the keys are distinct no step is left out for its key. -/
theorem mem_firstSuch_iff (distinct : (steps.map PlacedStep.key).Nodup) {p : PlacedStep → Prop}
    [DecidablePred p] {s : PlacedStep} : s ∈ firstSuch p steps ↔ s ∈ steps ∧ p s := by
  constructor
  · exact mem_of_mem_firstSuch
  · rintro ⟨mem, holds⟩
    obtain ⟨t, ht, key⟩ := exists_key_firstSuch mem holds
    exact eq_of_key_eq distinct (mem_of_mem_firstSuch ht).1 mem key ▸ ht

variable {heuristics : List Heuristic} {condition : String}

theorem reviews_of_mem_reviewingSteps {s : PlacedStep}
    (h : s ∈ reviewingSteps heuristics steps condition) : ReviewsAffidavit s.step := by
  simp only [reviewingSteps] at h
  split at h
  next => exact (mem_of_mem_firstSuch h).2.1
  next => cases h

theorem mem_gatedSteps_iff (distinct : (steps.map PlacedStep.key).Nodup) {s : PlacedStep} :
    s ∈ gatedSteps heuristics steps condition ↔ s ∈ steps ∧ IsGated heuristics condition s.step :=
  mem_firstSuch_iff distinct

/-- The step waits for the condition or for the completion field of a step that the condition
gates. -/
def AwaitsByName (heuristics : List Heuristic) (steps : List PlacedStep) (condition : String)
    (s : Step) : Prop :=
  ∃ field ∈ s.dependencies, field = condition ∨
    ∃ t ∈ steps, IsGated heuristics condition t.step ∧ t.step.completionToken? = some field

/-- Some field that the step waits for has the name of the condition in it, or the completion field
of a step that the condition gates. -/
def AwaitsBranch (heuristics : List Heuristic) (steps : List PlacedStep) (condition : String)
    (s : Step) : Prop :=
  ∃ field ∈ s.dependencies, condition.toList <:+: field.toList ∨
    ∃ t ∈ steps, IsGated heuristics condition t.step ∧
      ∃ token, t.step.completionToken? = some token ∧ token.toList <:+: field.toList

instance (heuristics : List Heuristic) (steps : List PlacedStep) (condition : String) (s : Step) :
    Decidable (AwaitsByName heuristics steps condition s) :=
  inferInstanceAs (Decidable (∃ field ∈ s.dependencies, _))

instance (heuristics : List Heuristic) (steps : List PlacedStep) (condition : String) (s : Step) :
    Decidable (AwaitsBranch heuristics steps condition s) :=
  inferInstanceAs (Decidable (∃ field ∈ s.dependencies, _))

theorem awaitsOneOf_anchors_iff (distinct : (steps.map PlacedStep.key).Nodup) {s : Step} :
    AwaitsOneOf (condition :: tokensIn (gatedSteps heuristics steps condition)) s ↔
      AwaitsBranch heuristics steps condition s := by
  simp only [AwaitsOneOf, AwaitsBranch, List.mem_cons, exists_eq_or_imp, mem_tokensIn,
    mem_gatedSteps_iff distinct]
  constructor
  · rintro ⟨field, hf, named | ⟨token, ⟨t, ⟨ht, gated⟩, sets⟩, within⟩⟩
    · exact ⟨field, hf, Or.inl named⟩
    · exact ⟨field, hf, Or.inr ⟨t, ht, gated, token, sets, within⟩⟩
  · rintro ⟨field, hf, named | ⟨t, ht, gated, token, sets, within⟩⟩
    · exact ⟨field, hf, Or.inl named⟩
    · exact ⟨field, hf, Or.inr ⟨token, ⟨t, ⟨ht, gated⟩, sets⟩, within⟩⟩

/-- A step that is neither gated nor a review comes into the branch by what it waits for. -/
theorem mem_memberSteps_iff_awaits (distinct : (steps.map PlacedStep.key).Nodup) {s : PlacedStep}
    (mem : s ∈ steps) (ungated : ¬IsGated heuristics condition s.step)
    (other : ¬ReviewsAffidavit s.step) :
    s ∈ memberSteps heuristics steps condition ↔
      AwaitsBranch heuristics steps condition s.step := by
  have notGated : s ∉ gatedSteps heuristics steps condition := fun h =>
    ungated ((mem_gatedSteps_iff distinct).mp h).2
  have notReviewing : s ∉ reviewingSteps heuristics steps condition := fun h =>
    other (reviews_of_mem_reviewingSteps h)
  have newKey : s.key ∉ (gatedSteps heuristics steps condition).map PlacedStep.key := by
    intro taken
    obtain ⟨t, ht, key⟩ := List.mem_map.mp taken
    exact notGated (eq_of_key_eq distinct (mem_of_mem_gatedSteps ht) mem key ▸ ht)
  rw [memberSteps, linkedSteps, List.mem_append, List.mem_append, or_iff_left notReviewing,
    or_iff_right notGated, waitingSteps, mem_firstSuch_iff distinct,
    awaitsOneOf_anchors_iff distinct]
  exact ⟨fun h => h.2.1, fun h => ⟨mem, h, newKey⟩⟩

end

/-- A step that its condition does not gate, and that reviews no affidavit, is in the branch of the
condition if some field that it waits for has the name of the condition in it or the completion
field of a gated step, and not otherwise. -/
theorem branch_links_iff_awaits (heuristics : List Heuristic) (steps : List PlacedStep)
    (distinct : (steps.map PlacedStep.key).Nodup) (condition : String) {s : PlacedStep}
    (mem : s ∈ steps) (ungated : ¬IsGated heuristics condition s.step)
    (other : ¬ReviewsAffidavit s.step) :
    (∃ b, (discoverBranches heuristics steps).result.lookup condition = some b ∧ s ∈ b.steps) ↔
      condition ∈ referencedNames heuristics steps ∧
        AwaitsBranch heuristics steps condition s.step := by
  rw [lookup_discoverBranches, ← mem_memberSteps_iff_awaits distinct mem ungated other,
    ← steps_branchOf_eq]
  by_cases referenced : condition ∈ referencedNames heuristics steps
  · simp [referenced]
  · simp [referenced]

/-- The third step waits for the second one, whose field ends in that of the first one, and the last
step for the third one. -/
def consentSteps : List PlacedStep :=
  placeSteps [{ gatedStep "Consent" "minor" with id := some (.number 1) },
    { gatedStep "Parent Consent" "" with id := some (.number 2) },
    { gatedStep "Letter" "" with
      id := some (.number 3), softRequiredFields := some (.one "parent_consent_complete") },
    { gatedStep "Form" "" with
      id := some (.number 4), softRequiredFields := some (.one "letter_complete") }]

/-- The letter waits for the consent of a parent, which ends in the field of a gated step; the form
waits for the letter only. -/
theorem branch_links_letter :
    (consentSteps.map PlacedStep.key).Nodup ∧
      ∃ letter ∈ consentSteps, ∃ form ∈ consentSteps,
        letter.step.title = some "Letter" ∧ ¬IsGated [] "minor" letter.step ∧
        ¬ReviewsAffidavit letter.step ∧
        form.step.title = some "Form" ∧ ¬IsGated [] "minor" form.step ∧
        ¬ReviewsAffidavit form.step ∧
        ∃ b, (discoverBranches [] consentSteps).result.lookup "minor" = some b ∧
          letter ∈ b.steps ∧ form ∉ b.steps := by
  have distinct : (consentSteps.map PlacedStep.key).Nodup := by decide
  have links := fun s mem ungated other =>
    branch_links_iff_awaits [] consentSteps distinct "minor" (s := s) mem ungated other
  obtain ⟨letter, hl, titled, ungated, other, awaits⟩ : ∃ s ∈ consentSteps,
      s.step.title = some "Letter" ∧ ¬IsGated [] "minor" s.step ∧ ¬ReviewsAffidavit s.step ∧
      AwaitsBranch [] consentSteps "minor" s.step := by decide +kernel
  obtain ⟨form, hf, titled', ungated', other', awaits'⟩ : ∃ s ∈ consentSteps,
      s.step.title = some "Form" ∧ ¬IsGated [] "minor" s.step ∧ ¬ReviewsAffidavit s.step ∧
      ¬AwaitsBranch [] consentSteps "minor" s.step := by decide +kernel
  obtain ⟨b, found, member⟩ := (links letter hl ungated other).mpr ⟨by decide, awaits⟩
  refine ⟨distinct, letter, hl, form, hf, titled, ungated, other, titled', ungated', other', b,
    found, member, fun within => ?_⟩
  exact awaits' ((links form hf ungated' other').mp ⟨b, found, within⟩).2

/-- A step joins the branch although it waits for a step outside it and for nothing else. -/
theorem branch_links_fragment :
    (consentSteps.map PlacedStep.key).Nodup ∧
      ∃ b, (discoverBranches [] consentSteps).result.lookup "minor" = some b ∧
        ∃ s ∈ b.steps, s ∈ consentSteps ∧ ¬IsGated [] "minor" s.step ∧
          ¬ReviewsAffidavit s.step ∧ ¬AwaitsByName [] consentSteps "minor" s.step ∧
          ∃ t ∈ consentSteps, t ∉ b.steps ∧
            t.step.completionToken?.toList = s.step.dependencies := by
  have distinct : (consentSteps.map PlacedStep.key).Nodup := by decide
  obtain ⟨s, hs, ungated, other, awaits, unnamed, t, ht, ungated', other', alone, waits⟩ :
      ∃ s ∈ consentSteps, ¬IsGated [] "minor" s.step ∧ ¬ReviewsAffidavit s.step ∧
        AwaitsBranch [] consentSteps "minor" s.step ∧
        ¬AwaitsByName [] consentSteps "minor" s.step ∧
        ∃ t ∈ consentSteps, ¬IsGated [] "minor" t.step ∧ ¬ReviewsAffidavit t.step ∧
          ¬AwaitsBranch [] consentSteps "minor" t.step ∧
          t.step.completionToken?.toList = s.step.dependencies := by
    decide +kernel
  refine ⟨distinct, branchOf [] consentSteps "minor", ?_, s, ?_, hs, ungated, other, unnamed, t,
    ht, ?_, waits⟩
  · rw [lookup_discoverBranches, if_pos (by decide)]
  · rw [steps_branchOf_eq]
    exact (mem_memberSteps_iff_awaits distinct hs ungated other).mpr awaits
  · rw [steps_branchOf_eq]
    exact fun within => alone ((mem_memberSteps_iff_awaits distinct ht ungated' other').mp within)

end Gatehouse
