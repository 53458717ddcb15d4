import Gatehouse.Initializer.Profile
import Gatehouse.Proofs.BranchMembers
import Mathlib.Data.List.Basic
import Mathlib.Data.List.Nodup
import Mathlib.Data.List.Pairwise

namespace Gatehouse

section

variable (heuristics : List Heuristic) (steps : List Step) (condition : String)

/-- The condition gates the step, or the step waits for the condition or for a gated step, in
whatever order the steps stand. -/
inductive IsLinked : Step → Prop where
  | gated {s : Step} (mem : s ∈ steps) (gated : IsGated heuristics condition s) : IsLinked s
  | named {s : Step} (mem : s ∈ steps) (awaits : AwaitsOneOf [condition] s) : IsLinked s
  | waiting {s t : Step} {token : String} (mem : s ∈ steps) (other : t ∈ steps)
      (gated : IsGated heuristics condition t) (sets : t.completionToken? = some token)
      (awaits : AwaitsOneOf [token] s) : IsLinked s

/-- The step is linked to the condition, or reviews an affidavit that a linked step hands in. -/
inductive IsMember : Step → Prop where
  | linked {s : Step} (linked : IsLinked heuristics steps condition s) : IsMember s
  | review {s t : Step} (home : IsHomeSchool condition)
      (other : IsLinked heuristics steps condition t) (hands : HandsInAffidavit t)
      (mem : s ∈ steps) (reviews : ReviewsAffidavit s) : IsMember s

end

/-- A place belongs to one step: it tells apart the steps that have no identifier. -/
def WellPlaced (steps : List PlacedStep) : Prop :=
  ∀ s ∈ steps, ∀ t ∈ steps, s.place = t.place → s.step = t.step

/-- The steps do not share an identifier. -/
def Step.Apart (s t : Step) : Prop := s.id = none ∨ s.id ≠ t.id

instance : Std.Symm Step.Apart where
  symm s t h := by
    rcases h with missing | ne
    · by_cases other : t.id = none
      · exact Or.inl other
      · exact Or.inr fun eq => other (eq.trans missing)
    · exact Or.inr (Ne.symm ne)

/-- Steps of one key are one step. -/
def KeyedApart (steps : List PlacedStep) : Prop :=
  ∀ s ∈ steps, ∀ t ∈ steps, s.key = t.key → s.step = t.step

def stepsOf (steps : List PlacedStep) : List Step := steps.map PlacedStep.step

theorem mem_stepsOf {steps : List PlacedStep} {x : Step} :
    x ∈ stepsOf steps ↔ ∃ s ∈ steps, s.step = x := List.mem_map

theorem stepsOf_placeSteps (steps : List Step) : stepsOf (placeSteps steps) = steps := by
  rw [stepsOf, placeSteps, List.map_map]
  exact List.zipIdx_map_fst 0 steps

theorem wellPlaced_placeSteps (steps : List Step) : WellPlaced (placeSteps steps) := by
  have distinct : ((placeSteps steps).map PlacedStep.place).Nodup :=
    places_placeSteps steps ▸ List.nodup_range'
  intro s hs t ht eq
  rw [List.inj_on_of_nodup_map distinct hs ht eq]

theorem WellPlaced.keyedApart {steps : List PlacedStep} (placed : WellPlaced steps)
    (apart : (stepsOf steps).Pairwise Step.Apart) : KeyedApart steps := by
  intro s hs t ht eq
  cases hid : s.step.id with
  | none =>
    cases hit : t.step.id with
    | none =>
      have place : s.place = t.place := by simpa [PlacedStep.key, hid, hit] using eq
      exact placed s hs t ht place
    | some j => simp [PlacedStep.key, hid, hit] at eq
  | some i =>
    have same : t.step.id = some i := by
      cases hit : t.step.id with
      | none => simp [PlacedStep.key, hid, hit] at eq
      | some j => simpa [PlacedStep.key, hid, hit, eq_comm] using eq
    -- two steps of one identifier that were not the same would have to be apart
    by_contra ne
    rcases apart.forall (List.mem_map_of_mem hs) (List.mem_map_of_mem ht) ne with missing | other
    · rw [hid] at missing
      cases missing
    · exact other (hid.trans same.symm)

section

variable {heuristics : List Heuristic} {steps : List PlacedStep} {condition : String}

theorem mem_of_mem_gatedSteps {s : PlacedStep} (h : s ∈ gatedSteps heuristics steps condition) :
    s ∈ steps := (mem_of_mem_firstSuch h).1

theorem mem_of_mem_linkedSteps {s : PlacedStep} (h : s ∈ linkedSteps heuristics steps condition) :
    s ∈ steps := by
  rcases List.mem_append.mp h with gated | waiting
  · exact mem_of_mem_gatedSteps gated
  · exact (mem_of_mem_firstSuch waiting).1

/-- Where keys tell steps apart, a step that is left out for its key is there already. -/
theorem exists_append_firstSuch_iff (apart : KeyedApart steps) (base : List PlacedStep)
    (sub : ∀ s ∈ base, s ∈ steps) (p : Step → Prop) [DecidablePred p] {x : Step} :
    (∃ s ∈ base ++ firstSuch (fun s => p s.step ∧ s.key ∉ base.map PlacedStep.key) steps,
        s.step = x) ↔
      (∃ s ∈ base, s.step = x) ∨ (x ∈ stepsOf steps ∧ p x) := by
  constructor
  · rintro ⟨s, hs, rfl⟩
    rcases List.mem_append.mp hs with old | new
    · exact Or.inl ⟨s, old, rfl⟩
    · obtain ⟨mem, holds, -⟩ := mem_of_mem_firstSuch new
      exact Or.inr ⟨mem_stepsOf.mpr ⟨s, mem, rfl⟩, holds⟩
  · rintro (⟨s, hs, rfl⟩ | ⟨hx, holds⟩)
    · exact ⟨s, List.mem_append_left _ hs, rfl⟩
    · obtain ⟨s, mem, rfl⟩ := mem_stepsOf.mp hx
      by_cases taken : s.key ∈ base.map PlacedStep.key
      · obtain ⟨t, ht, key⟩ := List.mem_map.mp taken
        exact ⟨t, List.mem_append_left _ ht, apart t (sub t ht) s mem key⟩
      · obtain ⟨t, ht, key⟩ := exists_key_firstSuch
          (p := fun s => p s.step ∧ s.key ∉ base.map PlacedStep.key) mem ⟨holds, taken⟩
        exact ⟨t, List.mem_append_right _ ht, apart t (mem_of_mem_firstSuch ht).1 s mem key⟩

theorem exists_gatedSteps_iff (apart : KeyedApart steps) {x : Step} :
    (∃ s ∈ gatedSteps heuristics steps condition, s.step = x) ↔
      x ∈ stepsOf steps ∧ IsGated heuristics condition x := by
  have form := exists_append_firstSuch_iff apart [] (fun s hs => by cases hs)
    (IsGated heuristics condition) (x := x)
  simpa [gatedSteps] using form

theorem awaitsOneOf_cons {text : String} {texts : List String} {s : Step} :
    AwaitsOneOf (text :: texts) s ↔ AwaitsOneOf [text] s ∨ ∃ t ∈ texts, AwaitsOneOf [t] s := by
  simp only [AwaitsOneOf, List.mem_cons, List.not_mem_nil, or_false, exists_eq_or_imp,
    exists_eq_left]
  constructor
  · rintro ⟨field, hf, here | ⟨t, ht, later⟩⟩
    · exact Or.inl ⟨field, hf, here⟩
    · exact Or.inr ⟨t, ht, field, hf, later⟩
  · rintro (⟨field, hf, here⟩ | ⟨t, ht, field, hf, later⟩)
    · exact ⟨field, hf, Or.inl here⟩
    · exact ⟨field, hf, Or.inr ⟨t, ht, later⟩⟩

theorem exists_linkedSteps_iff (apart : KeyedApart steps) {x : Step} :
    (∃ s ∈ linkedSteps heuristics steps condition, s.step = x) ↔
      IsLinked heuristics (stepsOf steps) condition x := by
  rw [linkedSteps, waitingSteps, exists_append_firstSuch_iff apart _
    (fun s hs => mem_of_mem_gatedSteps hs) (AwaitsOneOf _), exists_gatedSteps_iff apart,
    awaitsOneOf_cons]
  constructor
  · rintro (⟨mem, gated⟩ | ⟨mem, awaits | ⟨token, anchor, awaits⟩⟩)
    · exact .gated mem gated
    · exact .named mem awaits
    · obtain ⟨s, hs, sets⟩ := mem_tokensIn.mp anchor
      obtain ⟨other, gated⟩ := (exists_gatedSteps_iff apart).mp ⟨s, hs, rfl⟩
      exact .waiting mem other gated sets awaits
  · intro h
    cases h with
    | gated mem gated => exact Or.inl ⟨mem, gated⟩
    | named mem awaits => exact Or.inr ⟨mem, Or.inl awaits⟩
    | waiting mem other gated sets awaits =>
      obtain ⟨t, ht, rfl⟩ := (exists_gatedSteps_iff apart).mpr ⟨other, gated⟩
      exact Or.inr ⟨mem, Or.inr ⟨_, mem_tokensIn.mpr ⟨t, ht, sets⟩, awaits⟩⟩

theorem exists_memberSteps_iff (apart : KeyedApart steps) {x : Step} :
    (∃ s ∈ memberSteps heuristics steps condition, s.step = x) ↔
      IsMember heuristics (stepsOf steps) condition x := by
  by_cases handed : IsHomeSchool condition ∧
      ∃ s ∈ linkedSteps heuristics steps condition, HandsInAffidavit s.step
  · obtain ⟨home, t, ht, hands⟩ := handed
    have other := (exists_linkedSteps_iff apart).mp ⟨t, ht, rfl⟩
    rw [memberSteps, reviewingSteps, if_pos ⟨home, t, ht, hands⟩,
      exists_append_firstSuch_iff apart _ (fun s hs => mem_of_mem_linkedSteps hs) ReviewsAffidavit,
      exists_linkedSteps_iff apart]
    constructor
    · rintro (linked | ⟨mem, reviews⟩)
      · exact .linked linked
      · exact .review home other hands mem reviews
    · intro h
      cases h with
      | linked linked => exact Or.inl linked
      | review _ _ _ mem reviews => exact Or.inr ⟨mem, reviews⟩
  · rw [memberSteps, reviewingSteps, if_neg handed, List.append_nil, exists_linkedSteps_iff apart]
    constructor
    · exact .linked
    · intro h
      cases h with
      | linked linked => exact linked
      | review home other hands mem reviews =>
        obtain ⟨t, ht, rfl⟩ := (exists_linkedSteps_iff apart).mpr other
        exact absurd ⟨home, t, ht, hands⟩ handed

/-- The completion fields of a branch are those of its members, in whatever order the steps
stand. -/
theorem mem_states_branchOf_iff (apart : KeyedApart steps) {token : String} :
    token ∈ (branchOf heuristics steps condition).states ↔
      ∃ x, IsMember heuristics (stepsOf steps) condition x ∧ x.completionToken? = some token := by
  rw [states_branchOf_eq, List.mem_eraseDups, mem_tokensIn]
  constructor
  · rintro ⟨s, hs, sets⟩
    exact ⟨s.step, (exists_memberSteps_iff apart).mp ⟨s, hs, rfl⟩, sets⟩
  · rintro ⟨x, member, sets⟩
    obtain ⟨s, hs, rfl⟩ := (exists_memberSteps_iff apart).mpr member
    exact ⟨s, hs, sets⟩

theorem mem_referencedNames_iff {n : String} :
    n ∈ referencedNames heuristics steps ↔ ∃ x ∈ stepsOf steps, IsGated heuristics n x := by
  rw [mem_referencedNames]
  constructor
  · rintro ⟨s, hs, gated⟩
    exact ⟨s.step, mem_stepsOf.mpr ⟨s, hs, rfl⟩, isGatedBy_iff.mp gated⟩
  · rintro ⟨x, hx, gated⟩
    obtain ⟨s, hs, rfl⟩ := mem_stepsOf.mp hx
    exact ⟨s, hs, isGatedBy_iff.mpr gated⟩

end

end Gatehouse
