import Gatehouse.Proofs.BranchMembers
import Mathlib.Data.List.Induction

namespace Gatehouse

theorem nodup_keys_firstOfKeys (steps : List PlacedStep) :
    ((firstOfKeys steps).map PlacedStep.key).Nodup := by
  induction steps with
  | nil => exact List.nodup_nil
  | cons s rest ih =>
    rw [firstOfKeys, List.map_cons, List.nodup_cons]
    refine ⟨fun again => ?_, ih.sublist (List.filter_sublist.map _)⟩
    obtain ⟨t, ht, same⟩ := List.mem_map.mp again
    have other := (List.mem_filter.mp ht).2
    simp [same] at other

theorem mem_keys_firstOfKeys {steps : List PlacedStep} {k : StepKey} :
    k ∈ (firstOfKeys steps).map PlacedStep.key ↔ k ∈ steps.map PlacedStep.key := by
  constructor
  · exact fun h => ((sublist_firstOfKeys steps).map _).subset h
  · intro h
    obtain ⟨s, hs, rfl⟩ := List.mem_map.mp h
    obtain ⟨t, ht, same⟩ := exists_key_firstOfKeys hs
    exact same ▸ List.mem_map_of_mem ht

namespace Branch

/-- What is asked of a branch while it is put together. -/
inductive Call where
  | add (s : PlacedStep)
  | contains (s : PlacedStep)

/-- The step that a call offers. -/
def Call.offered? : Call → Option PlacedStep
  | add s => some s
  | contains _ => none

/-- The answer to a call, and the branch behind it. -/
def answer (b : Branch) : Call → Bool × Branch
  | .add s =>
    match b.add? s with
    | some b' => (true, b')
    | none => (false, b)
  | .contains s => (b.contains s, b)

def afterCalls (calls : List Call) : Branch :=
  calls.foldl (fun b call => (b.answer call).2) empty

def offeredSteps (calls : List Call) : List PlacedStep := calls.filterMap Call.offered?

variable {b : Branch} {s : PlacedStep}

theorem answer_add (b : Branch) (s : PlacedStep) :
    b.answer (.add s) = (!b.contains s, b.add s) := by
  cases h : b.contains s with
  | true => simp [answer, add, add?, h]
  | false => simp [answer, add, add?, h]

/-- A call offers its step to the branch, and one that only asks changes nothing. -/
theorem answer_snd (b : Branch) (call : Call) :
    (b.answer call).2 = call.offered?.toList.foldl add b := by
  cases call with
  | add s => rw [answer_add]; rfl
  | contains s => rfl

theorem afterCalls_eq (calls : List Call) :
    afterCalls calls = (offeredSteps calls).foldl add empty := by
  induction calls using List.reverseRecOn with
  | nil => rfl
  | append_singleton calls call ih =>
    have offered : offeredSteps (calls ++ [call]) = offeredSteps calls ++ call.offered?.toList := by
      rw [offeredSteps, List.filterMap_append]
      cases call <;> rfl
    rw [afterCalls, List.foldl_append, List.foldl_cons, List.foldl_nil, ← afterCalls, answer_snd,
      ih, offered, List.foldl_append]

theorem steps_afterCalls (calls : List Call) :
    (afterCalls calls).steps = firstOfKeys (offeredSteps calls) := by
  rw [afterCalls_eq, steps_foldl_add]
  simp [empty, contains]

theorem settled_afterCalls (calls : List Call) : (afterCalls calls).Settled := by
  rw [afterCalls_eq]
  exact settled_empty.foldl_add _

theorem contains_afterCalls (calls : List Call) (s : PlacedStep) :
    (afterCalls calls).contains s = decide (s.key ∈ (offeredSteps calls).map PlacedStep.key) := by
  rw [Bool.eq_iff_iff, contains_iff, decide_eq_true_iff, ← mem_keys_firstOfKeys,
    ← steps_afterCalls, List.mem_map]

theorem Settled.states_eq (h : b.Settled) : b.states = (tokensIn b.steps).eraseDups := by
  rw [h, tokensOf, foldl_addNew_eq_eraseDups, tokensIn]

/-- After any calls a branch holds the first step of each key among those that were offered, each
key once, and the completion fields of these, each once. A step is there if one of its key was
offered before; it is added if none was, behind the others, and nothing changes otherwise. -/
theorem afterCalls_form (calls : List Call) :
    let b := afterCalls calls
    let offered := offeredSteps calls
    (b.steps.map PlacedStep.key).Nodup ∧
      b.steps = offered.eraseDupsBy (fun s t => s.key == t.key) ∧
      b.states = (tokensIn b.steps).eraseDups ∧
      ∀ s, b.answer (.contains s) = (decide (s.key ∈ offered.map PlacedStep.key), b) ∧
        b.answer (.add s) =
          if s.key ∈ offered.map PlacedStep.key then (false, b)
          else (true, ⟨b.steps ++ [s], (tokensIn (b.steps ++ [s])).eraseDups⟩) := by
  intro b offered
  have settled : b.Settled := settled_afterCalls calls
  refine ⟨?_, ?_, settled.states_eq, fun s => ⟨?_, ?_⟩⟩
  · rw [steps_afterCalls]
    exact nodup_keys_firstOfKeys offered
  · rw [steps_afterCalls, firstOfKeys_eq_eraseDupsBy]
  · rw [answer, contains_afterCalls]
  · have there := contains_afterCalls calls s
    rw [answer_add]
    split
    next known =>
      have old : b.contains s = true := there.trans (decide_eq_true known)
      rw [old, add_of_contains old]
      rfl
    next unknown =>
      have new : b.contains s = false := there.trans (decide_eq_false unknown)
      have grown := (settled.add s).states_eq
      have steps : (b.add s).steps = b.steps ++ [s] := by rw [add_of_not_contains new]
      rw [steps] at grown
      rw [new, ← grown, ← steps]
      rfl

end Branch

end Gatehouse
