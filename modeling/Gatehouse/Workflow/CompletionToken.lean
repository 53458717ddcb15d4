import Gatehouse.SnakeCase
import Gatehouse.Workflow.Basic

namespace Gatehouse

namespace Step

def completionSuffix : Option String → String
  | some "Approval" => "_yes"
  | some "ProvideConsent" => "_provided"
  | some "Information" => "_viewed"
  | _ => "_complete"

/-- The field that is set once the step is done; a step without a title sets none. -/
def completionToken? (s : Step) : Option String :=
  match s.title with
  | some title =>
    if title = "" then none else some (snakeCase title ++ completionSuffix s.stepType)
  | none => none

theorem completionToken?_eq_some_iff {s : Step} {token : String} :
    s.completionToken? = some token ↔ ∃ title, s.title = some title ∧ title ≠ "" ∧
      snakeCase title ++ completionSuffix s.stepType = token := by
  unfold completionToken?
  cases s.title with
  | none => simp
  | some title => by_cases empty : title = "" <;> simp [empty]

/-- A completion field needs no escapes wherever it is written. -/
theorem isSnakeChar_of_completionToken {s : Step} {token : String}
    (h : s.completionToken? = some token) : ∀ c ∈ token.toList, isSnakeChar c = true := by
  have suffix (stepType : Option String) :
      (completionSuffix stepType).toList.all isSnakeChar = true := by
    unfold completionSuffix
    split <;> decide
  obtain ⟨title, -, -, rfl⟩ := completionToken?_eq_some_iff.mp h
  intro c hc
  rw [String.toList_append, List.mem_append] at hc
  rcases hc with hc | hc
  · exact isSnakeChar_of_mem_snakeCase hc
  · exact List.all_eq_true.mp (suffix s.stepType) c hc

end Step

end Gatehouse
