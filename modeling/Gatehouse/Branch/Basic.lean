import Gatehouse.Workflow.CompletionToken

namespace Gatehouse

/-- The name at the end of the list, unless it is there already. -/
def addNew (names : List String) (name : String) : List String :=
  if name ∈ names then names else names ++ [name]

theorem mem_addNew {names : List String} {name x : String} :
    x ∈ addNew names name ↔ x ∈ names ∨ x = name := by
  unfold addNew
  split
  next h =>
    constructor
    · exact Or.inl
    · rintro (hx | rfl)
      · exact hx
      · exact h
  next => simp

theorem mem_foldl_addNew {names more : List String} {x : String} :
    x ∈ more.foldl addNew names ↔ x ∈ names ∨ x ∈ more := by
  induction more generalizing names with
  | nil => simp
  | cons name rest ih => rw [List.foldl_cons, ih, mem_addNew, List.mem_cons, or_assoc]

theorem nodup_addNew {names : List String} {name : String} (h : names.Nodup) :
    (addNew names name).Nodup := by
  unfold addNew
  split
  next => exact h
  next new => exact List.nodup_append.mpr ⟨h, by simp, fun x hx y hy eq => by
    rw [List.mem_singleton.mp hy] at eq
    exact new (eq ▸ hx)⟩

theorem nodup_foldl_addNew {names more : List String} (h : names.Nodup) :
    (more.foldl addNew names).Nodup := by
  induction more generalizing names with
  | nil => exact h
  | cons name rest ih => exact ih (nodup_addNew h)

/-- The steps behind one condition and the fields that are set when they are done. -/
structure Branch where
  steps : List PlacedStep
  states : List String

namespace Branch

def empty : Branch := ⟨[], []⟩

def contains (b : Branch) (s : PlacedStep) : Bool := b.steps.any fun t => t.key == s.key

/-- Puts a step into the branch, unless one of its key is there already. -/
def add? (b : Branch) (s : PlacedStep) : Option Branch :=
  if b.contains s then none
  else some ⟨b.steps ++ [s], (s.step.completionToken?.toList).foldl addNew b.states⟩

def add (b : Branch) (s : PlacedStep) : Branch := (b.add? s).getD b

/-- The titles of the steps, in order. -/
def titles (b : Branch) : List (Option String) := b.steps.map fun s => s.step.title

end Branch

end Gatehouse
