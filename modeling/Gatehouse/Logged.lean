import Gatehouse.Event

namespace Gatehouse

/-- A result with the events noted on the way to it. -/
structure Logged (α : Type) where
  result : α
  events : List Event

namespace Logged

variable {α β : Type}

instance : Monad Logged where
  pure a := ⟨a, []⟩
  bind x f := ⟨(f x.result).result, x.events ++ (f x.result).events⟩

def note (e : Event) : Logged Unit := ⟨(), [e]⟩

@[simp] theorem result_pure (a : α) : (pure a : Logged α).result = a := rfl

@[simp] theorem events_pure (a : α) : (pure a : Logged α).events = [] := rfl

@[simp] theorem result_bind (x : Logged α) (f : α → Logged β) :
    (x >>= f).result = (f x.result).result := rfl

@[simp] theorem events_bind (x : Logged α) (f : α → Logged β) :
    (x >>= f).events = x.events ++ (f x.result).events := rfl

@[simp] theorem result_note (e : Event) : (note e).result = () := rfl

@[simp] theorem events_note (e : Event) : (note e).events = [e] := rfl

@[simp] theorem result_map (f : α → β) (x : Logged α) : (f <$> x).result = f x.result := rfl

@[simp] theorem events_map (f : α → β) (x : Logged α) : (f <$> x).events = x.events := by
  show x.events ++ [] = x.events
  simp

instance : LawfulMonad Logged :=
  LawfulMonad.mk' Logged (fun x => by cases x; simp [Functor.map]) (fun _ _ => rfl)
    (fun x f g => by simp only [Bind.bind, List.append_assoc])

/-- The results of a walk do not depend on what is noted. -/
theorem result_foldlM (f : β → α → Logged β) (b : β) (xs : List α) :
    (xs.foldlM f b).result = xs.foldl (fun b a => (f b a).result) b := by
  induction xs generalizing b with
  | nil => rfl
  | cons x xs ih => simp [List.foldlM_cons, ih]

theorem result_mapM (f : α → Logged β) (xs : List α) :
    (xs.mapM f).result = xs.map fun a => (f a).result := by
  induction xs with
  | nil => rfl
  | cons x xs ih => simp [List.mapM_cons, ih]

end Logged

end Gatehouse
