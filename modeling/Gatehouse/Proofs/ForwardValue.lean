import Gatehouse.Proofs.ForwardBuild
import Gatehouse.Yaml.Document

namespace Gatehouse

namespace Yaml

/-- What holds for the keys and values that are inserted holds for those that are kept. -/
theorem Made.forall_insertEntry {p q : Made → Prop} {key value : Made}
    {made : List (Made × Made)} (h : ∀ e ∈ made, p e.1 ∧ q e.2) (hkey : p key) (hvalue : q value) :
    ∀ e ∈ insertEntry key value made, p e.1 ∧ q e.2 := by
  induction made with
  | nil => exact List.forall_mem_singleton.mpr ⟨hkey, hvalue⟩
  | cons e made ih =>
    rw [List.forall_mem_cons] at h
    rw [insertEntry]
    split
    next => exact List.forall_mem_cons.mpr ⟨⟨h.1.1, hvalue⟩, h.2⟩
    next => exact List.forall_mem_cons.mpr ⟨h.1, ih h.2⟩

namespace Document

variable {d : Document}

theorem forall_madeEntries {p q : Made → Prop} {entries : List (Nat × Nat)}
    (h : ∀ e ∈ entries, p (d.madeOf e.1) ∧ q (d.madeOf e.2)) :
    ∀ e ∈ d.madeEntries entries, p e.1 ∧ q e.2 := by
  have further (made : List (Made × Made)) (hmade : ∀ e ∈ made, p e.1 ∧ q e.2) :
      ∀ e ∈ entries.foldl (fun made e => Made.insertEntry (d.madeOf e.1) (d.madeOf e.2) made) made,
        p e.1 ∧ q e.2 := by
    induction entries generalizing made with
    | nil => exact hmade
    | cons e entries ih =>
      rw [List.forall_mem_cons] at h
      exact ih h.2 _ (Made.forall_insertEntry hmade h.1.1 h.1.2)
  exact further [] (List.forall_mem_nil _)

/-- What a part stands for, with a number of steps into lists and maps. -/
def valueIn (d : Document) : Nat → Made → Value
  | _, .scalar v _ => v
  | 0, .part _ => .null
  | steps + 1, .part n =>
    match d.node n with
    | .scalar _ _ => .null
    | .sequence _ items => .list (items.map fun m => valueIn d steps (d.madeOf m))
    | .mapping _ entries =>
      .map ((d.madeEntries entries).map fun e => (valueIn d steps e.1, valueIn d steps e.2))

/-- What a part stands for. -/
def valueOf (d : Document) (m : Made) : Value := d.valueIn d.nodes.size m

theorem valueIn_scalar (steps : Nat) (v : Value) (origin : Nat) :
    d.valueIn steps (.scalar v origin) = v := by
  cases steps <;> rfl

theorem madeOf_cases (n : Nat) : (∃ v origin, d.madeOf n = .scalar v origin) ∨
    d.madeOf n = .part n ∧ (d.node n).isCollection = true := by
  unfold madeOf
  cases d.node n with
  | scalar tag text => exact Or.inl ⟨_, _, rfl⟩
  | sequence tag items => exact Or.inr ⟨rfl, rfl⟩
  | mapping tag entries => exact Or.inr ⟨rfl, rfl⟩

theorem node_of_size_le {n : Nat} (h : d.nodes.size ≤ n) : d.node n = .empty := by
  rw [node, Array.getD, dif_neg (Nat.not_lt.mpr h)]

theorem mem_held_entries {entries : List (Nat × Nat)} {e : Nat × Nat} (h : e ∈ entries)
    {tag : Tag} : e.1 ∈ (Node.mapping tag entries).held ∧ e.2 ∈ (Node.mapping tag entries).held :=
  ⟨List.mem_flatMap.mpr ⟨e, h, List.mem_cons_self⟩,
    List.mem_flatMap.mpr ⟨e, h, List.mem_cons_of_mem _ List.mem_cons_self⟩⟩

/-- More steps than there are parts behind one do not matter. -/
theorem valueIn_eq (forward : d.IsForward) {steps steps' n : Nat}
    (enough : d.nodes.size ≤ steps + n) (enough' : d.nodes.size ≤ steps' + n) :
    d.valueIn steps (.part n) = d.valueIn steps' (.part n) := by
  induction steps generalizing n steps' with
  | zero =>
    cases steps' with
    | zero => rfl
    | succ steps' =>
      rw [valueIn, valueIn, node_of_size_le (by omega)]
      rfl
  | succ steps ih =>
    cases steps' with
    | zero =>
      rw [valueIn, valueIn, node_of_size_le (by omega)]
      rfl
    | succ steps' =>
      have same {m : Nat} (mem : m ∈ (d.node n).held) :
          d.valueIn steps (d.madeOf m) = d.valueIn steps' (d.madeOf m) := by
        have later := (forward.later n m mem).1
        rcases d.madeOf_cases m with ⟨v, origin, eq⟩ | ⟨eq, -⟩
        · rw [eq, valueIn_scalar, valueIn_scalar]
        · rw [eq]
          exact ih (by omega) (by omega)
      rw [valueIn, valueIn]
      cases eq : d.node n with
      | scalar tag text => rfl
      | sequence tag items =>
        rw [eq] at same
        exact congrArg Value.list (List.map_congr_left fun m mem => same mem)
      | mapping tag entries =>
        rw [eq] at same
        have both := forall_madeEntries (d := d)
          (p := fun m => d.valueIn steps m = d.valueIn steps' m)
          (q := fun m => d.valueIn steps m = d.valueIn steps' m) fun e mem =>
            ⟨same (mem_held_entries mem).1, same (mem_held_entries mem).2⟩
        exact congrArg Value.map (List.map_congr_left fun e mem =>
          Prod.ext (both e mem).1 (both e mem).2)

theorem valueOf_scalar (v : Value) (origin : Nat) : d.valueOf (.scalar v origin) = v :=
  valueIn_scalar _ v origin

/-- One step more than there are parts. -/
theorem valueOf_part (forward : d.IsForward) (n : Nat) :
    d.valueOf (.part n) = d.valueIn (d.nodes.size + 1) (.part n) :=
  valueIn_eq forward (Nat.le_add_right _ _) (by omega)

theorem valueOf_sequence (forward : d.IsForward) {n : Nat} {tag : Tag} {items : List Nat}
    (eq : d.node n = .sequence tag items) :
    d.valueOf (.part n) = .list ((items.map d.madeOf).map d.valueOf) := by
  rw [valueOf_part forward, valueIn, eq, List.map_map]
  rfl

theorem valueOf_mapping (forward : d.IsForward) {n : Nat} {tag : Tag} {entries : List (Nat × Nat)}
    (eq : d.node n = .mapping tag entries) :
    d.valueOf (.part n) =
      .map ((d.madeEntries entries).map fun e => (d.valueOf e.1, d.valueOf e.2)) := by
  rw [valueOf_part forward, valueIn, eq]
  rfl

end Document

namespace Unfolding

variable {d : Document} {contents : Array Content}

/-- What is known of parts is their value, and none is a knot. -/
def KnowsOf (d : Document) (known : Array (Option Unfolded)) : Prop :=
  ∀ n u, known.getD n none = some u →
    (d.node n).isCollection = true ∧ u = .closed (d.valueOf (.part n))

theorem outerOf_closed (vs : List Value) : Unfolded.outerOf (vs.map .closed) = [] := by
  have none : (vs.map Unfolded.closed).flatMap Unfolded.outer = [] := by
    rw [List.flatMap_eq_nil_iff]
    intro u mem
    obtain ⟨v, -, rfl⟩ := List.mem_map.mp mem
    rfl
  rw [Unfolded.outerOf, none]
  rfl

theorem values_closed (vs : List Value) : Unfolded.values (vs.map .closed) = vs := by
  rw [Unfolded.values, List.map_map]
  exact List.map_id vs

theorem bind_of_eq {α β : Type} {first : Unfolding α} {next : α → Unfolding β}
    {known after : Array (Option Unfolded)} {a : α} (h : first known = (a, after)) :
    (first >>= next) known = next a after := by
  exact congrArg (fun result => next result.1 result.2) h

/-- A step gives a value, whatever is known, and what is known stays true. -/
def Gives {α : Type} (d : Document) (step : Unfolding α) (a : α) : Prop :=
  ∀ known, KnowsOf d known → ∃ after, step known = (a, after) ∧ KnowsOf d after

theorem Gives.pure {α : Type} (a : α) : Gives d (pure a) a := fun known knows => ⟨known, rfl, knows⟩

theorem Gives.bind {α β : Type} {first : Unfolding α} {next : α → Unfolding β} {a : α} {b : β}
    (h : Gives d first a) (h' : Gives d (next a) b) : Gives d (first >>= next) b := by
  intro known knows
  obtain ⟨middle, eq, knows⟩ := h known knows
  obtain ⟨after, eq', knows⟩ := h' middle knows
  exact ⟨after, (bind_of_eq eq).trans eq', knows⟩

theorem Gives.mapM {α β : Type} {step : α → Unfolding β} {f : α → β} {xs : List α}
    (h : ∀ x ∈ xs, Gives d (step x) (f x)) : Gives d (xs.mapM step) (xs.map f) := by
  induction xs with
  | nil => exact .pure []
  | cons x xs ih =>
    rw [List.forall_mem_cons] at h
    rw [List.mapM_cons]
    exact h.1.bind ((ih h.2).bind (.pure _))

theorem Gives.entries {unfold : Made → Unfolding Unfolded} {es : List (Made × Made)}
    (h : ∀ e ∈ es, Gives d (unfold e.1) (.closed (d.valueOf e.1)) ∧
      Gives d (unfold e.2) (.closed (d.valueOf e.2))) :
    Gives d (entries unfold es) (es.map fun e => (d.valueOf e.1, d.valueOf e.2), []) := by
  have parts : Gives d (es.mapM fun e => return (← unfold e.1, ← unfold e.2))
      (es.map fun e => (.closed (d.valueOf e.1), .closed (d.valueOf e.2))) :=
    .mapM fun e mem => (h e mem).1.bind ((h e mem).2.bind (.pure _))
  refine parts.bind ?_
  have outer :
      (es.map fun e => (Unfolded.closed (d.valueOf e.1), Unfolded.closed (d.valueOf e.2))).flatMap
          (fun e => [e.1, e.2]) =
        (es.flatMap fun e => [d.valueOf e.1, d.valueOf e.2]).map .closed := by
    rw [List.flatMap_map, List.map_flatMap]
    rfl
  rw [outer, outerOf_closed, List.map_map]
  exact .pure _

/-- The value of a part is kept, as no knot. -/
theorem Gives.keep (forward : d.IsForward) {n : Nat} (collection : (d.node n).isCollection = true) :
    Gives d (keep n (d.valueOf (.part n)) []) (.closed (d.valueOf (.part n))) := by
  intro known knows
  have untied : (known.getD n none).any Unfolded.isKnot = false := by
    cases eq : known.getD n none with
    | none => rfl
    | some u =>
      obtain ⟨-, rfl⟩ := knows n u eq
      cases node : d.node n with
      | scalar tag text =>
        rw [node] at collection
        cases collection
      | sequence tag items =>
        rw [Document.valueOf_sequence forward node]
        rfl
      | mapping tag entries =>
        rw [Document.valueOf_mapping forward node]
        rfl
  refine ⟨known.setIfInBounds n (some (.closed (d.valueOf (.part n)))), ?_, fun m u eq => ?_⟩
  · show ((if [] = [] ∧ !(known.getD n none).any Unfolded.isKnot then _ else _ : Unfolded), _) = _
    rw [untied]
    rfl
  · rw [getD_setIfInBounds] at eq
    split at eq
    next same =>
      obtain ⟨rfl, -⟩ := same
      exact ⟨collection, (Option.some.inj eq).symm⟩
    next => exact knows m u eq

/-- A list whose items are unfolded to their values. -/
theorem Gives.list [SetOrder] (forward : d.IsForward) {unfold : Made → Unfolding Unfolded} {n : Nat}
    {tag : Tag} {items : List Nat} (node : d.node n = .sequence tag items)
    (inside : ∀ m ∈ (d.node n).held,
      Gives d (unfold (d.madeOf m)) (.closed (d.valueOf (d.madeOf m)))) :
    Gives d (ofContent unfold n (.list (items.map d.madeOf))) (.closed (d.valueOf (.part n))) := by
  rw [node] at inside
  have parts : Gives d ((items.map d.madeOf).mapM unfold)
      (((items.map d.madeOf).map d.valueOf).map .closed) := by
    rw [List.map_map]
    refine Gives.mapM fun x mem => ?_
    obtain ⟨m, held, rfl⟩ := List.mem_map.mp mem
    exact inside m held
  have kept := Gives.keep forward (n := n) (by rw [node]; rfl)
  rw [Document.valueOf_sequence forward node] at kept ⊢
  refine parts.bind ?_
  rw [values_closed, outerOf_closed]
  exact kept

/-- A map whose keys and values are unfolded to their values. -/
theorem Gives.map [SetOrder] (forward : d.IsForward) {unfold : Made → Unfolding Unfolded} {n : Nat}
    {tag : Tag} {es : List (Nat × Nat)} (node : d.node n = .mapping tag es)
    (inside : ∀ m ∈ (d.node n).held,
      Gives d (unfold (d.madeOf m)) (.closed (d.valueOf (d.madeOf m)))) :
    Gives d (ofContent unfold n (.map (d.madeEntries es))) (.closed (d.valueOf (.part n))) := by
  rw [node] at inside
  let p (x : Made) : Prop := Gives d (unfold x) (.closed (d.valueOf x))
  have both : ∀ e ∈ d.madeEntries es, p e.1 ∧ p e.2 :=
    Document.forall_madeEntries fun e mem =>
      ⟨inside e.1 (Document.mem_held_entries mem).1, inside e.2 (Document.mem_held_entries mem).2⟩
  have kept := Gives.keep forward (n := n) (by rw [node]; rfl)
  rw [Document.valueOf_mapping forward node] at kept ⊢
  exact (Gives.entries both).bind kept

/-- A part of a document is unfolded to its value. -/
theorem Gives.part [SetOrder] (forward : d.IsForward) (heldIn : d.IsHeldIn contents) {steps n : Nat}
    {around : List Nat} (holds : d.Holds n)
    (collection : (d.node n).isCollection = true) (outside : ∀ a ∈ around, a < n)
    (enough : d.nodes.size ≤ steps + n) :
    Gives d (part contents steps around n) (.closed (d.valueOf (.part n))) := by
  induction steps generalizing n around with
  | zero =>
    have := Document.lt_of_isCollection collection
    omega
  | succ steps ih =>
    have new : around.contains n = false := by
      rw [Bool.eq_false_iff]
      exact fun mem => absurd (outside n (List.contains_iff_mem.mp mem)) (Nat.lt_irrefl n)
    have inside : ∀ m ∈ (d.node n).held, Gives d
        (ofMade (Unfolding.part contents steps (n :: around)) (d.madeOf m))
        (.closed (d.valueOf (d.madeOf m))) := by
      intro m mem
      have later := (forward.later n m mem).1
      rcases d.madeOf_cases m with ⟨v, origin, eq⟩ | ⟨eq, collection⟩
      · rw [eq, Document.valueOf_scalar]
        exact .pure _
      · rw [eq]
        refine ih (holds.held mem) collection (fun a mem => ?_) (by omega)
        rcases List.mem_cons.mp mem with rfl | mem
        · exact later
        · exact Nat.lt_trans (outside a mem) later
    intro known knows
    have asked : known? around n known = ((known.getD n none).filter fun u =>
        u.outer.all around.contains, known) := rfl
    rw [Unfolding.part, heldIn.content n holds collection]
    rw [new, if_neg Bool.false_ne_true, bind_of_eq asked]
    cases eq : known.getD n none with
    | some u =>
      obtain ⟨-, rfl⟩ := knows n u eq
      exact ⟨known, rfl, knows⟩
    | none =>
      rw [Option.filter_none, Document.content]
      cases node : d.node n with
      | scalar tag text =>
        rw [node] at collection
        cases collection
      | sequence tag items => exact Gives.list forward node inside known knows
      | mapping tag entries => exact Gives.map forward node inside known knows

end Unfolding

/-- The value of a document is what its root stands for. -/
theorem Document.value_of_forward [SetOrder] {d : Document} (forward : d.IsForward)
    {contents : Array Content} (heldIn : d.IsHeldIn contents) :
    Document.value (d.madeOf d.root) contents = d.valueOf (d.madeOf d.root) := by
  rcases d.madeOf_cases d.root with ⟨v, origin, eq⟩ | ⟨eq, collection⟩
  · rw [eq, valueOf_scalar]
    rfl
  · rw [eq]
    have unfolds : Unfolding.Gives d (Unfolding.part contents (contents.size + 1) [] d.root)
        (.closed (d.valueOf (.part d.root))) :=
      .part forward heldIn .root collection (List.forall_mem_nil _) (by rw [heldIn.size]; omega)
    have nothing : Unfolding.KnowsOf d (Array.replicate contents.size none) := by
      intro n u eq
      simp [Array.getD] at eq
    obtain ⟨after, run, -⟩ := unfolds _ nothing
    show (Unfolding.part contents (contents.size + 1) [] d.root _).1.value = _
    rw [run]
    rfl

/-- What is loaded from a text is the value of its parts. -/
theorem load_of_forward [SetOrder] {text : String} {d : Document} (forward : d.IsForward)
    (inside : d.root < d.nodes.size) (read : Document.ofTokens (scan text.toList) = .ok d) :
    load text = .ok (d.valueOf (d.madeOf d.root)) := by
  obtain ⟨contents, build, heldIn⟩ := Document.exists_build forward inside
  rw [load, read]
  show (d.build).bind _ = _
  rw [build, ← Document.value_of_forward forward heldIn]
  rfl

end Yaml

end Gatehouse
