import Gatehouse.Workflow.Loading

namespace Gatehouse

namespace Yaml

theorem arrange_of_length_le_one (order : SetOrder) {members : List Value}
    (single : members.length ≤ 1) : order.arrange members = members := by
  have perm := order.perm members
  match members with
  | [] => exact perm.eq_nil
  | [_] => exact List.perm_singleton.mp perm

theorem exists_residues {members : List Value} (numbers : ∀ v ∈ members, (residue? v).isSome) :
    ∃ residues, (members.mapM fun v => (residue? v).map (v, ·)) = some residues := by
  induction members with
  | nil => exact ⟨[], rfl⟩
  | cons v members ih =>
    rw [List.forall_mem_cons] at numbers
    obtain ⟨r, first⟩ := Option.isSome_iff_exists.mp numbers.1
    obtain ⟨residues, rest⟩ := ih numbers.2
    exact ⟨(v, r) :: residues, by rw [List.mapM_cons, first, rest]; rfl⟩

/-- A single member is listed alike in all processes, and so are numbers. -/
theorem setOrder_eq (order other : SetOrder) {members : List Value}
    (settled : members.length ≤ 1 ∨ ∀ v ∈ members, (residue? v).isSome) :
    @setOrder order members = @setOrder other members := by
  unfold setOrder
  cases eq : members.mapM fun v => (residue? v).map (v, ·) with
  | some residues => rfl
  | none =>
    rcases settled with single | numbers
    · exact (arrange_of_length_le_one order single).trans
        (arrange_of_length_le_one other single).symm
    · obtain ⟨residues, listed⟩ := exists_residues numbers
      rw [eq] at listed
      cases listed

def Made.isNumber : Made → Bool
  | .scalar v _ => (residue? v).isSome
  | .part _ => false

/-- No set that another process may list otherwise: it has a single member, or only numbers. -/
def Content.isSettled : Content → Bool
  | .set items => items.length ≤ 1 || items.all Made.isNumber
  | _ => true

namespace Unfolding

theorem length_mapM (unfold : Made → Unfolding Unfolded) (items : List Made)
    (known : Array (Option Unfolded)) : (items.mapM unfold known).1.length = items.length := by
  induction items generalizing known with
  | nil => rfl
  | cons m items ih =>
    rw [List.mapM_cons]
    exact congrArg Nat.succ (ih (unfold m known).2)

theorem values_numbers {items : List Made} (numbers : ∀ m ∈ items, m.isNumber = true)
    (part : Nat → Unfolding Unfolded) (known : Array (Option Unfolded)) :
    ∀ v ∈ Unfolded.values (items.mapM (ofMade part) known).1, (residue? v).isSome := by
  induction items generalizing known with
  | nil => exact List.forall_mem_nil _
  | cons m items ih =>
    rw [List.forall_mem_cons] at numbers
    cases m with
    | part n => cases numbers.1
    | scalar v origin =>
      rw [List.mapM_cons]
      exact List.forall_mem_cons.mpr ⟨numbers.1, ih numbers.2 known⟩

theorem ofContent_eq (order other : SetOrder) {content : Content}
    (settled : content.isSettled = true) (part : Nat → Unfolding Unfolded) (n : Nat) :
    @ofContent order (ofMade part) n content = @ofContent other (ofMade part) n content := by
  cases content with
  | list items => rfl
  | pairs items => rfl
  | map es => rfl
  | set items =>
    funext known
    rw [Content.isSettled, Bool.or_eq_true, decide_eq_true_iff, List.all_eq_true] at settled
    have same : @setOrder order (Unfolded.values (items.mapM (ofMade part) known).1) =
        @setOrder other (Unfolded.values (items.mapM (ofMade part) known).1) := by
      refine setOrder_eq order other ?_
      rcases settled with single | numbers
      · left
        rw [Unfolded.values, List.length_map, length_mapM]
        exact single
      · exact Or.inr (values_numbers numbers part known)
    exact congrArg (fun members => keep n (.set members)
      (Unfolded.outerOf (items.mapM (ofMade part) known).1) (items.mapM (ofMade part) known).2) same

theorem isSettled_getD {contents : Array Content} (settled : contents.all Content.isSettled = true)
    (n : Nat) : (contents.getD n (.list [])).isSettled = true := by
  unfold Array.getD
  split
  next inside => exact Array.all_eq_true.mp settled n inside
  next => rfl

theorem part_eq (order other : SetOrder) {contents : Array Content}
    (settled : contents.all Content.isSettled = true) (steps : Nat) :
    @part order contents steps = @part other contents steps := by
  induction steps with
  | zero => rfl
  | succ steps ih =>
    funext around n
    unfold part
    rw [ih]
    simp only [ofContent_eq order other (isSettled_getD settled n)]

end Unfolding

theorem Document.value_eq (order other : SetOrder) {contents : Array Content}
    (settled : contents.all Content.isSettled = true) (made : Made) :
    @Document.value order made contents = @Document.value other made contents := by
  cases made with
  | scalar v origin => rfl
  | part n =>
    unfold value
    rw [Unfolding.part_eq order other settled]

/-- No set in the text is listed otherwise in another process. -/
def hasSettledSets (text : String) : Bool :=
  match Document.ofTokens (scan text.toList) with
  | .error _ => true
  | .ok d =>
    match d.build with
    | .error _ => true
    | .ok (_, contents) => contents.all Content.isSettled

/-- A text is read alike in all processes unless a set in it is listed otherwise in some. -/
theorem load_eq (order other : SetOrder) {text : String} (settled : hasSettledSets text = true) :
    @load order text = @load other text := by
  cases read : Document.ofTokens (scan text.toList) with
  | error fault => simp only [load, read, bind, Except.bind]
  | ok d =>
    cases built : d.build with
    | error fault => simp only [load, read, bind, Except.bind, built]
    | ok both =>
      unfold hasSettledSets at settled
      rw [read] at settled
      dsimp only at settled
      rw [built] at settled
      have same := Document.value_eq order other settled both.1
      simp only [load, read, bind, Except.bind, built, same]

example : hasSettledSets "[!!set {a}, !!set {1, 2.5}]" = true := by decide +kernel

example : hasSettledSets "!!set {a, b}" = false := by decide +kernel

end Yaml

namespace Workflow

/-- No set in the file, if it is a text, is listed otherwise in another process. -/
def hasSettledSets (t : FileTree) (p : Pathname) : Bool :=
  match t.read p with
  | .error _ => true
  | .ok content =>
    match textOf content with
    | .error _ => true
    | .ok text => Yaml.hasSettledSets text

theorem loadFile_eq (order other : Yaml.SetOrder) {t : FileTree} {p : Pathname}
    (settled : hasSettledSets t p = true) : @loadFile order t p = @loadFile other t p := by
  unfold loadFile
  cases read : t.read p with
  | error fault =>
    change loaded (.error (.unreadable ⟨fault, p⟩)) = loaded (.error (.unreadable ⟨fault, p⟩))
    rfl
  | ok content =>
    change loaded (textOf content >>= @ofText order) = loaded (textOf content >>= @ofText other)
    cases decoded : textOf content with
    | error fault =>
      change loaded (.error fault) = loaded (.error fault)
      rfl
    | ok text =>
      unfold hasSettledSets at settled
      rw [read] at settled
      dsimp only at settled
      rw [decoded] at settled
      change loaded (@ofText order text) = loaded (@ofText other text)
      unfold ofText
      rw [Yaml.load_eq order other settled]

end Workflow

end Gatehouse
