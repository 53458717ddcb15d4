import Gatehouse.Yaml.Content

namespace Gatehouse

namespace Yaml

theorem getD_setIfInBounds {α : Type} (xs : Array α) (i j : Nat) (a e : α) :
    (xs.setIfInBounds i a).getD j e = if i = j ∧ i < xs.size then a else xs.getD j e := by
  simp only [Array.getD_eq_getD_getElem?, Array.getElem?_setIfInBounds]
  by_cases same : i = j
  · subst same
    by_cases inside : i < xs.size <;> simp [inside]
  · simp [same]

theorem setIfInBounds_of_getD {α : Type} {xs : Array α} {i : Nat} {a e : α} (h : xs.getD i e = a) :
    xs.setIfInBounds i a = xs := by
  by_cases inside : i < xs.size
  · have same : xs[i] = a := by simpa [Array.getD, inside] using h
    rw [Array.setIfInBounds, dif_pos inside, ← same, Array.set_getElem_self]
  · rw [Array.setIfInBounds, dif_neg inside]

namespace Node

/-- The numbers of the parts that a part holds. -/
def held : Node → List Nat
  | scalar _ _ => []
  | sequence _ items => items
  | mapping _ entries => entries.flatMap fun e => [e.1, e.2]

def isCollection : Node → Bool
  | scalar _ _ => false
  | _ => true

theorem isCollection_of_mem_held {node : Node} {n : Nat} (h : n ∈ node.held) :
    node.isCollection = true := by
  cases node with
  | scalar tag text => cases h
  | sequence tag items => rfl
  | mapping tag entries => rfl

end Node

namespace Document

variable (d : Document)

/-- Scalars have values, lists and maps no tags of their own, and keys are texts. -/
def IsSimple : Node → Prop
  | .scalar tag text => ∃ v, scalarValue tag text = .ok v
  | .sequence tag _ => tag = .sequence
  | .mapping tag entries => tag = .mapping ∧ ∀ e ∈ entries, ∃ text, d.node e.1 = .scalar .text text

structure IsForward : Prop where
  simple (n : Nat) : d.IsSimple (d.node n)
  later (n m : Nat) : m ∈ (d.node n).held → n < m ∧ m < d.nodes.size

/-- What is made of a part. -/
def madeOf (n : Nat) : Made :=
  match d.node n with
  | .scalar tag text =>
    .scalar ((scalarValue tag text).toOption.getD .null)
      (if tag = .float && Build.isNanWord text then 0 else n + 1)
  | _ => .part n

def madeEntries (entries : List (Nat × Nat)) : List (Made × Made) :=
  entries.foldl (fun made e => Made.insertEntry (d.madeOf e.1) (d.madeOf e.2) made) []

/-- What a list or map holds. -/
def content (n : Nat) : Content :=
  match d.node n with
  | .mapping _ entries => .map (d.madeEntries entries)
  | node => .list (node.held.map d.madeOf)

/-- The parts that the document holds, directly or not. -/
inductive Holds : Nat → Prop
  | root : Holds d.root
  | held {n m : Nat} : Holds n → m ∈ (d.node n).held → Holds m

variable {d}

theorem lt_of_isCollection {n : Nat} (h : (d.node n).isCollection = true) : n < d.nodes.size := by
  refine Nat.lt_of_not_le fun outside => ?_
  rw [node, Array.getD, dif_neg (Nat.not_lt.mpr outside)] at h
  cases h

end Document

namespace Build

variable {d : Document} {b : Build} {n : Nat}

/-- The part has been made. -/
def isMade (b : Build) (n : Nat) : Bool := (b.made.getD n none).isSome

/-- The state in which a part has been made. -/
def withMade (d : Document) (b : Build) (n : Nat) : Build :=
  if b.isMade n then b
  else { b with
    made := b.made.setIfInBounds n (some (d.madeOf n))
    waiting := if (d.node n).isCollection then n :: b.waiting else b.waiting }

/-- What has been made so far is made of the parts of the document. -/
structure IsOf (d : Document) (b : Build) : Prop where
  nodes : b.nodes = d.nodes
  madeSize : b.made.size = d.nodes.size
  contentsSize : b.contents.size = d.nodes.size
  made (n : Nat) (m : Made) : b.made.getD n none = some m → m = d.madeOf n

theorem IsOf.withMade (h : b.IsOf d) (n : Nat) : (b.withMade d n).IsOf d := by
  unfold Build.withMade
  split
  next => exact h
  next =>
    refine { h with madeSize := ?_, made := fun m made eq => ?_ }
    · rw [Array.size_setIfInBounds, h.madeSize]
    · rw [getD_setIfInBounds] at eq
      split at eq
      next same => rw [← same.1, Option.some.inj eq]
      next => exact h.made m made eq

theorem isMade_withMade {m : Nat} (h : b.IsOf d) (inside : n < d.nodes.size) :
    (b.withMade d n).isMade m = (b.isMade m || n == m) := by
  unfold Build.withMade
  split
  next made =>
    by_cases same : n = m
    · rw [← same, made, Bool.true_or]
    · rw [beq_eq_false_iff_ne.mpr same, Bool.or_false]
  next =>
    unfold isMade
    dsimp only
    rw [getD_setIfInBounds, h.madeSize]
    by_cases same : n = m
    · simp [same, same ▸ inside]
    · simp [same]

theorem node_run (h : b.IsOf d) (n : Nat) : node n b = .ok (d.node n, b) := by
  rw [Document.node, ← h.nodes]
  rfl

theorem tagOf_run (h : b.IsOf d) (n : Nat) : tagOf n b = .ok ((d.node n).tag, b) :=
  bind_of_ok (node_run h n)

theorem isScalar_of_scalarValue {tag : Tag} {text : String} {v : Value}
    (h : scalarValue tag text = .ok v) : tag.isScalar = true ∧ tag.isCollection = false := by
  cases tag <;> first | exact ⟨rfl, rfl⟩ | cases h

theorem makeScalar_run (h : b.IsOf d) {tag : Tag} {text : String} {v : Value}
    (eq : d.node n = .scalar tag text) (value : scalarValue tag text = .ok v) :
    makeScalar n tag b = .ok (d.madeOf n, b) := by
  have whole : textOf mostSteps n b = .ok (text, b) := by
    rw [show mostSteps = 979 + 1 from rfl, textOf, bind_of_ok (node_run h n), eq]
    rfl
  have made : d.madeOf n = .scalar v (if tag = .float && isNanWord text then 0 else n + 1) := by
    rw [Document.madeOf, eq]
    dsimp only
    rw [value]
    rfl
  rw [makeScalar, (isScalar_of_scalarValue value).1, made]
  dsimp only
  rw [Bool.not_true, if_neg Bool.false_ne_true, bind_of_ok whole, bind_of_ok (node_run h n), eq,
    Node.isScalar, Bool.not_true, Bool.and_false, if_neg Bool.false_ne_true, value]
  rfl

variable (forward : d.IsForward) (h : b.IsOf d)

include forward

theorem isCollection_tag (n : Nat) : (d.node n).tag.isCollection = (d.node n).isCollection := by
  have simple := forward.simple n
  cases eq : d.node n with
  | scalar tag text =>
    rw [eq] at simple
    obtain ⟨v, value⟩ := simple
    exact (isScalar_of_scalarValue value).2
  | sequence tag items =>
    rw [eq] at simple
    rw [show tag = .sequence from simple]
    rfl
  | mapping tag entries =>
    rw [eq] at simple
    rw [Node.tag, show tag = .mapping from simple.1]
    rfl

include h

theorem make_run (n : Nat) : make n b = .ok (d.madeOf n, b.withMade d n) := by
  unfold make withMade isMade
  rw [bind_of_ok (rfl : (get : Building Build) b = .ok (b, b))]
  cases made : b.made.getD n none with
  | some m =>
    rw [← h.made n m made]
    rfl
  | none =>
    dsimp only
    rw [bind_of_ok (tagOf_run h n), isCollection_tag forward]
    have simple := forward.simple n
    cases eq : d.node n with
    | scalar tag text =>
      rw [eq] at simple
      obtain ⟨v, value⟩ := simple
      rw [Node.isCollection, if_neg Bool.false_ne_true]
      exact bind_of_ok (makeScalar_run h eq value)
    | sequence tag items =>
      rw [Document.madeOf, eq]
      rfl
    | mapping tag entries =>
      rw [Document.madeOf, eq]
      rfl

theorem mapM_make_run (items : List Nat) :
    items.mapM make b = .ok (items.map d.madeOf, items.foldl (Build.withMade d) b) := by
  induction items generalizing b with
  | nil => rfl
  | cons n items ih =>
    rw [List.mapM_cons, bind_of_ok (make_run forward h n), bind_of_ok (ih (h.withMade n))]
    rfl

omit forward h in
theorem madeOf_key {text : String} (key : d.node n = .scalar .text text) :
    d.madeOf n = .scalar (.text text) (n + 1) := by
  rw [Document.madeOf, key]
  rfl

theorem makeKey_run {text : String} (key : d.node n = .scalar .text text) :
    makeKey n b = .ok (d.madeOf n, b.withMade d n) := by
  rw [makeKey, bind_of_ok (make_run forward h n), madeOf_key key]
  rfl

theorem makeEntries_run {entries : List (Nat × Nat)}
    (keys : ∀ e ∈ entries, ∃ text, d.node e.1 = .scalar .text text) (made : List (Made × Made)) :
    makeEntries made entries b =
      .ok (entries.foldl (fun made e => Made.insertEntry (d.madeOf e.1) (d.madeOf e.2) made) made,
        (entries.flatMap fun e => [e.1, e.2]).foldl (Build.withMade d) b) := by
  induction entries generalizing b made with
  | nil => rfl
  | cons e entries ih =>
    rw [List.forall_mem_cons] at keys
    obtain ⟨⟨text, key⟩, others⟩ := keys
    rw [makeEntries, bind_of_ok (makeKey_run forward h key),
      bind_of_ok (make_run forward (h.withMade e.1) e.2), ih ((h.withMade e.1).withMade e.2) others]
    rfl

section

variable {entries : List (Nat × Nat)}
  (keys : ∀ e ∈ entries, ∃ text, d.node e.1 = .scalar .text text)

omit forward

include keys

theorem plainKeys_run : entries.forM plainKey b = .ok ((), b) := by
  induction entries with
  | nil => rfl
  | cons e entries ih =>
    rw [List.forall_mem_cons] at keys
    obtain ⟨⟨text, key⟩, others⟩ := keys
    have plain : plainKey e b = .ok ((), b) := by
      rw [plainKey, bind_of_ok (node_run h e.1), key]
      rfl
    rw [List.forM_eq_forM, List.forM_cons, bind_of_ok plain]
    exact ih others

theorem takeMerge_run : takeMerge entries b = .ok (none, b) := by
  induction entries with
  | nil => rfl
  | cons e entries ih =>
    rw [List.forall_mem_cons] at keys
    obtain ⟨⟨text, key⟩, others⟩ := keys
    rw [takeMerge, bind_of_ok (tagOf_run h e.1), key]
    exact bind_of_ok (ih others)

/-- Without a key that merges nothing is merged. -/
theorem mergedEntries_run (eq : d.node n = .mapping .mapping entries) :
    mergedEntries n b = .ok (entries, b) := by
  have own : entriesOf n b = .ok (entries, b) := by
    rw [entriesOf, bind_of_ok (node_run h n), eq]
    rfl
  have none : takeMerges 1 b.merges n b = .ok ([], b) := by
    cases b.merges with
    | zero => rfl
    | succ left =>
      rw [takeMerges, bind_of_ok own]
      exact bind_of_ok (takeMerge_run h keys)
  have kept : setEntries n entries b = .ok ((), b) := by
    have same : b.nodes.setIfInBounds n (.mapping .mapping entries) = b.nodes := by
      rw [h.nodes]
      exact setIfInBounds_of_getD eq
    rw [setEntries, bind_of_ok (tagOf_run h n), eq]
    show Except.ok ((), { b with nodes := b.nodes.setIfInBounds n (.mapping .mapping entries) }) = _
    rw [same]
  show mergeWith (takeMerges 1 b.merges) n b = _
  rw [mergeWith, bind_of_ok own, bind_of_ok (plainKeys_run h keys), bind_of_ok none,
    bind_of_ok own, List.nil_append, bind_of_ok kept]
  exact own

end

theorem contentOf_run (n : Nat) (collection : (d.node n).isCollection = true) :
    contentOf n b = .ok (d.content n, (d.node n).held.foldl (Build.withMade d) b) := by
  have simple := forward.simple n
  unfold Document.content
  cases eq : d.node n with
  | scalar tag text =>
    rw [eq] at collection
    cases collection
  | sequence tag items =>
    rw [eq] at simple
    rw [contentOf, bind_of_ok (node_run h n), eq, show tag = .sequence from simple]
    exact bind_of_ok (mapM_make_run forward h items)
  | mapping tag entries =>
    rw [eq] at simple
    obtain ⟨rfl, keys⟩ := simple
    rw [contentOf, bind_of_ok (node_run h n), eq]
    show (mergedEntries n >>= _) b = _
    rw [bind_of_ok (mergedEntries_run h keys eq)]
    exact bind_of_ok (makeEntries_run forward h keys [])

omit forward h

/-- A list or map has what it holds, and all of that has been made. -/
structure IsFilled (d : Document) (b : Build) (n : Nat) : Prop where
  content : b.contents.getD n (.list []) = d.content n
  held (m : Nat) : m ∈ (d.node n).held → b.isMade m = true

/-- Lists and maps that have been made are filled, or they are `left` to be filled at this level, or
they wait. Those that wait have numbers from `low` on, and those that are left at most one less. -/
structure Filling (d : Document) (low : Nat) (left : List Nat) (b : Build) : Prop extends
    b.IsOf d where
  now (n : Nat) : n ∈ left → low ≤ n + 1 ∧ (d.node n).isCollection = true
  later (n : Nat) : n ∈ b.waiting → low ≤ n ∧ (d.node n).isCollection = true
  filled (n : Nat) : b.isMade n = true → (d.node n).isCollection = true →
    n ∈ left ∨ n ∈ b.waiting ∨ b.IsFilled d n

variable {low : Nat} {left : List Nat}

theorem IsFilled.withMade (h : b.IsFilled d n) (of : b.IsOf d) {m : Nat}
    (inside : m < d.nodes.size) : (b.withMade d m).IsFilled d n where
  content := by
    rw [← h.content]
    unfold Build.withMade
    split <;> rfl
  held k mem := by rw [isMade_withMade of inside, h.held k mem, Bool.true_or]

theorem Filling.withMade (h : b.Filling d low left) {m : Nat} (from' : low ≤ m)
    (inside : m < d.nodes.size) : (b.withMade d m).Filling d low left := by
  cases made : b.isMade m with
  | true => rwa [Build.withMade, if_pos made]
  | false =>
    have waiting : (b.withMade d m).waiting =
        if (d.node m).isCollection then m :: b.waiting else b.waiting := by
      rw [Build.withMade, if_neg (by rw [made]; exact Bool.false_ne_true)]
    refine { h.toIsOf.withMade m with now := h.now, later := ?_, filled := ?_ }
    · intro n mem
      rw [waiting] at mem
      split at mem
      next collection =>
        rcases List.mem_cons.mp mem with rfl | mem
        · exact ⟨from', collection⟩
        · exact h.later n mem
      next => exact h.later n mem
    · intro n known collection
      rw [isMade_withMade h.toIsOf inside, Bool.or_eq_true, beq_iff_eq] at known
      rw [waiting]
      rcases known with known | rfl
      · rcases h.filled n known collection with now | later | filled
        · exact Or.inl now
        · refine Or.inr (Or.inl ?_)
          split
          next => exact List.mem_cons_of_mem m later
          next => exact later
        · exact Or.inr (Or.inr (filled.withMade h.toIsOf inside))
      · rw [if_pos collection]
        exact Or.inr (Or.inl List.mem_cons_self)

theorem Filling.foldl_withMade (h : b.Filling d low left) {ms : List Nat}
    (inside : ∀ m ∈ ms, low ≤ m ∧ m < d.nodes.size) :
    (ms.foldl (Build.withMade d) b).Filling d low left ∧
      ∀ n, (ms.foldl (Build.withMade d) b).isMade n = (b.isMade n || ms.contains n) := by
  induction ms generalizing b with
  | nil => exact ⟨h, fun n => by rw [List.contains_nil, Bool.or_false]; rfl⟩
  | cons m ms ih =>
    rw [List.forall_mem_cons] at inside
    obtain ⟨filling, made⟩ := ih (h.withMade inside.1.1 inside.1.2) inside.2
    refine ⟨filling, fun n => ?_⟩
    rw [List.foldl_cons, made, isMade_withMade h.toIsOf inside.1.2, List.contains_cons,
      Bool.or_assoc, BEq.comm]

/-- A list or map that is left is filled. -/
theorem Filling.exists_fill (forward : d.IsForward) (h : b.Filling d low (n :: left)) :
    ∃ after, fill n b = .ok ((), after) ∧ after.Filling d low left ∧
      ∀ m, b.isMade m = true → after.isMade m = true := by
  obtain ⟨near, collection⟩ := h.now n List.mem_cons_self
  have inside : ∀ m ∈ (d.node n).held, low ≤ m ∧ m < d.nodes.size := fun m mem => by
    obtain ⟨later, inside⟩ := forward.later n m mem
    exact ⟨by omega, inside⟩
  obtain ⟨filling, made⟩ := h.foldl_withMade inside
  have run := contentOf_run forward h.toIsOf n collection
  generalize (d.node n).held.foldl (Build.withMade d) b = c at filling made run
  have first : n < c.contents.size := by
    rw [filling.contentsSize]
    exact d.lt_of_isCollection collection
  refine ⟨{ c with contents := c.contents.setIfInBounds n (d.content n) }, ?_, ?_, ?_⟩
  · rw [fill, bind_of_ok run]
    rfl
  · refine { filling.toIsOf with
      contentsSize := ?_, now := ?_, later := filling.later, filled := ?_ }
    · rw [Array.size_setIfInBounds, filling.contentsSize]
    · exact fun m mem => h.now m (List.mem_cons_of_mem n mem)
    · intro m known collection
      by_cases same : n = m
      · subst same
        refine Or.inr (Or.inr ⟨?_, fun k mem => ?_⟩)
        · dsimp only
          rw [getD_setIfInBounds, if_pos ⟨rfl, first⟩]
        · show c.isMade k = true
          rw [made, List.contains_iff_mem.mpr mem, Bool.or_true]
      · rcases filling.filled m known collection with now | later | filled
        · exact Or.inl ((List.mem_cons.mp now).resolve_left (Ne.symm same))
        · exact Or.inr (Or.inl later)
        · refine Or.inr (Or.inr ⟨?_, filled.held⟩)
          dsimp only
          rw [getD_setIfInBounds, if_neg fun both => same both.1, filled.content]
  · intro m known
    show c.isMade m = true
    rw [made, known, Bool.true_or]

theorem Filling.exists_forM_fill (forward : d.IsForward) (h : b.Filling d low left) :
    ∃ after, left.forM fill b = .ok ((), after) ∧ after.Filling d low [] ∧
      ∀ m, b.isMade m = true → after.isMade m = true := by
  induction left generalizing b with
  | nil => exact ⟨b, rfl, h, fun m made => made⟩
  | cons n left ih =>
    obtain ⟨c, first, filling, kept⟩ := h.exists_fill forward
    obtain ⟨after, others, filling, kept'⟩ := ih filling
    refine ⟨after, ?_, filling, fun m made => kept' m (kept m made)⟩
    rw [List.forM_eq_forM, List.forM_cons, bind_of_ok first]
    exact others

/-- What waits is left to be filled at the next level. -/
theorem Filling.nextLevel (h : b.Filling d low []) :
    ({ b with waiting := [] } : Build).Filling d (low + 1) b.waiting.reverse :=
  { h.toIsOf with
    now := fun n mem => by
      obtain ⟨later, collection⟩ := h.later n (List.mem_reverse.mp mem)
      exact ⟨Nat.succ_le_succ later, collection⟩
    later := List.forall_mem_nil _
    filled := fun n made collection => by
      rcases h.filled n made collection with now | later | filled
      · cases now
      · exact Or.inl (List.mem_reverse.mpr later)
      · exact Or.inr (Or.inr ⟨filled.content, filled.held⟩) }

/-- With a level for each number all lists and maps are filled. -/
theorem Filling.exists_fillAll (forward : d.IsForward) (h : b.Filling d low []) {levels : Nat}
    (enough : d.nodes.size ≤ low + levels) :
    ∃ after, fillAll levels b = .ok ((), after) ∧ after.IsOf d ∧
      (∀ n, b.isMade n = true → after.isMade n = true) ∧
      ∀ n, after.isMade n = true → (d.node n).isCollection = true → after.IsFilled d n := by
  induction levels generalizing b low with
  | zero =>
    refine ⟨b, rfl, h.toIsOf, fun n made => made, fun n made collection => ?_⟩
    rcases h.filled n made collection with now | later | filled
    · cases now
    · have := Document.lt_of_isCollection collection
      have := (h.later n later).1
      omega
    · exact filled
  | succ levels ih =>
    cases waiting : b.waiting with
    | nil =>
      refine ⟨b, ?_, h.toIsOf, fun n made => made, fun n made collection => ?_⟩
      · rw [fillAll, bind_of_ok (rfl : (get : Building Build) b = .ok (b, b)), waiting]
        rfl
      · rcases h.filled n made collection with now | later | filled
        · cases now
        · rw [waiting] at later
          cases later
        · exact filled
    | cons n rest =>
      obtain ⟨c, round, filling, kept⟩ := h.nextLevel.exists_forM_fill forward
      obtain ⟨after, others, of, kept', filled⟩ := ih filling (by omega)
      refine ⟨after, ?_, of, fun m made => kept' m (kept m made), filled⟩
      rw [waiting] at round
      rw [fillAll, bind_of_ok (rfl : (get : Building Build) b = .ok (b, b)), waiting]
      show ((n :: rest).reverse.forM fill >>= fun _ => fillAll levels)
        ({ b with waiting := [] } : Build) = _
      rw [bind_of_ok round]
      exact others

/-- Where all that has been made is filled, all that the document holds has been made. -/
theorem isMade_of_holds (root : b.isMade d.root = true)
    (filled : ∀ n, b.isMade n = true → (d.node n).isCollection = true → b.IsFilled d n)
    (holds : d.Holds n) : b.isMade n = true := by
  induction holds with
  | root => exact root
  | held _ mem made => exact (filled _ made (Node.isCollection_of_mem_held mem)).held _ mem

end Build

namespace Document

variable {d : Document}

/-- The lists and maps that the document holds have what they hold. -/
structure IsHeldIn (d : Document) (contents : Array Content) : Prop where
  size : contents.size = d.nodes.size
  content (n : Nat) : d.Holds n → (d.node n).isCollection = true →
    contents.getD n (.list []) = d.content n

/-- Nothing has been made yet. -/
def unbuilt (d : Document) : Build :=
  ⟨d.nodes, d.mergeCount, Array.replicate d.nodes.size none,
    Array.replicate d.nodes.size (.list []), []⟩

theorem filling_unbuilt : d.unbuilt.Filling d 0 [] :=
  have unmade (n : Nat) : d.unbuilt.made.getD n none = none := by
    simp [unbuilt, Array.getD]
  { nodes := rfl
    madeSize := Array.size_replicate
    contentsSize := Array.size_replicate
    made := fun n m eq => by rw [unmade] at eq; cases eq
    now := List.forall_mem_nil _
    later := List.forall_mem_nil _
    filled := fun n made => by rw [Build.isMade, unmade] at made; cases made }

/-- What a document is made of, and what its lists and maps hold. -/
theorem exists_build (forward : d.IsForward) (inside : d.root < d.nodes.size) :
    ∃ contents, d.build = .ok (d.madeOf d.root, contents) ∧ d.IsHeldIn contents := by
  have first := filling_unbuilt (d := d)
  have enough : d.nodes.size ≤ 0 + d.steps := by
    rw [steps]
    omega
  obtain ⟨after, run, of, kept, filled⟩ :=
    (first.withMade (Nat.zero_le d.root) inside).exists_fillAll forward enough
  have root : after.isMade d.root = true := by
    refine kept d.root ?_
    rw [Build.isMade_withMade first.toIsOf inside, beq_self_eq_true, Bool.or_true]
  refine ⟨after.contents, ?_, of.contentsSize, fun n holds collection =>
    (filled n (Build.isMade_of_holds root filled holds) collection).content⟩
  have whole : (do
      let made ← Build.make d.root
      Build.fillAll d.steps
      return made : Building Made) d.unbuilt = .ok (d.madeOf d.root, after) := by
    rw [bind_of_ok (Build.make_run forward first.toIsOf d.root), bind_of_ok run]
    rfl
  rw [build]
  show (StateT.run _ d.unbuilt : Except Fault (Made × Build)).bind _ = _
  rw [show StateT.run _ _ = _ from whole]
  rfl

end Document

end Yaml

end Gatehouse
