import Gatehouse.Proofs.JsonTokens

namespace Gatehouse

mutual

/-- How many parts a JSON document has, those of its keys among them. -/
def Json.size : Json → Nat
  | .leaf _ => 1
  | .list items => items.size + 1
  | .map entries => entries.size + 1

def JsonItems.size : JsonItems → Nat
  | .close _ => 0
  | .item _ v _ rest => v.size + rest.size

def JsonEntries.size : JsonEntries → Nat
  | .close _ => 0
  | .entry _ _ _ _ v _ rest => v.size + rest.size + 1

end

/-- The numbers of the items if the first one has the number `n`. -/
def JsonItems.ids (n : Nat) : JsonItems → List Nat
  | .close _ => []
  | .item _ v _ rest => n :: rest.ids (n + v.size)

/-- The numbers of the keys and their values. -/
def JsonEntries.ids (n : Nat) : JsonEntries → List (Nat × Nat)
  | .close _ => []
  | .entry _ _ _ _ v _ rest => (n, n + 1) :: rest.ids (n + 1 + v.size)

mutual

/-- The parts of a document whose own number is `n`. -/
def Json.nodes (n : Nat) : Json → List Yaml.Node
  | .leaf l => [.scalar l.tag l.word]
  | .list items => .sequence .sequence (items.ids (n + 1)) :: items.nodes (n + 1)
  | .map entries => .mapping .mapping (entries.ids (n + 1)) :: entries.nodes (n + 1)

def JsonItems.nodes (n : Nat) : JsonItems → List Yaml.Node
  | .close _ => []
  | .item _ v _ rest => v.nodes n ++ rest.nodes (n + v.size)

def JsonEntries.nodes (n : Nat) : JsonEntries → List Yaml.Node
  | .close _ => []
  | .entry _ key _ _ v _ rest =>
    .scalar .text (String.ofList (Json.loadedChars key)) :: (v.nodes (n + 1)
      ++ rest.nodes (n + 1 + v.size))

end

mutual

theorem Json.length_nodes (j : Json) (n : Nat) : (j.nodes n).length = j.size := by
  match j with
  | .leaf l => rfl
  | .list items => exact congrArg (· + 1) (items.length_nodes (n + 1))
  | .map entries => exact congrArg (· + 1) (entries.length_nodes (n + 1))

theorem JsonItems.length_nodes (items : JsonItems) (n : Nat) :
    (items.nodes n).length = items.size := by
  match items with
  | .close blanks => rfl
  | .item before v after rest =>
    rw [JsonItems.nodes, List.length_append, v.length_nodes, rest.length_nodes, JsonItems.size]

theorem JsonEntries.length_nodes (entries : JsonEntries) (n : Nat) :
    (entries.nodes n).length = entries.size := by
  match entries with
  | .close blanks => rfl
  | .entry before key middle between v after rest =>
    rw [JsonEntries.nodes, List.length_cons, List.length_append, v.length_nodes, rest.length_nodes,
      JsonEntries.size]

end

namespace Yaml.NodeReader

variable {ts : List Token} {handles : List (String × String)} {anchors : List (String × Nat)}
  {nodes : List Node} {n d : Nat}

/-- A token that a part begins with, if it has neither a name nor a tag. -/
def isNodeStart : Token → Bool
  | .scalar _ _ | .flowSequenceStart | .flowMappingStart => true
  | _ => false

theorem cases_of_isNodeStart {t : Token} (start : isNodeStart t = true) :
    (∃ isPlain text, t = .scalar isPlain text) ∨
      t = .flowSequenceStart ∨ t = .flowMappingStart := by
  cases t
  case scalar isPlain text => exact Or.inl ⟨isPlain, text, rfl⟩
  case flowSequenceStart => exact Or.inr (Or.inl rfl)
  case flowMappingStart => exact Or.inr (Or.inr rfl)
  all_goals cases start

/-- The place of a part is kept for it while it is read. -/
theorem readNode_start {t : Token} (start : isNodeStart t = true) {inEntry : Bool} {node : Node}
    {more : List Node} {after : List Token}
    (content : readContent n inEntry none nodes.length .absent
      ⟨t :: ts, handles, anchors, (nodes ++ [Node.empty]).toArray, d⟩ =
        .ok (node, ⟨after, handles, anchors, (nodes ++ .empty :: more).toArray, d⟩)) :
    readNode (n + 1) inEntry ⟨t :: ts, handles, anchors, nodes.toArray, d⟩ =
      .ok (nodes.length, ⟨after, handles, anchors, (nodes ++ node :: more).toArray, d⟩) := by
  have reserved : reserve ⟨t :: ts, handles, anchors, nodes.toArray, d⟩ =
      .ok (nodes.length, ⟨t :: ts, handles, anchors, (nodes ++ [Node.empty]).toArray, d⟩) := by
    simp [reserve]
  have filled : fill nodes.length node
      ⟨after, handles, anchors, (nodes ++ .empty :: more).toArray, d⟩ =
        .ok ((), ⟨after, handles, anchors, (nodes ++ node :: more).toArray, d⟩) := by
    simp [fill]
  have plain : properties ⟨t :: ts, handles, anchors, nodes.toArray, d⟩ =
      .ok ((none, .absent), ⟨t :: ts, handles, anchors, nodes.toArray, d⟩) := by
    rcases cases_of_isNodeStart start with ⟨_, _, rfl⟩ | rfl | rfl <;> rfl
  have read : readNode (n + 1) inEntry ⟨t :: ts, handles, anchors, nodes.toArray, d⟩ =
      (do
        let marks ← properties
        let id ← reserve
        let node ← readContent n inEntry marks.1 id marks.2
        fill id node
        return id : ReadNode Nat) ⟨t :: ts, handles, anchors, nodes.toArray, d⟩ := by
    rw [readNode]
    rcases cases_of_isNodeStart start with ⟨_, _, rfl⟩ | rfl | rfl <;> rfl
  rw [read, bind_of_ok plain]
  dsimp only
  rw [bind_of_ok reserved, bind_of_ok content, bind_of_ok filled]
  rfl

theorem readNode_scalar {isPlain inEntry : Bool} {text : String} :
    readNode (n + 2) inEntry ⟨.scalar isPlain text :: ts, handles, anchors, nodes.toArray, d⟩ =
      .ok (nodes.length, ⟨ts, handles, anchors,
        (nodes ++ [Node.scalar (Tagging.absent.ofScalar isPlain text) text]).toArray, d⟩) := by
  refine readNode_start rfl ?_
  rw [readContent]
  rfl

/-- What stands between brackets is read one level deeper. -/
theorem inside_of_ok {α : Type} {read : ReadNode α} {x : α} {after : List Token}
    {a more : Array Node} (shallow : d < mostDepth)
    (h : read ⟨ts, handles, anchors, a, d + 1⟩ = .ok (x, ⟨after, handles, anchors, more, d + 1⟩)) :
    inside read ⟨ts, handles, anchors, a, d⟩ = .ok (x, ⟨after, handles, anchors, more, d⟩) := by
  rw [inside, if_neg (Nat.not_le.mpr shallow)]
  show (read ⟨ts, handles, anchors, a, d + 1⟩).map _ = _
  rw [h]
  rfl

theorem readNode_sequence {inEntry : Bool} {items : List Nat} {more : List Node}
    {after : List Token} (shallow : d < mostDepth)
    (h : readFlowItems n true ⟨ts, handles, anchors, (nodes ++ [Node.empty]).toArray, d + 1⟩ =
      .ok (items, ⟨after, handles, anchors, (nodes ++ .empty :: more).toArray, d + 1⟩)) :
    readNode (n + 2) inEntry ⟨.flowSequenceStart :: ts, handles, anchors, nodes.toArray, d⟩ =
      .ok (nodes.length, ⟨after, handles, anchors,
        (nodes ++ .sequence .sequence items :: more).toArray, d⟩) := by
  refine readNode_start rfl ?_
  rw [readContent]
  show (inside (readFlowItems n true) >>= fun items => pure (Node.sequence .sequence items)) _ = _
  exact bind_of_ok (inside_of_ok shallow h)

theorem readNode_mapping {inEntry : Bool} {entries : List (Nat × Nat)} {more : List Node}
    {after : List Token} (shallow : d < mostDepth)
    (h : readFlowEntries n true ⟨ts, handles, anchors, (nodes ++ [Node.empty]).toArray, d + 1⟩ =
      .ok (entries, ⟨after, handles, anchors, (nodes ++ .empty :: more).toArray, d + 1⟩)) :
    readNode (n + 2) inEntry ⟨.flowMappingStart :: ts, handles, anchors, nodes.toArray, d⟩ =
      .ok (nodes.length, ⟨after, handles, anchors,
        (nodes ++ .mapping .mapping entries :: more).toArray, d⟩) := by
  refine readNode_start rfl ?_
  rw [readContent]
  show (inside (readFlowEntries n true) >>= fun es => pure (Node.mapping .mapping es)) _ = _
  exact bind_of_ok (inside_of_ok shallow h)

variable {a a₁ a₂ : Array Node} {isFirst : Bool}

theorem readFlowItems_close {handles : List (String × String)} :
    readFlowItems (n + 1) isFirst ⟨.flowSequenceEnd :: ts, handles, anchors, a, d⟩ =
      .ok ([], ⟨ts, handles, anchors, a, d⟩) := by
  rw [readFlowItems]
  rfl

theorem readFlowItems_item {t : Token} (start : isNodeStart t = true) {item : Nat} {more : List Nat}
    {between after : List Token}
    (first : readNode n false ⟨t :: ts, handles, anchors, a, d⟩ =
      .ok (item, ⟨between, handles, anchors, a₁, d⟩))
    (others : readFlowItems n false ⟨between, handles, anchors, a₁, d⟩ =
      .ok (more, ⟨after, handles, anchors, a₂, d⟩)) :
    readFlowItems (n + 1) isFirst
        ⟨Json.separator .flowEntry isFirst ++ t :: ts, handles, anchors, a, d⟩ =
      .ok (item :: more, ⟨after, handles, anchors, a₂, d⟩) := by
  have read : readFlowItems (n + 1) isFirst
        ⟨Json.separator .flowEntry isFirst ++ t :: ts, handles, anchors, a, d⟩ =
      (do
        let item ← readNode n false
        return item :: (← readFlowItems n false) : ReadNode (List Nat))
          ⟨t :: ts, handles, anchors, a, d⟩ := by
    rw [readFlowItems]
    rcases cases_of_isNodeStart start with ⟨_, _, rfl⟩ | rfl | rfl <;> cases isFirst <;> rfl
  rw [read, bind_of_ok first, bind_of_ok others]
  rfl

theorem readFlowEntries_close {handles : List (String × String)} :
    readFlowEntries (n + 1) isFirst ⟨.flowMappingEnd :: ts, handles, anchors, a, d⟩ =
      .ok ([], ⟨ts, handles, anchors, a, d⟩) := by
  rw [readFlowEntries]
  rfl

theorem readFlowEntries_entry {t u : Token} (start : isNodeStart t = true)
    (start' : isNodeStart u = true) {key value : Nat} {more : List (Nat × Nat)}
    {us after between : List Token} {a₃ : Array Node}
    (first : readNode n false ⟨t :: .value :: u :: us, handles, anchors, a, d⟩ =
      .ok (key, ⟨.value :: u :: us, handles, anchors, a₁, d⟩))
    (second : readNode n false ⟨u :: us, handles, anchors, a₁, d⟩ =
      .ok (value, ⟨between, handles, anchors, a₂, d⟩))
    (others : readFlowEntries n false ⟨between, handles, anchors, a₂, d⟩ =
      .ok (more, ⟨after, handles, anchors, a₃, d⟩)) :
    readFlowEntries (n + 1) isFirst
        ⟨Json.separator .flowEntry isFirst ++ .key :: t :: .value :: u :: us, handles, anchors,
          a, d⟩ =
      .ok ((key, value) :: more, ⟨after, handles, anchors, a₃, d⟩) := by
  have read : readFlowEntries (n + 1) isFirst
        ⟨Json.separator .flowEntry isFirst ++ .key :: t :: .value :: u :: us, handles, anchors,
          a, d⟩ =
      (do
        let key ← readNode n false
        let value ← entryValue [.flowEntry, .flowMappingEnd] (readNode n false)
        return (key, value) :: (← readFlowEntries n false) : ReadNode (List (Nat × Nat)))
          ⟨t :: .value :: u :: us, handles, anchors, a, d⟩ := by
    rw [readFlowEntries]
    rcases cases_of_isNodeStart start with ⟨_, _, rfl⟩ | rfl | rfl <;> cases isFirst <;> rfl
  have valued : entryValue [.flowEntry, .flowMappingEnd] (readNode n false)
      ⟨.value :: u :: us, handles, anchors, a₁, d⟩ =
        .ok (value, ⟨between, handles, anchors, a₂, d⟩) := by
    rw [← second]
    rcases cases_of_isNodeStart start' with ⟨_, _, rfl⟩ | rfl | rfl <;> rfl
  rw [read, bind_of_ok first, bind_of_ok valued, bind_of_ok others]
  rfl

end Yaml.NodeReader

namespace Json

theorem exists_tokens_cons (j : Json) :
    ∃ t ts, j.tokens = t :: ts ∧ Yaml.NodeReader.isNodeStart t = true := by
  cases j with
  | leaf l => exact ⟨_, _, rfl, rfl⟩
  | list items => exact ⟨_, _, rfl, rfl⟩
  | map entries => exact ⟨_, _, rfl, rfl⟩

end Json

theorem JsonItems.tokens_ne_nil (items : JsonItems) (isFirst : Bool) :
    items.tokens isFirst ≠ [] := by
  cases items with
  | close blanks => exact List.cons_ne_nil _ _
  | item before v after rest =>
    obtain ⟨t, more, eq, -⟩ := v.exists_tokens_cons
    rw [JsonItems.tokens, eq]
    simp

theorem JsonEntries.tokens_ne_nil (entries : JsonEntries) (isFirst : Bool) :
    entries.tokens isFirst ≠ [] := by
  cases entries with
  | close blanks => exact List.cons_ne_nil _ _
  | entry before key middle between v after rest =>
    rw [JsonEntries.tokens]
    simp

section

open Yaml NodeReader

variable {handles : List (String × String)} {anchors : List (String × Nat)}

mutual

/-- The tokens of a JSON document are read as its parts, with two steps for each token. -/
theorem Json.readNode_tokens (j : Json) {n d : Nat} (enough : 2 * j.tokens.length ≤ n)
    (shallow : d + j.depth ≤ mostDepth) (inEntry : Bool) (nodes : List Node) (ts : List Token) :
    readNode n inEntry ⟨j.tokens ++ ts, handles, anchors, nodes.toArray, d⟩ =
      .ok (nodes.length, ⟨ts, handles, anchors, (nodes ++ j.nodes nodes.length).toArray, d⟩) := by
  match j, n with
  | .leaf l, n + 2 =>
    rw [Json.nodes, ← l.ofScalar_word]
    exact readNode_scalar
  | .list items, n + 2 =>
    rw [Json.depth] at shallow
    rw [Json.tokens, List.length_cons] at enough
    have inner := items.readFlowItems_tokens (n := n) (d := d + 1) true (by omega) (by omega)
      (nodes ++ [Node.empty]) ts
    rw [List.append_assoc, List.length_append] at inner
    exact readNode_sequence (by omega) inner
  | .map entries, n + 2 =>
    rw [Json.depth] at shallow
    rw [Json.tokens, List.length_cons] at enough
    have inner := entries.readFlowEntries_tokens (n := n) (d := d + 1) true (by omega)
      (by omega) (nodes ++ [Node.empty]) ts
    rw [List.append_assoc, List.length_append] at inner
    exact readNode_mapping (by omega) inner
  | j, 0 | j, 1 =>
    obtain ⟨t, more, eq, -⟩ := j.exists_tokens_cons
    rw [eq, List.length_cons] at enough
    omega

theorem JsonItems.readFlowItems_tokens (items : JsonItems) {n d : Nat} (isFirst : Bool)
    (enough : 2 * (items.tokens isFirst).length ≤ n) (shallow : d + items.depth ≤ mostDepth)
    (nodes : List Node) (ts : List Token) :
    readFlowItems n isFirst ⟨items.tokens isFirst ++ ts, handles, anchors, nodes.toArray, d⟩ =
      .ok (items.ids nodes.length,
        ⟨ts, handles, anchors, (nodes ++ items.nodes nodes.length).toArray, d⟩) := by
  match items, n with
  | .close blanks, n + 1 =>
    rw [JsonItems.nodes, List.append_nil]
    exact readFlowItems_close
  | .item before v after rest, n + 1 =>
    simp only [JsonItems.depth, JsonItems.tokens, List.length_append] at enough shallow
    obtain ⟨t, more, eq, start⟩ := v.exists_tokens_cons
    have some : v.tokens ≠ [] := by rw [eq]; exact List.cons_ne_nil _ _
    have long := List.length_pos_iff.mpr some
    have longer := List.length_pos_iff.mpr (rest.tokens_ne_nil false)
    have first := v.readNode_tokens (n := n) (d := d) (by omega) (by omega) false nodes
      (rest.tokens false ++ ts)
    have others := rest.readFlowItems_tokens (n := n) (d := d) false (by omega) (by omega)
      (nodes ++ v.nodes nodes.length) ts
    rw [List.length_append, v.length_nodes, List.append_assoc] at others
    rw [eq, List.cons_append] at first
    rw [JsonItems.tokens, List.append_assoc, List.append_assoc, eq, List.cons_append]
    exact readFlowItems_item start first others
  | items, 0 =>
    have := List.length_pos_iff.mpr (items.tokens_ne_nil isFirst)
    omega

theorem JsonEntries.readFlowEntries_tokens (entries : JsonEntries) {n d : Nat} (isFirst : Bool)
    (enough : 2 * (entries.tokens isFirst).length ≤ n) (shallow : d + entries.depth ≤ mostDepth)
    (nodes : List Node) (ts : List Token) :
    readFlowEntries n isFirst ⟨entries.tokens isFirst ++ ts, handles, anchors, nodes.toArray, d⟩ =
      .ok (entries.ids nodes.length,
        ⟨ts, handles, anchors, (nodes ++ entries.nodes nodes.length).toArray, d⟩) := by
  match entries, n with
  | .close blanks, n + 1 =>
    rw [JsonEntries.nodes, List.append_nil]
    exact readFlowEntries_close
  | .entry before key middle between v after rest, n + 3 =>
    simp only [JsonEntries.depth, JsonEntries.tokens, List.length_append, List.length_cons]
      at enough shallow
    obtain ⟨t, more, eq, start⟩ := v.exists_tokens_cons
    have second := v.readNode_tokens (n := n + 2) (d := d) (by omega) (by omega) false
      (nodes ++ [.scalar .text (String.ofList (Json.loadedChars key))]) (rest.tokens false ++ ts)
    have others := rest.readFlowEntries_tokens (n := n + 2) (d := d) false (by omega)
      (by omega) (nodes ++ .scalar .text (String.ofList (Json.loadedChars key))
        :: v.nodes (nodes.length + 1)) ts
    simp only [List.length_append, List.length_cons, v.length_nodes, List.append_assoc,
      List.length_nil, Nat.zero_add, List.cons_append, List.nil_append] at second others
    have shift : nodes.length + (v.size + 1) = nodes.length + 1 + v.size := by omega
    rw [shift] at others
    rw [eq, List.cons_append] at second
    simp only [JsonEntries.tokens, List.append_assoc, List.cons_append, eq]
    exact readFlowEntries_entry rfl start readNode_scalar second others
  | entries, 0 =>
    have := List.length_pos_iff.mpr (entries.tokens_ne_nil isFirst)
    omega
  | .entry before key middle between v after rest, 1
  | .entry before key middle between v after rest, 2 =>
    simp only [JsonEntries.tokens, List.length_append, List.length_cons] at enough
    omega

end

end

namespace Json

open Yaml

/-- The parts of a JSON document that is not too deep. -/
theorem ofTokens_tokens (j : Json) (shallow : j.depth ≤ NodeReader.mostDepth) :
    Document.ofTokens j.tokens = .ok ⟨(j.nodes 0).toArray, 0⟩ := by
  have read : NodeReader.readWhole NodeReader.defaultHandles j.tokens =
      .ok (⟨(j.nodes 0).toArray, 0⟩, []) := by
    have whole : NodeReader.readNode (4 * j.tokens.length + 4) false
        ⟨j.tokens ++ [], NodeReader.defaultHandles, [], [].toArray, 0⟩ =
          .ok (0, ⟨[], NodeReader.defaultHandles, [], (j.nodes 0).toArray, 0⟩) :=
      j.readNode_tokens (by omega) (by omega) false [] []
    rw [List.append_nil] at whole
    rw [NodeReader.readWhole]
    show (NodeReader.readNode _ false ⟨j.tokens, _, [], #[], 0⟩).bind _ = _
    rw [whole]
    rfl
  obtain ⟨t, ts, eq, start⟩ := j.exists_tokens_cons
  have first : NodeReader.readDocument j.tokens = .ok (⟨(j.nodes 0).toArray, 0⟩, []) := by
    rw [← read, NodeReader.readDocument, eq]
    rcases NodeReader.cases_of_isNodeStart start with ⟨_, _, rfl⟩ | rfl | rfl <;> rfl
  rw [Document.ofTokens, first]
  rfl

end Json

end Gatehouse
