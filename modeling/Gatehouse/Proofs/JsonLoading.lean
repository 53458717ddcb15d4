import Gatehouse.Proofs.ForwardValue
import Gatehouse.Proofs.JsonFaithful
import Gatehouse.Proofs.JsonNodes
import Gatehouse.Workflow.Loading

namespace Gatehouse

namespace Yaml.Document

variable {d : Document} {n : Nat}

/-- The parts stand in the document from the number `n` on. -/
def Lays (d : Document) (n : Nat) (nodes : List Node) : Prop := nodes <+: d.nodes.toList.drop n

theorem Lays.left {front back : List Node} (h : d.Lays n (front ++ back)) : d.Lays n front :=
  (List.prefix_append front back).trans h

theorem Lays.right {front back : List Node} (h : d.Lays n (front ++ back)) :
    d.Lays (n + front.length) back := by
  obtain ⟨more, eq⟩ := h
  refine ⟨more, ?_⟩
  rw [← List.drop_drop, ← eq, List.append_assoc, List.drop_left]

theorem Lays.tail {node : Node} {more : List Node} (h : d.Lays n (node :: more)) :
    d.Lays (n + 1) more := by
  have parted : d.Lays n ([node] ++ more) := h
  exact parted.right

theorem Lays.lt_size {node : Node} {more : List Node} (h : d.Lays n (node :: more)) :
    n < d.nodes.size := by
  have longer : (node :: more).length ≤ (d.nodes.toList.drop n).length := List.IsPrefix.length_le h
  have size : d.nodes.toList.length = d.nodes.size := Array.length_toList
  rw [List.length_cons, List.length_drop, size] at longer
  omega

theorem Lays.head {node : Node} {more : List Node} (h : d.Lays n (node :: more)) :
    d.node n = node := by
  obtain ⟨rest, eq⟩ := h
  have first : d.nodes.toList[n]? = some node := by
    rw [← Nat.add_zero n, ← List.getElem?_drop, ← eq]
    rfl
  rw [Document.node, Array.getD_eq_getD_getElem?, ← Array.getElem?_toList, first]
  rfl

/-- The part may stand in a document whose parts hold later ones only. -/
structure IsForwardAt (d : Document) (n : Nat) : Prop where
  simple : d.IsSimple (d.node n)
  later (m : Nat) : m ∈ (d.node n).held → n < m ∧ m < d.nodes.size

end Yaml.Document

open Yaml

theorem Json.exists_nodes_cons (j : Json) (n : Nat) : ∃ node more, j.nodes n = node :: more := by
  cases j <;> exact ⟨_, _, rfl⟩

variable {d : Document}

theorem JsonItems.lt_of_mem_ids (items : JsonItems) {n m : Nat} (laid : d.Lays n (items.nodes n))
    (mem : m ∈ items.ids n) : n ≤ m ∧ m < d.nodes.size := by
  match items with
  | .close blanks => cases mem
  | .item before v after rest =>
    rcases List.mem_cons.mp mem with rfl | mem
    · obtain ⟨node, more, eq⟩ := v.exists_nodes_cons m
      rw [JsonItems.nodes, eq] at laid
      exact ⟨Nat.le_refl m, laid.lt_size⟩
    · have behind := laid.right
      rw [v.length_nodes] at behind
      obtain ⟨later, inside⟩ := rest.lt_of_mem_ids behind mem
      exact ⟨by omega, inside⟩

theorem JsonEntries.of_mem_ids (entries : JsonEntries) {n : Nat} {e : Nat × Nat}
    (laid : d.Lays n (entries.nodes n)) (mem : e ∈ entries.ids n) :
    n ≤ e.1 ∧ e.1 < e.2 ∧ e.2 < d.nodes.size ∧ ∃ text, d.node e.1 = .scalar .text text := by
  match entries with
  | .close blanks => cases mem
  | .entry before key middle between v after rest =>
    rcases List.mem_cons.mp mem with rfl | mem
    · have value := laid.tail
      obtain ⟨node, more, eq⟩ := v.exists_nodes_cons (n + 1)
      rw [eq] at value
      exact ⟨Nat.le_refl n, Nat.lt_succ_self n, value.lt_size, _, laid.head⟩
    · have behind := laid.tail.right
      rw [v.length_nodes] at behind
      obtain ⟨later, others⟩ := rest.of_mem_ids behind mem
      exact ⟨by omega, others⟩

mutual

/-- All parts of a JSON document hold later ones only. -/
theorem Json.isForwardAt (j : Json) (readable : j.isReadable = true) {n : Nat}
    (laid : d.Lays n (j.nodes n)) {m : Nat} (least : n ≤ m) (most : m < n + j.size) :
    d.IsForwardAt m := by
  match j with
  | .leaf l =>
    have eq : m = n := by
      rw [Json.size] at most
      omega
    rw [eq]
    refine ⟨?_, ?_⟩ <;> rw [laid.head]
    · exact ⟨l.loaded, l.scalarValue_word readable⟩
    · exact fun m mem => absurd mem List.not_mem_nil
  | .list items =>
    rcases Nat.eq_or_lt_of_le least with rfl | later
    · refine ⟨?_, ?_⟩ <;> rw [laid.head]
      · rfl
      · intro m mem
        obtain ⟨later, inside⟩ := items.lt_of_mem_ids laid.tail mem
        exact ⟨later, inside⟩
    · rw [Json.size] at most
      exact items.isForwardAt readable laid.tail later (by omega)
  | .map entries =>
    rcases Nat.eq_or_lt_of_le least with rfl | later
    · refine ⟨?_, ?_⟩ <;> rw [laid.head]
      · exact ⟨rfl, fun e mem => (entries.of_mem_ids laid.tail mem).2.2.2⟩
      · intro m mem
        obtain ⟨e, mem, which⟩ := List.mem_flatMap.mp mem
        obtain ⟨later, between, inside, -⟩ := entries.of_mem_ids laid.tail mem
        simp only [List.mem_cons, List.not_mem_nil, or_false] at which
        omega
    · rw [Json.size] at most
      exact entries.isForwardAt readable laid.tail later (by omega)

theorem JsonItems.isForwardAt (items : JsonItems) (readable : items.isReadable = true) {n : Nat}
    (laid : d.Lays n (items.nodes n)) {m : Nat} (least : n ≤ m) (most : m < n + items.size) :
    d.IsForwardAt m := by
  match items with
  | .close blanks =>
    rw [JsonItems.size] at most
    omega
  | .item before v after rest =>
    simp only [JsonItems.isReadable, Bool.and_eq_true] at readable
    obtain ⟨⟨⟨-, value⟩, -⟩, others⟩ := readable
    have behind := laid.right
    rw [v.length_nodes] at behind
    rw [JsonItems.size] at most
    by_cases first : m < n + v.size
    · exact v.isForwardAt value laid.left least first
    · exact rest.isForwardAt others behind (by omega) (by omega)

theorem JsonEntries.isForwardAt (entries : JsonEntries) (readable : entries.isReadable = true)
    {n : Nat} (laid : d.Lays n (entries.nodes n)) {m : Nat} (least : n ≤ m)
    (most : m < n + entries.size) : d.IsForwardAt m := by
  match entries with
  | .close blanks =>
    rw [JsonEntries.size] at most
    omega
  | .entry before key middle between v after rest =>
    simp only [JsonEntries.isReadable, Bool.and_eq_true] at readable
    obtain ⟨⟨⟨⟨⟨-, -⟩, -⟩, value⟩, -⟩, others⟩ := readable
    have behind := laid.tail.right
    rw [v.length_nodes] at behind
    rw [JsonEntries.size] at most
    rcases Nat.eq_or_lt_of_le least with rfl | later
    · refine ⟨?_, ?_⟩ <;> rw [laid.head]
      · exact ⟨_, rfl⟩
      · exact fun m mem => absurd mem List.not_mem_nil
    · by_cases first : m < n + 1 + v.size
      · exact v.isForwardAt value laid.tail.left later first
      · exact rest.isForwardAt others behind (by omega) (by omega)

end

namespace Yaml

/-- Keys that are texts are told apart by their texts. -/
def Made.IsTextKey (d : Document) (m : Made) : Prop :=
  ∃ n text, d.node n = .scalar .text text ∧ m = d.madeOf n

theorem Made.sameKey_of_isTextKey {a b : Made} (ha : a.IsTextKey d) (hb : b.IsTextKey d) :
    a.sameKey b = (d.valueOf a).sameKey (d.valueOf b) := by
  obtain ⟨m, text, key, rfl⟩ := ha
  obtain ⟨n, text', key', rfl⟩ := hb
  rw [Build.madeOf_key key, Build.madeOf_key key', Document.valueOf_scalar, Document.valueOf_scalar]
  show (m + 1 == n + 1 || text == text') = (text == text')
  by_cases same : m = n
  · subst same
    rw [key] at key'
    rw [(Node.scalar.inj key').2, beq_self_eq_true, Bool.true_or, beq_self_eq_true]
  · rw [beq_eq_false_iff_ne.mpr fun eq => same (Nat.succ.inj eq), Bool.false_or]

theorem Made.map_insertEntry {key value : Made} {made : List (Made × Made)} (hkey : key.IsTextKey d)
    (h : ∀ e ∈ made, e.1.IsTextKey d) :
    (insertEntry key value made).map (fun e => (d.valueOf e.1, d.valueOf e.2)) =
      Value.insertEntry (d.valueOf key) (d.valueOf value)
        (made.map fun e => (d.valueOf e.1, d.valueOf e.2)) := by
  induction made with
  | nil => rfl
  | cons e made ih =>
    rw [List.forall_mem_cons] at h
    rw [insertEntry, Made.sameKey_of_isTextKey h.1 hkey, List.map_cons, Value.insertEntry]
    split
    next => rfl
    next => rw [List.map_cons, ih h.2]

/-- The entries of a map are the values of its parts, one after another. -/
theorem Document.map_madeEntries {entries : List (Nat × Nat)}
    (keys : ∀ e ∈ entries, ∃ text, d.node e.1 = .scalar .text text) :
    .map ((d.madeEntries entries).map fun e => (d.valueOf e.1, d.valueOf e.2)) =
      Value.ofEntries
        (entries.map fun e => (d.valueOf (d.madeOf e.1), d.valueOf (d.madeOf e.2))) := by
  have further (made : List (Made × Made)) (h : ∀ e ∈ made, e.1.IsTextKey d) :
      (entries.foldl (fun made e => Made.insertEntry (d.madeOf e.1) (d.madeOf e.2) made) made).map
          (fun e => (d.valueOf e.1, d.valueOf e.2)) =
        (entries.map fun e => (d.valueOf (d.madeOf e.1), d.valueOf (d.madeOf e.2))).foldl
          (fun m e => Value.insertEntry e.1 e.2 m)
          (made.map fun e => (d.valueOf e.1, d.valueOf e.2)) := by
    induction entries generalizing made with
    | nil => rfl
    | cons e entries ih =>
      rw [List.forall_mem_cons] at keys
      obtain ⟨⟨text, key⟩, others⟩ := keys
      have hkey : (d.madeOf e.1).IsTextKey d := ⟨e.1, text, key, rfl⟩
      rw [List.foldl_cons, List.map_cons, List.foldl_cons, ← Made.map_insertEntry hkey h]
      refine ih others _ fun e' mem => ?_
      exact (Made.forall_insertEntry (p := fun m => m.IsTextKey d) (q := fun _ => True)
        (fun e mem => ⟨h e mem, trivial⟩) hkey trivial e' mem).1
  exact congrArg Value.map (further [] (List.forall_mem_nil _))

end Yaml

mutual

/-- What a JSON document stands for where it is laid out. -/
theorem Json.valueOf_madeOf (j : Json) (forward : d.IsForward) (readable : j.isReadable = true)
    {n : Nat} (laid : d.Lays n (j.nodes n)) : d.valueOf (d.madeOf n) = j.loaded := by
  match j with
  | .leaf l =>
    rw [Document.madeOf, laid.head]
    dsimp only
    rw [Document.valueOf_scalar, l.scalarValue_word readable]
    rfl
  | .list items =>
    have made : d.madeOf n = .part n := by rw [Document.madeOf, laid.head]
    rw [made, Document.valueOf_sequence forward laid.head,
      items.valueOf_madeOf forward readable laid.tail]
    rfl
  | .map entries =>
    have made : d.madeOf n = .part n := by rw [Document.madeOf, laid.head]
    have keys : ∀ e ∈ entries.ids (n + 1), ∃ text, d.node e.1 = .scalar .text text := fun e mem =>
      (entries.of_mem_ids laid.tail mem).2.2.2
    rw [made, Document.valueOf_mapping forward laid.head, Document.map_madeEntries keys,
      entries.valueOf_madeOf forward readable laid.tail]
    rfl

theorem JsonItems.valueOf_madeOf (items : JsonItems) (forward : d.IsForward)
    (readable : items.isReadable = true) {n : Nat} (laid : d.Lays n (items.nodes n)) :
    ((items.ids n).map d.madeOf).map d.valueOf = items.loaded := by
  match items with
  | .close blanks => rfl
  | .item before v after rest =>
    simp only [JsonItems.isReadable, Bool.and_eq_true] at readable
    obtain ⟨⟨⟨-, value⟩, -⟩, others⟩ := readable
    have behind := laid.right
    rw [v.length_nodes] at behind
    rw [JsonItems.ids, List.map_cons, List.map_cons, v.valueOf_madeOf forward value laid.left,
      rest.valueOf_madeOf forward others behind]
    rfl

theorem JsonEntries.valueOf_madeOf (entries : JsonEntries) (forward : d.IsForward)
    (readable : entries.isReadable = true) {n : Nat} (laid : d.Lays n (entries.nodes n)) :
    (entries.ids n).map (fun e => (d.valueOf (d.madeOf e.1), d.valueOf (d.madeOf e.2))) =
      entries.loaded := by
  match entries with
  | .close blanks => rfl
  | .entry before key middle between v after rest =>
    simp only [JsonEntries.isReadable, Bool.and_eq_true] at readable
    obtain ⟨⟨⟨⟨⟨-, -⟩, -⟩, value⟩, -⟩, others⟩ := readable
    have behind := laid.tail.right
    rw [v.length_nodes] at behind
    rw [JsonEntries.ids, List.map_cons, v.valueOf_madeOf forward value laid.tail.left,
      rest.valueOf_madeOf forward others behind, Build.madeOf_key laid.head,
      Document.valueOf_scalar]
    rfl

end

namespace Json

/-- The document that the parts make up. -/
def document (j : Json) : Document := ⟨(j.nodes 0).toArray, 0⟩

theorem lays_nodes (j : Json) : j.document.Lays 0 (j.nodes 0) := List.prefix_refl _

theorem size_nodes_document (j : Json) : j.document.nodes.size = j.size :=
  j.length_nodes 0

theorem isForward_document {j : Json} (readable : j.isReadable = true) : j.document.IsForward := by
  have each (n : Nat) : j.document.IsForwardAt n := by
    by_cases inside : n < j.size
    · exact j.isForwardAt readable j.lays_nodes (Nat.zero_le n) (by omega)
    · have beyond : j.document.node n = .empty :=
        Document.node_of_size_le (by rw [j.size_nodes_document]; omega)
      refine ⟨?_, ?_⟩ <;> rw [beyond]
      · exact ⟨.null, rfl⟩
      · exact fun m mem => absurd mem List.not_mem_nil
  exact ⟨fun n => (each n).simple, fun n => (each n).later⟩

/-- A JSON document that is laid out to be readable and is not too deep is loaded. -/
theorem load_chars [Yaml.SetOrder] {j : Json} (nested : j.isLeaf = false)
    (readable : j.isReadable = true) (shallow : j.depth ≤ NodeReader.mostDepth)
    {before after : List Blank} (spaced : isSpaced before = true)
    (spacedAfter : isSpaced after = true) :
    Yaml.load (String.ofList (blankChars before ++ (j.chars ++ blankChars after))) =
      .ok j.loaded := by
  have read : Document.ofTokens (scan
      (String.ofList (blankChars before ++ (j.chars ++ blankChars after))).toList) =
        .ok j.document := by
    rw [String.toList_ofList, scan_chars nested readable spaced spacedAfter]
    exact j.ofTokens_tokens shallow
  have forward := isForward_document readable
  obtain ⟨node, more, eq⟩ := j.exists_nodes_cons 0
  have laid := j.lays_nodes
  rw [load_of_forward forward (eq ▸ laid : j.document.Lays 0 (node :: more)).lt_size read,
    ← j.valueOf_madeOf forward readable laid]
  rfl

/-- A list stands for the steps of a workflow. -/
def asWorkflow : Value → Value
  | .list xs => .map [(.text "workflow", .list xs)]
  | v => v

theorem ofDocument_loaded {j : Json} (nested : j.isLeaf = false) :
    Workflow.ofDocument j.loaded =
      (Workflow.ofValue (asWorkflow j.loaded)).mapError .workflow := by
  cases j with
  | leaf l => cases nested
  | list items => rfl
  | map entries => rfl

/-- A JSON document that is laid out to be readable and is not too deep is read as the workflow that
its loaded value is, and so as the one that its value is if it is faithful. -/
theorem load_workflow_eq [Yaml.SetOrder] {j : Json} (nested : j.isLeaf = false)
    (readable : j.isReadable = true) (shallow : j.depth ≤ NodeReader.mostDepth)
    {before after : List Blank} (spaced : isSpaced before = true)
    (spacedAfter : isSpaced after = true) :
    Workflow.load (String.ofList (blankChars before ++ (j.chars ++ blankChars after))) =
        Workflow.loaded ((Workflow.ofValue (asWorkflow j.loaded)).mapError .workflow) ∧
      (j.isFaithful = true →
        Workflow.load (String.ofList (blankChars before ++ (j.chars ++ blankChars after))) =
          Workflow.loaded ((Workflow.ofValue (asWorkflow j.value)).mapError .workflow)) := by
  have loads : Workflow.load (String.ofList (blankChars before ++ (j.chars ++ blankChars after))) =
      Workflow.loaded ((Workflow.ofValue (asWorkflow j.loaded)).mapError .workflow) := by
    rw [Workflow.load, Workflow.ofText, load_chars nested readable shallow spaced spacedAfter,
      ← ofDocument_loaded nested]
    rfl
  exact ⟨loads, fun faithful => by rw [loads, j.loaded_eq_value faithful]⟩

/-- A numeral that is loaded as a text, and one under a key that keeps its value. -/
theorem load_workflow_eq_numerals :
    Workflow.load "[1e3]" = Workflow.loaded ((Workflow.ofValue
        (.map [(.text "workflow", .list [.text "1e3"])])).mapError .workflow) ∧
      Workflow.load "\x7b\"credits\": 12\x7d\n" = Workflow.loaded ((Workflow.ofValue
        (.map [(.text "credits", .int 12)])).mapError .workflow) := by
  constructor
  · exact (load_workflow_eq (j := .list (.item [] (.leaf (.number
      ⟨false, .led 0 [], none, some ⟨false, none, 3, []⟩⟩)) [] (.close [])))
      rfl rfl (by decide) (show isSpaced [] = true from rfl) (show isSpaced [] = true from rfl)).1
  · exact (load_workflow_eq (j := .map (.entry [] [.raw 'c' rfl, .raw 'r' rfl, .raw 'e' rfl,
      .raw 'd' rfl, .raw 'i' rfl, .raw 't' rfl, .raw 's' rfl] [] [.space] (.leaf (.number
        ⟨false, .led 0 [2], none, none⟩)) [] (.close [])))
      rfl (by decide) (by decide) (show isSpaced [] = true from rfl)
      (show isSpaced [.lineFeed] = true from rfl)).2 rfl

end Json

end Gatehouse
