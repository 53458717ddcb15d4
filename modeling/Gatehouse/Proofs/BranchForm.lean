import Gatehouse.Branch.Discovery

namespace Gatehouse

/-- The completion fields of the steps, in order and each once. -/
def tokensOf (steps : List PlacedStep) : List String :=
  (steps.filterMap fun s => s.step.completionToken?).foldl addNew []

/-- The steps whose key has not come before. -/
def firstOfKeys : List PlacedStep → List PlacedStep
  | [] => []
  | s :: rest => s :: (firstOfKeys rest).filter fun t => t.key ≠ s.key

theorem places_placeSteps (steps : List Step) :
    (placeSteps steps).map PlacedStep.place = List.range' 0 steps.length := by
  rw [placeSteps, List.map_map, ← List.zipIdx_map_snd 0 steps]
  rfl

theorem mem_tokensOf {steps : List PlacedStep} {token : String} :
    token ∈ tokensOf steps ↔ ∃ s ∈ steps, s.step.completionToken? = some token := by
  simp [tokensOf, mem_foldl_addNew]

theorem tokensOf_concat (steps : List PlacedStep) (s : PlacedStep) :
    tokensOf (steps ++ [s]) = s.step.completionToken?.toList.foldl addNew (tokensOf steps) := by
  cases h : s.step.completionToken? with
  | none => simp [tokensOf, h]
  | some token => simp [tokensOf, h]

theorem mem_firstOfKeys_of_new {before after : List PlacedStep} {s : PlacedStep}
    (new : ∀ t ∈ before, t.key ≠ s.key) : s ∈ firstOfKeys (before ++ s :: after) := by
  induction before with
  | nil => exact List.mem_cons_self
  | cons t rest ih =>
    have hrest := ih fun u hu => new u (List.mem_cons_of_mem _ hu)
    have hne : s.key ≠ t.key := Ne.symm (new t List.mem_cons_self)
    exact List.mem_cons_of_mem _ (List.mem_filter.mpr ⟨hrest, by simpa using hne⟩)

theorem sublist_firstOfKeys (steps : List PlacedStep) : (firstOfKeys steps).Sublist steps := by
  induction steps with
  | nil => exact List.Sublist.slnil
  | cons s rest ih => exact (List.filter_sublist.trans ih).cons_cons s

theorem exists_key_firstOfKeys {steps : List PlacedStep} {s : PlacedStep} (mem : s ∈ steps) :
    ∃ t ∈ firstOfKeys steps, t.key = s.key := by
  induction steps with
  | nil => cases mem
  | cons u rest ih =>
    by_cases same : u.key = s.key
    · exact ⟨u, List.mem_cons_self, same⟩
    · have later : s ∈ rest := by
        rcases List.mem_cons.mp mem with rfl | later
        · exact absurd rfl same
        · exact later
      obtain ⟨t, ht, eq⟩ := ih later
      have kept : t.key ≠ u.key := fun h => same (h.symm.trans eq)
      exact ⟨t, List.mem_cons_of_mem _ (List.mem_filter.mpr ⟨ht, by simpa using kept⟩), eq⟩

namespace Branch

variable {b : Branch} {s t : PlacedStep}

theorem contains_iff : b.contains s = true ↔ ∃ t ∈ b.steps, t.key = s.key := by
  simp [contains]

theorem add_of_contains (h : b.contains s = true) : b.add s = b := by
  simp [add, add?, h]

theorem add_of_not_contains (h : b.contains s = false) :
    b.add s = ⟨b.steps ++ [s], s.step.completionToken?.toList.foldl addNew b.states⟩ := by
  simp [add, add?, h]

theorem contains_add : (b.add s).contains t = (b.contains t || s.key == t.key) := by
  cases h : b.contains s with
  | false => rw [add_of_not_contains h]; simp [contains]
  | true =>
    rw [add_of_contains h]
    by_cases hk : s.key = t.key
    · obtain ⟨u, hu, he⟩ := contains_iff.mp h
      have : b.contains t = true := contains_iff.mpr ⟨u, hu, he.trans hk⟩
      simp [this]
    · simp [hk]

/-- A filter that drops the steps with a key can be put behind one that drops them first. -/
theorem filter_of_otherKeys {k : StepKey} {p q : PlacedStep → Bool}
    (same : ∀ t : PlacedStep, t.key = k → p t = false)
    (other : ∀ t : PlacedStep, t.key ≠ k → p t = q t) (steps : List PlacedStep) :
    steps.filter p = (steps.filter fun t => t.key ≠ k).filter q := by
  rw [List.filter_filter]
  refine List.filter_congr fun t _ => ?_
  by_cases hk : t.key = k
  · simp [hk, same t hk]
  · simp [hk, other t hk]

/-- Each key is taken once, by the step that comes first. -/
theorem steps_foldl_add (xs : List PlacedStep) (b : Branch) :
    (xs.foldl add b).steps = b.steps ++ (firstOfKeys xs).filter fun s => !b.contains s := by
  induction xs generalizing b with
  | nil => simp [firstOfKeys]
  | cons x rest ih =>
    rw [List.foldl_cons, ih]
    cases h : b.contains x with
    | true =>
      obtain ⟨u, hu, known⟩ := contains_iff.mp h
      have skip := filter_of_otherKeys (k := x.key) (p := fun s => !b.contains s)
        (fun t hk => by simp [contains_iff.mpr ⟨u, hu, known.trans hk.symm⟩]) (fun _ _ => rfl)
        (firstOfKeys rest)
      rw [add_of_contains h, skip]
      simp [firstOfKeys, h]
    | false =>
      have taken := filter_of_otherKeys (k := x.key) (p := fun s => !(b.add x).contains s)
        (q := fun s => !b.contains s) (fun t hk => by simp [contains_add, hk])
        (fun t hk => by simp [contains_add, Ne.symm hk]) (firstOfKeys rest)
      rw [taken, add_of_not_contains h]
      simp [firstOfKeys, h]

/-- The fields of a branch are those that its steps set. -/
def Settled (b : Branch) : Prop := b.states = tokensOf b.steps

theorem settled_empty : empty.Settled := rfl

theorem Settled.add (hb : b.Settled) (s : PlacedStep) : (b.add s).Settled := by
  cases h : b.contains s with
  | true => rwa [add_of_contains h]
  | false =>
    rw [add_of_not_contains h, Settled, tokensOf_concat, ← hb]

theorem Settled.foldl_add (hb : b.Settled) (xs : List PlacedStep) :
    (xs.foldl Branch.add b).Settled := by
  induction xs generalizing b with
  | nil => exact hb
  | cons x rest ih => exact ih (hb.add x)

end Branch

theorem referencedNames_eq (heuristics : List Heuristic) (steps : List PlacedStep) :
    referencedNames heuristics steps =
      (steps.flatMap (fun s => s.step.conditionNames)
        ++ (heuristics.filter fun h => steps.any fun s => h.applies s.step).map
          Heuristic.condition).foldl addNew [] := by
  simp only [referencedNames, List.foldl_append, List.foldl_flatMap, List.foldl_map,
    List.foldl_filter]

theorem nodup_referencedNames (heuristics : List Heuristic) (steps : List PlacedStep) :
    (referencedNames heuristics steps).Nodup := by
  rw [referencedNames_eq]
  exact nodup_foldl_addNew List.nodup_nil

theorem mem_referencedNames {heuristics : List Heuristic} {steps : List PlacedStep} {n : String} :
    n ∈ referencedNames heuristics steps ↔ ∃ s ∈ steps, isGatedBy heuristics n s = true := by
  rw [referencedNames_eq, mem_foldl_addNew]
  simp only [List.not_mem_nil, false_or, List.mem_append, List.mem_flatMap, List.mem_map,
    List.mem_filter, List.any_eq_true, isGatedBy, Bool.or_eq_true, List.contains_iff_mem,
    Bool.and_eq_true, beq_iff_eq]
  constructor
  · rintro (⟨s, hs, hn⟩ | ⟨h, ⟨hh, s, hs, ha⟩, rfl⟩)
    · exact ⟨s, hs, Or.inl hn⟩
    · exact ⟨s, hs, Or.inr ⟨h, hh, rfl, ha⟩⟩
  · rintro ⟨s, hs, hn | ⟨h, hh, rfl, ha⟩⟩
    · exact Or.inl ⟨s, hs, hn⟩
    · exact Or.inr ⟨h, ⟨hh, s, hs, ha⟩, rfl⟩

theorem result_linkDependent (condition : String) (anchors : List String) (b : Branch)
    (s : PlacedStep) :
    (linkDependent condition anchors b s).result =
      if waitsOn condition anchors s then b.add s else b := by
  unfold linkDependent Branch.add
  cases b.add? s with
  | none => simp
  | some b' =>
    cases waitsOn condition anchors s with
    | true => rfl
    | false => rfl

theorem result_linkReview (condition : String) (b : Branch) (s : PlacedStep) :
    (linkReview condition b s).result = if reviewsAffidavit s then b.add s else b := by
  unfold linkReview Branch.add
  cases reviewsAffidavit s with
  | false => rfl
  | true =>
    cases b.add? s with
    | none => rfl
    | some b' => rfl

def seedBranch (heuristics : List Heuristic) (steps : List PlacedStep) (condition : String) :
    Branch :=
  (steps.filter (isGatedBy heuristics condition)).foldl Branch.add Branch.empty

/-- The fields that make a step wait for the branch: those of its seeds only. -/
def anchorsOf (seeds : Branch) : List String :=
  seeds.steps.filterMap fun s => s.step.completionToken?

def linkedBranch (heuristics : List Heuristic) (steps : List PlacedStep) (condition : String) :
    Branch :=
  let seeds := seedBranch heuristics steps condition
  (steps.filter (waitsOn condition (anchorsOf seeds))).foldl Branch.add seeds

def reviewSteps (condition : String) (b : Branch) (steps : List PlacedStep) : List PlacedStep :=
  if isHomeSchoolName condition && b.steps.any uploadsAffidavit then steps.filter reviewsAffidavit
  else []

/-- The branch of a condition, whatever is noted on the way. -/
def branchOf (heuristics : List Heuristic) (steps : List PlacedStep) (condition : String) :
    Branch :=
  let linked := linkedBranch heuristics steps condition
  (reviewSteps condition linked steps).foldl Branch.add linked

theorem result_linkReviews (condition : String) (steps : List PlacedStep) (b : Branch) :
    (linkReviews condition steps b).result =
      (reviewSteps condition b steps).foldl Branch.add b := by
  unfold linkReviews reviewSteps
  split
  next => simp only [Logged.result_foldlM, result_linkReview, List.foldl_filter]
  next => rfl

theorem result_discoverBranch (heuristics : List Heuristic) (steps : List PlacedStep)
    (condition : String) :
    (discoverBranch heuristics steps condition).result = branchOf heuristics steps condition := by
  simp only [discoverBranch, Logged.result_bind, Logged.result_pure, Logged.result_foldlM,
    result_linkDependent, result_linkReviews, branchOf, linkedBranch, anchorsOf, seedBranch,
    List.foldl_filter]

theorem result_discoverBranches (heuristics : List Heuristic) (steps : List PlacedStep) :
    (discoverBranches heuristics steps).result =
      (referencedNames heuristics steps).map fun n => (n, branchOf heuristics steps n) := by
  simp only [discoverBranches, Logged.result_mapM, Logged.result_bind, Logged.result_pure,
    result_discoverBranch]

theorem lookup_map_pair {α : Type} (names : List String) (f : String → α) (n : String) :
    (names.map fun m => (m, f m)).lookup n = if n ∈ names then some (f n) else none := by
  induction names with
  | nil => rfl
  | cons m rest ih =>
    by_cases h : n = m
    · simp [h]
    · simp [List.lookup_cons, beq_eq_false_iff_ne.mpr h, h, ih]

theorem lookup_discoverBranches (heuristics : List Heuristic) (steps : List PlacedStep)
    (n : String) :
    (discoverBranches heuristics steps).result.lookup n =
      if n ∈ referencedNames heuristics steps then some (branchOf heuristics steps n)
      else none := by
  rw [result_discoverBranches, lookup_map_pair]

theorem settled_branchOf (heuristics : List Heuristic) (steps : List PlacedStep)
    (condition : String) : (branchOf heuristics steps condition).Settled :=
  ((Branch.settled_empty.foldl_add _).foldl_add _).foldl_add _

theorem steps_seedBranch (heuristics : List Heuristic) (steps : List PlacedStep)
    (condition : String) :
    (seedBranch heuristics steps condition).steps =
      firstOfKeys (steps.filter (isGatedBy heuristics condition)) := by
  simp [seedBranch, Branch.steps_foldl_add, Branch.empty, Branch.contains]

/-- Linking and reviews only add to the seeds. -/
theorem seeds_subset_branchOf {heuristics : List Heuristic} {steps : List PlacedStep}
    {condition : String} {s : PlacedStep}
    (h : s ∈ firstOfKeys (steps.filter (isGatedBy heuristics condition))) :
    s ∈ (branchOf heuristics steps condition).steps := by
  have hlinked : s ∈ (linkedBranch heuristics steps condition).steps := by
    rw [linkedBranch, Branch.steps_foldl_add, steps_seedBranch]
    exact List.mem_append_left _ h
  rw [branchOf, Branch.steps_foldl_add]
  exact List.mem_append_left _ hlinked

end Gatehouse
