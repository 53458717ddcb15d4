import Gatehouse.Proofs.JsonText

namespace Gatehouse

namespace Json

/-- Two surrogates that pair are one point, which is neither of them. -/
theorem exists_of_joined? {p q : Piece} {n : Nat} (h : joined? p q = some n) :
    ∃ high, p.loaded = spellPoint high ∧ high < 0x10000 ∧ 0x10000 ≤ n ∧ n < 0x110000 := by
  obtain ⟨high, first, h⟩ := Option.bind_eq_some_iff.mp h
  obtain ⟨low, second, rfl⟩ := Option.map_eq_some_iff.mp h
  cases p with
  | raw c isRaw => cases first
  | short e mem => cases first
  | unit a b c d =>
    cases q with
    | raw c isRaw => cases second
    | short e mem => cases second
    | unit a' b' c' d' =>
      rw [Piece.high?] at first
      rw [Piece.low?] at second
      split at first
      next bounds =>
        split at second
        next bounds' =>
          cases first
          cases second
          exact ⟨Piece.number a b c d, rfl, by omega, by omega, by omega⟩
        next => cases second
      next => cases first

theorem loadedChars_eq_iff (ps : List Piece) :
    loadedChars ps = decodedChars ps ↔ isUnjoined ps = true := by
  fun_induction decodedChars ps with
  | case1 => simp [loadedChars, isUnjoined]
  | case2 p => simp [loadedChars, isUnjoined]
  | case3 p q rest n joined ih =>
    obtain ⟨high, eq, half, least, most⟩ := exists_of_joined? joined
    rw [isUnjoined, joined, Option.isNone_some, Bool.false_and, loadedChars, List.flatMap_cons, eq]
    refine iff_of_false (fun same => ?_) Bool.false_ne_true
    have numbers := congrArg points same
    rw [points_spellPoint_append (by omega), points_spellPoint_append most] at numbers
    have := (List.cons.inj numbers).1
    omega
  | case4 p q rest apart ih =>
    rw [isUnjoined, apart, Option.isNone_none, Bool.true_and, ← ih, loadedChars, List.flatMap_cons]
    rw [List.append_cancel_left_eq]
    rfl

theorem Leaf.loaded_eq_value_iff (l : Leaf) : l.loaded = l.value ↔ l.isFaithful = true := by
  cases l with
  | null => exact iff_of_true rfl rfl
  | bool b => exact iff_of_true rfl rfl
  | number n =>
    show n.loaded = n.value ↔ (!n.isBare) = true
    unfold Numeral.loaded
    cases n.isBare with
    | true =>
      refine iff_of_false (fun same => ?_) Bool.false_ne_true
      rw [if_pos rfl, Numeral.value] at same
      split at same
      next => cases same
      next => cases same
    | false => exact iff_of_true (if_neg Bool.false_ne_true) rfl
  | text ps =>
    show Value.text _ = Value.text _ ↔ _
    rw [Value.text.injEq, String.ofList_inj]
    exact loadedChars_eq_iff ps

end Json

mutual

/-- What is loaded from a faithful JSON document is its value. -/
theorem Json.loaded_eq_value (j : Json) (faithful : j.isFaithful = true) : j.loaded = j.value := by
  match j with
  | .leaf l => exact l.loaded_eq_value_iff.mpr faithful
  | .list items => exact congrArg Value.list (items.loaded_eq_values faithful)
  | .map entries => exact congrArg Value.ofEntries (entries.loaded_eq_values faithful)

theorem JsonItems.loaded_eq_values (items : JsonItems) (faithful : items.isFaithful = true) :
    items.loaded = items.values := by
  match items with
  | .close blanks => rfl
  | .item before v after rest =>
    simp only [JsonItems.isFaithful, Bool.and_eq_true] at faithful
    rw [JsonItems.loaded, v.loaded_eq_value faithful.1, rest.loaded_eq_values faithful.2]
    rfl

theorem JsonEntries.loaded_eq_values (entries : JsonEntries)
    (faithful : entries.isFaithful = true) : entries.loaded = entries.values := by
  match entries with
  | .close blanks => rfl
  | .entry before key middle between v after rest =>
    simp only [JsonEntries.isFaithful, Bool.and_eq_true] at faithful
    obtain ⟨⟨keyed, value⟩, others⟩ := faithful
    rw [JsonEntries.loaded, (Json.loadedChars_eq_iff key).mpr keyed, v.loaded_eq_value value,
      rest.loaded_eq_values others]
    rfl

end

end Gatehouse
