import Gatehouse.Value

namespace Gatehouse

namespace Yaml

/-- The order in which a process lists the members of a set. It is another one in each process, but
no process leaves a member out. -/
class SetOrder where
  arrange : List Value → List Value
  perm (members : List Value) : (arrange members).Perm members

/-- The order in which the members are given, where no other is asked for. -/
instance SetOrder.given : SetOrder := ⟨id, List.Perm.refl⟩

/-- Residues are counted modulo a prime, to which the sixty-first power of two is one. -/
def residueExponent : Nat := 61

def residuePrime : Nat := Nat.pow 2 residueExponent - 1

/-- The residue of an infinity. -/
def infiniteResidue : Nat := 314159

/-- The residue of a number; numbers of equal worth have equal ones, and none has minus one. -/
def residue? (v : Value) : Option Int :=
  let signed (negative : Bool) (n : Nat) : Int :=
    let r := Binary64.signed negative (n % residuePrime)
    if r = -1 then -2 else r
  match v with
  | .bool b => some (if b then 1 else 0)
  | .int i => some (signed (decide (i < 0)) i.natAbs)
  | .float (.finite negative mant exp) =>
    some (signed negative (mant * Nat.pow 2 (exp % (residueExponent : Int)).toNat))
  | .float (.infinite negative) => some (signed negative infiniteResidue)
  | _ => none

/-- A table has a power of two of slots, more than twice as many as members unless it is small. -/
def tableSize (members : Nat) : Nat :=
  if members ≤ 4 then 8 else Nat.pow 2 (Nat.log2 (2 * members) + 1)

/-- How many slots behind one are tried before the next jump, if the table is not at its end. -/
def nearSlots : Nat := 9

def isFree (table : Array (Option Value)) (slot : Nat) : Bool := (table.getD slot none).isNone

/-- Tries a slot and those near it, then jumps on; `rest` is what is left of the residue. -/
def freeSlot (table : Array (Option Value)) : Nat → Nat → Nat → Nat
  | 0, slot, _ => slot
  | jumps + 1, slot, rest =>
    let near := if slot + nearSlots < table.size then nearSlots else 0
    match ((List.range (near + 1)).map (slot + ·)).find? (isFree table) with
    | some free => free
    | none => freeSlot table jumps ((slot * 5 + 1 + rest / 32) % table.size) (rest / 32)

/-- Puts a member where its residue leads. -/
def scatter (table : Array (Option Value)) (member : Value × Int) : Array (Option Value) :=
  let word := (member.2 % Int.pow 2 64).toNat
  table.setIfInBounds (freeSlot table (table.size + 64) (word % table.size) word) (some member.1)

/-- The members of a set as they are listed. Numbers have the same residues in all processes, and
stand in the order of the slots that these lead to. -/
def setOrder [SetOrder] (members : List Value) : List Value :=
  match members.mapM fun v => (residue? v).map (v, ·) with
  | none => SetOrder.arrange members
  | some residues =>
    let table := Array.replicate (tableSize members.length) none
    (residues.foldl scatter table).toList.filterMap id

end Yaml

end Gatehouse
