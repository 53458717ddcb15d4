namespace Gatehouse

/-- How many calls can be open at once: the interpreter of a run breaks it off at the next one. No
file of the program sets this number, it is the one that the interpreter starts with. -/
def mostCalls : Nat := 1000

/-- How deep a recursion can go that is begun with some calls open and opens a number of them at
each level. The calls that are open are those of the command line down to the recursion, with the
few that its last level opens on its own. -/
def levelsWithin (opened perLevel : Nat) : Nat := (mostCalls - opened) / perLevel

end Gatehouse
