namespace Gatehouse

namespace Yaml

def sextet? (c : Char) : Option Nat :=
  if 'A' ≤ c ∧ c ≤ 'Z' then some (c.toNat - 0x41)
  else if 'a' ≤ c ∧ c ≤ 'z' then some (c.toNat - 0x61 + 26)
  else if c.isDigit then some (c.toNat - 0x30 + 52)
  else if c = '+' then some 62
  else if c = '/' then some 63
  else none

/-- Reads groups of four characters as three bytes; `held` are the values of the open group, newest
first, and `pads` counts the equals signs since the last of them. Other characters are skipped, and
nothing is read behind the sign that fills a group. -/
def base64From (held : List Nat) (pads : Nat) : List Char → Option (List UInt8)
  | [] => if held.isEmpty then some [] else none
  | c :: rest =>
    if c = '=' then
      match held with
      | [b, a] =>
        if 1 ≤ pads then some [.ofNat (a * 4 + b / 16)] else base64From held (pads + 1) rest
      | [c, b, a] => some [.ofNat (a * 4 + b / 16), .ofNat (b * 16 + c / 4)]
      | _ => base64From held pads rest
    else match sextet? c with
      | none => base64From held pads rest
      | some d =>
        match held with
        | [c, b, a] =>
          (base64From [] 0 rest).map
            ([.ofNat (a * 4 + b / 16), .ofNat (b * 16 + c / 4), .ofNat (c * 64 + d)] ++ ·)
        | _ => base64From (d :: held) 0 rest

def base64? (cs : List Char) : Option (List UInt8) := base64From [] 0 cs

end Yaml

end Gatehouse
