import Diaporama.Rehearsal.Octets

/-!
# Names in messages

How a name is shown in a message so that a shell would read it as the same name.
-/

namespace Diaporama.Rehearsal.Quoting

def isSpecial (index : Nat) (c : Char) : Bool :=
  if c = '#' || c = '~' then index = 0
  else !(' ' ≤ c && c ≤ '~') || " !\"$&()*;<=>[^|'?\\".toList.contains c || c.toNat = 96

/-- A name in single quotes, or in double ones if it has a single one and nothing else in it matters. -/
def always (cs : Octets) : String :=
  let isPlain := cs.all fun c => c = '\'' || c = ' ' || !isSpecial 1 c
  if cs.contains '\'' && isPlain then "\"" ++ String.ofList cs ++ "\""
  else "'" ++ String.ofList (cs.flatMap fun c => if c = '\'' then "'\\''".toList else [c]) ++ "'"

def ifNeeded (cs : Octets) : String :=
  if cs.isEmpty || cs.zipIdx.any fun (c, i) => isSpecial i c then always cs else String.ofList cs

end Diaporama.Rehearsal.Quoting
