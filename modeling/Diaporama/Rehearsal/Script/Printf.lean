import Diaporama.Rehearsal.Script.Session

/-!
# Printing in a shell

What `echo` and `printf` write.
-/

namespace Diaporama.Rehearsal.Act

/-- The text of `echo` for words with escapes, the last one without a line end if `isOpen` is set. -/
def echoText (isOpen : Bool) : List Octets → Octets
  | [] => if isOpen then [] else ['\n']
  | word :: words =>
    let (text, ended) := Format.unescaped word
    if ended then text
    else if words.isEmpty then if isOpen then text else text ++ ['\n']
    else text ++ ' ' :: echoText isOpen words

def echo (words : List Octets) : Act Nat := do
  match words with
  | ['-', 'n'] :: words => print (echoText true words)
  | words => print (echoText false words)
  return 0

def printf (words : List Octets) : Act Nat := do
  let (_, operands) ← optionsOf "" words
  match operands with
  | [] => fail "usage: printf format [arg ...]"
  | format :: words =>
    let (result, s) := Format.printed format words
    print s.texts.reverse.flatten
    for complaint in s.complaints.reverse do warn complaint
    match result with
    | .ok () => return if s.complaints.isEmpty then 0 else 1
    | .error problem => fail problem

end Diaporama.Rehearsal.Act
