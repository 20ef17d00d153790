/-!
# Shell words

An argument is written as one word of a POSIX shell command line. Where it is made of harmless
characters only it stands as it is; otherwise it stands between single quotes, inside which nothing
expands, and each of its own quotes leaves the quotes, is put behind a backslash, and enters again.
-/

namespace Diaporama.Shell

def isHarmless (c : Char) : Bool :=
  c.isAlphanum || "-_.,/:=+@%".toList.contains c

def isPlain (cs : List Char) : Bool :=
  !cs.isEmpty && cs.all isHarmless

def escape (cs : List Char) : List Char :=
  cs.flatMap fun c => if c = '\'' then ['\'', '\\', '\'', '\''] else [c]

def wordChars (cs : List Char) : List Char :=
  if isPlain cs then cs else '\'' :: escape cs ++ ['\'']

def word (s : String) : String :=
  String.ofList (wordChars s.toList)

def line (args : List String) : String :=
  " ".intercalate (args.map word)

end Diaporama.Shell
