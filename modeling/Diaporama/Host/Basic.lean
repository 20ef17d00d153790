import Diaporama.Error

/-!
# The host

What the library asks of the machine it runs on. The operations are those of any monad that offers
them, so that a run can be carried out, played through in memory, or recorded.
-/

namespace Diaporama

structure Exit where
  status : ExitStatus
  errors : ByteArray

/-- What came of reading a file: it could not be opened, broke off, or gave its bytes. -/
inductive FileReading where
  | unopened (fault : OsFault)
  | broken (fault : OsFault)
  | bytes (content : ByteArray)

class Host (m : Type → Type) where
  /-- Runs a program to its end, unless a fault comes between. -/
  run : FilePath → List String → m (Except RunFault Exit)
  pathExists : FilePath → m Bool
  /-- Creates a directory and those above it; it may be there already. -/
  createDirectories : FilePath → m (Except OsFault Unit)
  readFile : FilePath → m FileReading

end Diaporama
