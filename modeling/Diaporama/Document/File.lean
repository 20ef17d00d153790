import Diaporama.Document.Settings
import Diaporama.Host.Basic

/-!
# Documents in files

Configurations and requests read from files of the host. A file that cannot be opened is reported
with its path, one that breaks off as a text that could not be read.
-/

namespace Diaporama

variable {m : Type → Type} [Monad m] [Host m]

def Config.load (path : FilePath) : m (Except (Error Float) (Config.Checked Float)) := do
  match ← Host.readFile path with
  | .unopened fault => return .error (.unopened .config path fault)
  | .broken fault => return .error (.unread .config (.sourceFailed fault))
  | .bytes text => return Config.ofText text

def Request.load (path : FilePath) : m (Traced Float (Request Float)) := do
  match ← Host.readFile path with
  | .unopened fault => return .fail (.unopened .request path fault)
  | .broken fault => return .fail (.unread .request (.sourceFailed fault))
  | .bytes text => return Request.ofText text

end Diaporama
