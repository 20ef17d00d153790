import Diaporama.Rehearsal.Program.Edit
import Diaporama.Rehearsal.Program.Fields
import Diaporama.Rehearsal.Program.Files
import Diaporama.Rehearsal.Program.Records
import Diaporama.Rehearsal.Program.Running
import Diaporama.Rehearsal.Program.Search

/-!
# Programs by name
-/

namespace Diaporama.Rehearsal

open Program in
def programs : List (String × Program) :=
  [("awk", awk), ("basename", basename), ("cat", cat), ("chmod", chmod), ("cmp", cmp), ("cp", cp),
    ("cut", cut), ("dd", dd), ("dirname", dirname), ("echo", echo), ("egrep", egrep), ("env", env),
    ("expr", expr), ("false", failing), ("find", find), ("grep", grep), ("head", head),
    ("kill", kill), ("ln", ln), ("ls", ls), ("mkdir", mkdir), ("mktemp", mktemp), ("mv", mv),
    ("od", od), ("printf", printf), ("rm", rm), ("rmdir", rmdir), ("sed", sed), ("seq", seq),
    ("sleep", sleep), ("sort", sort), ("tail", tail), ("tee", tee), ("touch", touch), ("tr", tr),
    ("true", succeed), ("uniq", uniq), ("wc", wc), ("xargs", xargs), ("yes", yes)]

end Diaporama.Rehearsal
