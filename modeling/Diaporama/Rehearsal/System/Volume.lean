import Diaporama.Host.Fault
import Diaporama.Rehearsal.Octets

/-!
# Volumes

A volume is a file system in memory: numbered nodes that are files, directories, links, devices or
pipes. A path is walked from the root or from a directory, one part at a time. Links on the way are
followed, up to a limit; a missing last part is a place where something can be created.
-/

namespace Diaporama.Rehearsal

abbrev NodeId := Nat

inductive Device where
  | null
  | zero
  | full
  | terminal
  | random
  /-- Whatever a descriptor of the process leads to. -/
  | descriptor (number : Nat)
  deriving DecidableEq

inductive Body where
  | file (content : ByteArray)
  | directory (above : NodeId) (entries : List (Octets × NodeId))
  | link (target : Octets)
  | device (d : Device)
  /-- What was written to a pipe, and how much writing it has seen. -/
  | pipe (content : ByteArray) (used : Nat)

structure Node where
  body : Body
  mode : Nat

instance : Inhabited Node := ⟨⟨.file .empty, 0⟩⟩

namespace Node

def isDirectory (n : Node) : Bool :=
  n.body matches .directory _ _

def isLink (n : Node) : Bool :=
  n.body matches .link _

def isFile (n : Node) : Bool :=
  n.body matches .file _

/-- The system lets its administrator run what anyone may run. -/
def isExecutable (n : Node) : Bool :=
  n.mode / 64 % 2 = 1 || n.mode / 8 % 2 = 1 || n.mode % 2 = 1

def size (n : Node) : Nat :=
  match n.body with
  | .file content => content.size
  | .directory _ _ => 4096
  | .link target => target.length
  | .device _ | .pipe _ _ => 0

end Node

structure Volume where
  nodes : Array Node

namespace Volume

def root : NodeId := 0

def empty : Volume :=
  ⟨#[⟨.directory root [], 0o755⟩]⟩

def node (v : Volume) (id : NodeId) : Node :=
  v.nodes[id]?.getD default

def setNode (v : Volume) (id : NodeId) (n : Node) : Volume :=
  { v with nodes := v.nodes.setIfInBounds id n }

def addNode (v : Volume) (body : Body) (mode : Nat) : Volume × NodeId :=
  ({ v with nodes := v.nodes.push ⟨body, mode⟩ }, v.nodes.size)

def entries (v : Volume) (id : NodeId) : List (Octets × NodeId) :=
  match (v.node id).body with
  | .directory _ entries => entries
  | _ => []

def above (v : Volume) (id : NodeId) : NodeId :=
  match (v.node id).body with
  | .directory above _ => above
  | _ => root

def isDirectory (v : Volume) (id : NodeId) : Bool :=
  (v.node id).isDirectory

def names (v : Volume) (id : NodeId) : List Octets :=
  ((v.entries id).map (·.1)).mergeSort Octets.precedes

/-! ## Paths -/

/-- Where a path leads: to a node, under a name in a directory if it ends in one, or to a name that
a directory does not have. -/
inductive Target where
  | found (directory : NodeId) (name : Octets) (node : NodeId)
  | missing (directory : NodeId) (name : Octets)

def maxName : Nat := 255

def maxPath : Nat := 4096

def maxLinks : Nat := 40

/-- The most steps a path may take: each link brings in at most another path. -/
def maxSteps : Nat := (maxLinks + 2) * maxPath

/-- Follows the parts of a path from a directory; `links` is how many links may still be followed,
and `follows` whether one at the end of the path is. -/
def walk (v : Volume) (follows : Bool) : Nat → Nat → NodeId → List Octets → Except OsFault Target
  | 0, _, _, _ => .error .tooManyLinks
  | _ + 1, _, here, [] => .ok (.found (v.above here) [] here)
  | steps + 1, links, here, part :: parts =>
    if part.isEmpty || part = ['.'] then v.walk follows steps links here parts
    else if part = ['.', '.'] then v.walk follows steps links (v.above here) parts
    else if maxName < part.length then .error .nameTooLong
    else match (v.entries here).lookup part with
      | none => if parts.all (·.isEmpty) then .ok (.missing here part) else .error .notFound
      | some id =>
        match (v.node id).body with
        | .directory _ _ =>
          if parts.isEmpty then .ok (.found here part id) else v.walk follows steps links id parts
        | .link target =>
          if parts.isEmpty && !follows then .ok (.found here part id)
          else match links with
            | 0 => .error .tooManyLinks
            | links + 1 =>
              let origin := if target.head? = some '/' then root else here
              v.walk follows steps links origin (Octets.split '/' target ++ parts)
        | _ => if parts.isEmpty then .ok (.found here part id) else .error .notDirectory

def resolveWith (v : Volume) (follows : Bool) (here : NodeId) (path : Octets) :
    Except OsFault Target :=
  if path.isEmpty then .error .notFound
  else if path.contains (Char.ofNat 0) then .error .zeroByte
  else if maxPath ≤ path.length then .error .nameTooLong
  else
    let origin := if path.head? = some '/' then root else here
    v.walk follows maxSteps maxLinks origin (Octets.split '/' path)

def resolve (v : Volume) (here : NodeId) (path : Octets) : Except OsFault Target :=
  v.resolveWith true here path

def resolveEntry (v : Volume) (here : NodeId) (path : Octets) : Except OsFault Target :=
  v.resolveWith false here path

def Target.node : Target → Except OsFault NodeId
  | .found _ _ id => .ok id
  | .missing _ _ => .error .notFound

def find (v : Volume) (here : NodeId) (path : Octets) : Except OsFault NodeId :=
  v.resolve here path >>= Target.node

def find? (v : Volume) (here : NodeId) (path : Octets) : Option NodeId :=
  (v.find here path).toOption

def findEntry (v : Volume) (here : NodeId) (path : Octets) : Except OsFault NodeId :=
  v.resolveEntry here path >>= Target.node

def findEntry? (v : Volume) (here : NodeId) (path : Octets) : Option NodeId :=
  (v.findEntry here path).toOption

/-- The names from the root down to a directory; `depth` bounds how many there may be. -/
def trail (v : Volume) : Nat → NodeId → List Octets
  | 0, _ => []
  | depth + 1, id =>
    if id = root then []
    else
      let above := v.above id
      match (v.entries above).find? fun entry => entry.2 = id with
      | some (name, _) => v.trail depth above ++ [name]
      | none => []

def path (v : Volume) (id : NodeId) : Octets :=
  match v.trail v.nodes.size id with
  | [] => ['/']
  | names => names.flatMap ('/' :: ·)

/-! ## Changes -/

def setEntries (v : Volume) (directory : NodeId) (entries : List (Octets × NodeId)) : Volume :=
  let n := v.node directory
  match n.body with
  | .directory above _ =>
    v.setNode directory { n with body := .directory above entries }
  | _ => v

/-- Names a node in a directory; the name leads to it from now on. -/
def enter (v : Volume) (directory : NodeId) (name : Octets) (id : NodeId) : Volume :=
  let others := (v.entries directory).filter fun entry => entry.1 ≠ name
  let v := v.setEntries directory (others ++ [(name, id)])
  match (v.node id).body with
  | .directory _ entries =>
    v.setNode id { v.node id with body := .directory directory entries }
  | _ => v

/-- Takes a name out of a directory; what it led to stays for those who have it open. -/
def forget (v : Volume) (directory : NodeId) (name : Octets) : Volume :=
  v.setEntries directory ((v.entries directory).filter fun entry => entry.1 ≠ name)

def add (v : Volume) (directory : NodeId) (name : Octets) (body : Body) (mode : Nat) :
    Volume × NodeId :=
  let (v, id) := v.addNode body mode
  (v.enter directory name id, id)

/-- Whether a directory is the other one or lies below it; `depth` bounds the way up. -/
def isBelow (v : Volume) (upper : NodeId) : Nat → NodeId → Bool
  | 0, _ => false
  | depth + 1, id => id = upper || (id ≠ root && v.isBelow upper depth (v.above id))

def endsInSlash (path : Octets) : Bool :=
  path.getLast? = some '/'

def makeDirectory (v : Volume) (here : NodeId) (path : Octets) (mode : Nat) :
    Except OsFault Volume :=
  match v.resolveEntry here path with
  | .error fault => .error fault
  | .ok (.found _ _ _) => .error .alreadyExists
  | .ok (.missing directory name) => .ok (v.add directory name (.directory directory []) mode).1

def openToWrite (v : Volume) (here : NodeId) (path : Octets) (mode : Nat) :
    Except OsFault (Volume × NodeId) :=
  match v.resolve here path with
  | .error fault => .error fault
  | .ok (.found _ _ id) => if v.isDirectory id then .error .isDirectory else .ok (v, id)
  | .ok (.missing directory name) =>
    if endsInSlash path then .error .isDirectory
    else .ok (v.add directory name (.file .empty) mode)

def makeLink (v : Volume) (here : NodeId) (target path : Octets) : Except OsFault Volume :=
  match v.resolveEntry here path with
  | .error fault => .error fault
  | .ok (.found _ _ _) => .error .alreadyExists
  | .ok (.missing directory name) =>
    if endsInSlash path then .error .notFound
    else .ok (v.add directory name (.link target) 0o777).1

def makeName (v : Volume) (here : NodeId) (id : NodeId) (path : Octets) : Except OsFault Volume :=
  match v.resolveEntry here path with
  | .error fault => .error fault
  | .ok (.found _ _ _) => .error .alreadyExists
  | .ok (.missing directory name) =>
    if v.isDirectory id then .error .notPermitted else .ok (v.enter directory name id)

def unlink (v : Volume) (here : NodeId) (path : Octets) : Except OsFault Volume :=
  match v.resolveEntry here path with
  | .error fault => .error fault
  | .ok (.missing _ _) => .error .notFound
  | .ok (.found directory name id) =>
    if v.isDirectory id then .error .isDirectory
    else if endsInSlash path then .error .notDirectory
    else .ok (v.forget directory name)

def removeDirectory (v : Volume) (here : NodeId) (path : Octets) : Except OsFault Volume :=
  match v.resolveEntry here path with
  | .error fault => .error fault
  | .ok (.missing _ _) => .error .notFound
  | .ok (.found directory name id) =>
    if !v.isDirectory id then .error .notDirectory
    else if name.isEmpty then
      .error (if id = here then .invalidArgument else .notEmpty)
    else if !(v.entries id).isEmpty then .error .notEmpty
    else .ok (v.forget directory name)

def rename (v : Volume) (here : NodeId) (source target : Octets) : Except OsFault Volume := do
  match ← v.resolveEntry here source, ← v.resolveEntry here target with
  | .missing _ _, _ => throw .notFound
  | .found oldDirectory oldName id, .missing directory name =>
    if v.isDirectory id && v.isBelow id v.nodes.size directory then throw .invalidArgument
    else if endsInSlash target && !v.isDirectory id then throw .notDirectory
    else return (v.forget oldDirectory oldName).enter directory name id
  | .found oldDirectory oldName id, .found directory name other =>
    if id = other then return v
    else if v.isDirectory id then
      if !v.isDirectory other then throw .notDirectory
      else if v.isBelow id v.nodes.size directory then throw .invalidArgument
      else if !(v.entries other).isEmpty then throw .notEmpty
      else return (v.forget oldDirectory oldName).enter directory name id
    else if v.isDirectory other then throw .isDirectory
    else return (v.forget oldDirectory oldName).enter directory name id

/-! ## Contents -/

def content (v : Volume) (id : NodeId) : ByteArray :=
  match (v.node id).body with
  | .file content => content
  | .pipe content _ => content
  | _ => .empty

/-- Gives a file another content; its permissions stay as they were. -/
def setContent (v : Volume) (id : NodeId) (content : ByteArray) : Volume :=
  let n := v.node id
  match n.body with
  | .file _ => v.setNode id { n with body := .file content }
  | _ => v

def setMode (v : Volume) (id : NodeId) (mode : Nat) : Volume :=
  v.setNode id { v.node id with mode }

end Volume

end Diaporama.Rehearsal
