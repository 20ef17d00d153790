import Diaporama.Error
import Diaporama.Rehearsal.System.Volume

/-!
# Processes

A process sees the system: the volume, the files that are open, the processes that exist and the
signals on their way. It has a current directory, descriptors that lead to open files, and an
environment. A process started by another one works on the same system, which it hands back when it
has ended.
-/

namespace Diaporama.Rehearsal

structure OpenFile where
  node : NodeId
  offset : Nat
  reads : Bool
  writes : Bool
  appends : Bool

instance : Inhabited OpenFile := ⟨⟨0, 0, false, false, false⟩⟩

structure Signal where
  receiver : Nat
  number : Nat

structure System where
  volume : Volume
  files : Array OpenFile
  /-- The number of the youngest process. -/
  youngest : Nat
  /-- The processes that exist. -/
  running : List Nat
  signals : List Signal

structure Process where
  system : System
  number : Nat
  parent : Nat
  directory : NodeId
  /-- The open file that each descriptor leads to. -/
  descriptors : List (Nat × Nat)
  environment : List (Octets × Octets)
  /-- The signals that do nothing to the process. -/
  ignored : List Nat

namespace Process

def volume (p : Process) : Volume :=
  p.system.volume

def setVolume (p : Process) (v : Volume) : Process :=
  { p with system.volume := v }

def fork (p : Process) : Process :=
  let number := p.system.youngest + 1
  { p with
    system.youngest := number
    system.running := number :: p.system.running
    number := number
    parent := p.number }

def resume (p : Process) (s : System) : Process :=
  { p with system := s }

def gone (p : Process) : System :=
  { p.system with
    running := p.system.running.filter (· ≠ p.number)
    signals := p.system.signals.filter fun s => s.receiver ≠ p.number }

def setting? (p : Process) (name : Octets) : Option Octets :=
  p.environment.lookup name

/-! ## Descriptors -/

def file? (p : Process) (descriptor : Nat) : Option OpenFile :=
  (p.descriptors.lookup descriptor).bind fun id => p.system.files[id]?

def setDescriptor (p : Process) (descriptor file : Nat) : Process :=
  { p with descriptors :=
      (descriptor, file) :: p.descriptors.filter fun entry => entry.1 ≠ descriptor }

def closeDescriptor (p : Process) (descriptor : Nat) : Process :=
  { p with descriptors := p.descriptors.filter fun entry => entry.1 ≠ descriptor }

def addFile (p : Process) (f : OpenFile) : Process × Nat :=
  ({ p with system.files := p.system.files.push f }, p.system.files.size)

def setFile (p : Process) (id : Nat) (f : OpenFile) : Process :=
  { p with system.files := p.system.files.setIfInBounds id f }

/-- Adds a pipe with nothing in it; the open files at its ends, to read from and to write to. -/
def addPipe (p : Process) : Process × Nat × Nat :=
  let (v, node) := p.volume.addNode (.pipe .empty 0) 0o600
  let (p, input) := (p.setVolume v).addFile ⟨node, 0, true, false, false⟩
  let (p, output) := p.addFile ⟨node, 0, false, true, true⟩
  (p, input, output)

inductive Opening where
  | read
  /-- Emptied first. -/
  | write
  /-- Emptied first, but only if it is new or no ordinary file. -/
  | writeNew
  | append
  | readWrite
  deriving DecidableEq

def Opening.reads (o : Opening) : Bool :=
  o = .read || o = .readWrite

def Opening.empties (o : Opening) : Bool :=
  o = .write || o = .writeNew

def openNode (p : Process) (how : Opening) (node : NodeId) : Except OsFault (Process × Nat) :=
  let plain (p : Process) : Except OsFault (Process × Nat) :=
    .ok (p.addFile ⟨node, 0, how.reads, how ≠ .read, how = .append⟩)
  match (p.volume.node node).body with
  | .device .terminal => .error .noDevice
  | .device (.descriptor n) =>
    match p.descriptors.lookup n with
    | none => .error .notFound
    | some id =>
      let f := p.system.files[id]?.getD default
      if (p.volume.node f.node).isFile then
        let p := if how.empties then p.setVolume (p.volume.setContent f.node .empty) else p
        .ok (p.addFile ⟨f.node, 0, how.reads, how ≠ .read, how = .append⟩)
      else .ok (p, id)
  | .directory _ _ => if how = .read then plain p else .error .isDirectory
  | .file _ =>
    if how = .writeNew then .error .alreadyExists
    else plain (if how.empties then p.setVolume (p.volume.setContent node .empty) else p)
  | _ => plain p

def openPath (p : Process) (how : Opening) (path : Octets) : Except OsFault (Process × Nat) := do
  if how = .read then p.openNode how (← p.volume.find p.directory path)
  else
    match ← p.volume.resolve p.directory path with
    | .found _ _ node =>
      if p.volume.isDirectory node && how = .writeNew then throw .alreadyExists
      else p.openNode how node
    | .missing directory name =>
      if Volume.endsInSlash path then throw .isDirectory
      let (v, node) := p.volume.add directory name (.file .empty) 0o644
      return (p.setVolume v).addFile ⟨node, 0, how.reads, true, how = .append⟩

/-! ## Reading and writing -/

def endlessSize : Nat := 0x100000

def remaining (p : Process) (f : OpenFile) (limit : Nat) : Except OsFault ByteArray :=
  if !f.reads then .error .badDescriptor
  else match (p.volume.node f.node).body with
    | .file content | .pipe content _ => .ok (content.extract f.offset (f.offset + limit))
    | .directory _ _ => .error .isDirectory
    | .device .zero | .device .full | .device .random =>
      .ok (List.replicate (min limit endlessSize) (0 : UInt8)).toByteArray
    | _ => .ok .empty

def read (p : Process) (descriptor limit : Nat) : Except OsFault (Octets × Process) :=
  match p.descriptors.lookup descriptor with
  | none => .error .badDescriptor
  | some id =>
    let f := p.system.files[id]?.getD default
    (p.remaining f limit).map fun bytes =>
      (Octets.ofBytes bytes, p.setFile id { f with offset := f.offset + bytes.size })

def unlimited : Nat := 0x1000000000000

def readAll (p : Process) (descriptor : Nat) : Except OsFault (Octets × Process) :=
  p.read descriptor unlimited

def readByte (p : Process) (descriptor : Nat) : Option (Char × Process) :=
  match p.read descriptor 1 with
  | .ok ([c], p) => some (c, p)
  | _ => none

/-- As much as may be written to a pipe while nobody reads; each piece of writing counts for at
least `leastUse` bytes. -/
def pipeLimit : Nat := 0x1000000

def leastUse : Nat := 512

def overwritten (content : ByteArray) (offset : Nat) (text : ByteArray) : ByteArray :=
  if offset = content.size then content ++ text
  else
    let gap := List.replicate (offset - content.size) (0 : UInt8)
    content.extract 0 offset ++ gap.toByteArray ++ text ++
      content.extract (offset + text.size) content.size

def writeTo (p : Process) (id : Nat) (text : Octets) : Except OsFault Process :=
  let f := p.system.files[id]?.getD default
  let bytes := Octets.toBytes text
  if !f.writes then .error .badDescriptor
  else match (p.volume.node f.node).body with
    | .file content =>
      let offset := if f.appends then content.size else f.offset
      let p := p.setVolume (p.volume.setContent f.node (overwritten content offset bytes))
      .ok (p.setFile id { f with offset := offset + bytes.size })
    | .pipe content used =>
      if pipeLimit < used then .error .brokenPipe
      else
        let node := p.volume.node f.node
        let used := used + max bytes.size leastUse
        .ok (p.setVolume (p.volume.setNode f.node { node with body := .pipe (content ++ bytes) used }))
    | .device .full => if bytes.isEmpty then .ok p else .error .noSpace
    | _ => .ok p

def write (p : Process) (descriptor : Nat) (text : Octets) : Except OsFault Process :=
  match p.descriptors.lookup descriptor with
  | none => .error .badDescriptor
  | some id => p.writeTo id text

def pipeContent (p : Process) (file : Nat) : ByteArray :=
  p.volume.content ((p.system.files[file]?.getD default).node)

/-! ## Signals -/

def isRunning (p : Process) (number : Nat) : Bool :=
  p.system.running.contains number

def send (p : Process) (receiver signal : Nat) : Process :=
  { p with system.signals := p.system.signals ++ [⟨receiver, signal⟩] }

/-! ## Files by path -/

def find? (p : Process) (path : Octets) : Option NodeId :=
  p.volume.find? p.directory path

def nodeAt? (p : Process) (path : Octets) : Option Node :=
  (p.find? path).map p.volume.node

def readFile (p : Process) (path : Octets) : Except OsFault Octets := do
  let (p, id) ← p.openPath .read path
  return Octets.ofBytes (← p.remaining (p.system.files[id]?.getD default) unlimited)

end Process

end Diaporama.Rehearsal
