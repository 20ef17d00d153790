import Diaporama.Host.Basic
import Diaporama.Rehearsal.Script.Run

/-!
# A machine in memory

A machine is a volume with a current directory. Its programs are scripts, and those that are known by
their names. It offers what the library asks of a host, so that a whole render can be played through
without touching anything.
-/

namespace Diaporama.Rehearsal

structure Machine where
  volume : Volume
  directory : NodeId

namespace Machine

/-! ## A fresh machine -/

def directories : List String :=
  ["/dev", "/dev/fd", "/etc", "/home", "/mnt", "/opt", "/root", "/run", "/srv", "/tmp", "/usr",
    "/usr/bin", "/usr/lib", "/usr/local", "/usr/local/bin", "/usr/local/sbin", "/usr/sbin",
    "/usr/share", "/var", "/var/tmp", "/tmp/work"]

def links : List (String × String) :=
  [("/bin", "usr/bin"), ("/lib", "usr/lib"), ("/sbin", "usr/sbin"), ("/usr/bin/sh", "dash")]

def devices : List (String × Device) :=
  [("/dev/null", .null), ("/dev/zero", .zero), ("/dev/full", .full), ("/dev/tty", .terminal),
    ("/dev/random", .random), ("/dev/urandom", .random), ("/dev/stdin", .descriptor 0),
    ("/dev/stdout", .descriptor 1), ("/dev/stderr", .descriptor 2)] ++
  (List.range 10).map fun n => ("/dev/fd/" ++ toString n, .descriptor n)

def place (v : Volume) (path : String) (body : Body) (mode : Nat) : Volume :=
  match v.resolveEntry Volume.root path.toList with
  | .ok (.missing directory name) => (v.add directory name body mode).1
  | _ => v

def programFile (name : String) : Body :=
  .file (Octets.toBytes (Executable.mark ++ name.toList))

def freshVolume : Volume :=
  let v := directories.foldl
    (fun v path => place v path (.directory Volume.root []) (if path = "/tmp" then 0o1777 else 0o755))
    Volume.empty
  let v := links.foldl (fun v entry => place v entry.1 (.link entry.2.toList) 0o777) v
  let v := devices.foldl (fun v entry => place v entry.1 (.device entry.2) 0o666) v
  let v := place v "/etc/passwd" (.file "root:x:0:0:root:/root:/bin/bash\n".toUTF8) 0o644
  ("dash" :: "bash" :: programs.map (·.1)).foldl
    (fun v name => place v ("/usr/bin/" ++ name) (programFile name) 0o755) v

def fresh : Machine :=
  ⟨freshVolume, (freshVolume.find? Volume.root "/tmp/work".toList).getD Volume.root⟩

/-! ## Programs -/

/-- The number of the process that stands for the library. -/
def ownNumber : Nat := 4000

/-- The process that stands for the library, with no input and output; the error output of what it
starts goes into a pipe, whose number is given too. -/
def process (m : Machine) : Process × Nat :=
  let p : Process := {
    system := ⟨m.volume, #[], ownNumber, [1, ownNumber], []⟩
    number := ownNumber
    parent := 1
    directory := m.directory
    descriptors := []
    environment := [("HOME".toList, "/root".toList), ("PATH".toList, usualPath),
      ("PWD".toList, m.volume.path m.directory)]
    ignored := [] }
  let p := match p.openPath .readWrite "/dev/null".toList with
    | .ok (p, id) => (p.setDescriptor 0 id).setDescriptor 1 id
    | .error _ => p
  let (p, input, output) := p.addPipe
  (p.setDescriptor 2 output, input)

/-- The fuel of a program: the depth of what it runs, and the rounds of its loops. -/
def maxSteps : Nat := 1000000

def run (m : Machine) (program : FilePath) (args : List String) : Except RunFault Exit × Machine :=
  let words := Octets.ofBytes program.bytes :: args.map Octets.ofString
  if words.any fun w => w.contains (Char.ofNat 0) then
    (.error (.notStarted .zeroArgument), m)
  else
    let (p, errors) := m.process
    match launch maxSteps false p.fork words with
    | .error fault => (.error (.notStarted fault), m)
    | .ok (status, system) =>
      (.ok ⟨status, (p.resume system).pipeContent errors⟩, { m with volume := system.volume })

/-! ## Files -/

def path (p : FilePath) : Octets :=
  Octets.ofBytes p.bytes

def find? (m : Machine) (p : FilePath) : Option Node :=
  (m.volume.find? m.directory (path p)).map m.volume.node

def pathExists (m : Machine) (p : FilePath) : Bool :=
  (m.find? p).isSome

def read (m : Machine) (p : FilePath) : FileReading :=
  match m.process.1.openPath .read (path p) with
  | .error fault => .unopened fault
  | .ok (process, id) =>
    match process.remaining (process.system.files[id]?.getD default) Process.unlimited with
    | .ok content => .bytes content
    | .error fault => .broken fault

def createAll (m : Machine) : Nat → FilePath → Except OsFault Unit × Machine
  | 0, _ => (.error .notFound, m)
  | depth + 1, p =>
    if p.isEmpty then (.ok (), m)
    else
      let isThere (m : Machine) : Bool := (m.find? p).any Node.isDirectory
      let create (m : Machine) : Except OsFault Unit × Machine :=
        match m.volume.makeDirectory m.directory (path p) 0o755 with
        | .ok volume => (.ok (), { m with volume })
        | .error fault => (if isThere m then .ok () else .error fault, m)
      match create m with
      | (.error fault, m) =>
        if fault ≠ .notFound then (.error fault, m)
        else match p.parent? with
          | none => (.error fault, m)
          | some above =>
            match createAll m depth above with
            | (.ok (), m) => create m
            | failed => failed
      | done => done

def createDirectories (m : Machine) (p : FilePath) : Except OsFault Unit × Machine :=
  m.createAll (p.bytes.size + 1) p

def write (m : Machine) (p : FilePath) (content : ByteArray) (executable : Bool) : Machine :=
  let m := match p.parent? with
    | some above => (m.createDirectories above).2
    | none => m
  match m.volume.openToWrite m.directory (path p) 0o644 with
  | .ok (v, id) =>
    let v := v.setContent id content
    { m with volume := if executable then v.setMode id 0o755 else v }
  | .error _ => m

instance : Host (StateM Machine) where
  run program args := modifyGet fun m => m.run program args
  pathExists p := return (← get).pathExists p
  createDirectories p := modifyGet fun m => m.createDirectories p
  readFile p := return (← get).read p

end Machine

end Diaporama.Rehearsal
