import Diaporama.Rehearsal.Program.Table
import Diaporama.Rehearsal.Script.Arithmetic
import Diaporama.Rehearsal.Script.Step

/-!
# Running

Commands run in a session. The words of a command are expanded from left to right, and what they run
on the way may change the session; then its redirections are opened, its assignments made, and the
command is looked for among functions, commands of the shell and programs. A program is a script, which
runs in a shell of its own, or is known by its name; it may run further programs. Fuel bounds the
rounds and the depth of all this.
-/

namespace Diaporama.Rehearsal

structure Mode where
  /-- Its failure is asked for, and does not end the shell. -/
  isTested : Bool
  /-- Nothing is left to do behind it, so that a program may take the place of the shell. -/
  isLast : Bool

namespace Mode

def usual : Mode := ⟨false, false⟩

def last : Mode := ⟨false, true⟩

def tested : Mode := ⟨true, false⟩

/-- The mode of a part behind which there is more to do. -/
def inner (m : Mode) : Mode :=
  ⟨m.isTested, false⟩

end Mode

inductive Executable where
  /-- A program that is known by its name. -/
  | known (name : String)
  /-- A text for another program, which is called with one more word. -/
  | interpreted (interpreter : Octets) (argument : Option Octets)
  | unknown

namespace Executable

def mark : Octets :=
  Char.ofNat 127 :: "ELF".toList

def maxLine : Nat := 255

def ofContent (content : ByteArray) : Executable :=
  let start := Octets.ofBytes (content.extract 0 maxLine)
  match start with
  | '#' :: '!' :: rest =>
    let line := (rest.takeWhile (· ≠ '\n')).dropWhile Octets.isBlank
    let line := Octets.dropEndWhile Octets.isBlank line
    let interpreter := line.takeWhile (!Octets.isBlank ·)
    let argument := (line.drop interpreter.length).dropWhile Octets.isBlank
    if interpreter.isEmpty then unknown
    else interpreted interpreter (if argument.isEmpty then none else some argument)
  | start =>
    if mark.isPrefixOf start then known (String.ofList (start.drop mark.length)) else unknown

def maxWord : Nat := 131072

def maxWords : Nat := 2097152 - 4096

def isTooMuch (words : List Octets) (environment : List (Octets × Octets)) : Bool :=
  let sizes := words.map (fun w => w.length + 1) ++
    environment.map fun entry => entry.1.length + entry.2.length + 2
  sizes.any (maxWord < ·) || maxWords < total sizes + 8 * sizes.length

end Executable

open Session Act

mutual

def expandPiece : Nat → Piece → Act (List Part)
  | 0, _ => pure []
  | fuel + 1, piece => do
    match piece with
    | .text cs isQuoted => return [.text cs isQuoted]
    | .mark => return [.mark]
    | .arithmetic expression isQuoted =>
      let parts ← expand fuel expression
      let s ← get
      let text := Part.joined s.joint parts
      match Arithmetic.evaluate s.value? text with
      | .ok (n, assigned) =>
        for (name, value) in assigned.reverse do assign name (Octets.ofInt value)
        return [.ofValue isQuoted (Octets.ofInt n)]
      | .error (.expression problem) =>
        fail ("arithmetic expression: " ++ problem ++ ": \"" ++ String.ofList text ++ "\"")
      | .error (.number text) => fail ("Illegal number: " ++ String.ofList text)
    | .command body isQuoted =>
      return [.ofValue isQuoted (← if body.isEmpty then pure [] else capture fuel body)]
    | .parameter name alteration colon argument isQuoted =>
      expandParameter fuel name alteration colon argument isQuoted

def expandParameter : Nat → Octets → Alteration → Bool → Word → Bool → Act (List Part)
  | 0, _, _, _, _, _ => pure []
  | fuel + 1, name, alteration, colon, argument, isQuoted => do
    let s ← get
    let value? := s.parameter? name
    let isSet := value?.any fun text => !(colon && text.isEmpty)
    let text := value?.getD []
    let whole : List Part :=
      if name = ['@'] then [.each s.arguments isQuoted]
      else if name = ['*'] && !isQuoted then [.each s.arguments false]
      else [.ofValue isQuoted text]
    let expandArgument : Act (List Part) := do expand fuel ((← get).tilded false argument)
    let requireSet : Act Unit := do
      if value?.isNone && s.has 'u' then fail (String.ofList name ++ ": parameter not set")
    match alteration with
    | .unknown => fail "Bad substitution"
    | .plain =>
      requireSet
      return whole
    | .size =>
      requireSet
      return [.ofValue isQuoted (Octets.ofNat text.length)]
    | .otherwise =>
      if isSet then return whole else return Part.inPlace isQuoted (← expandArgument)
    | .instead =>
      if isSet then return Part.inPlace isQuoted (← expandArgument)
      else return [.ofValue isQuoted []]
    | .assign =>
      if isSet then return whole
      let value := Part.joined s.joint (← expandArgument)
      checkName name
      assign name value
      return [.ofValue isQuoted (((← get).value? name).getD [])]
    | .require =>
      if isSet then return whole
      let parts ← expandArgument
      fail (String.ofList name ++ ": " ++
        if argument.isEmpty then Alteration.complaint colon else String.ofList (Part.joined s.joint parts))
    | .trimStart longest =>
      requireSet
      let parts ← expandArgument
      return [.ofValue isQuoted ((Part.pattern s.joint parts).trimStart longest text)]
    | .trimEnd longest =>
      requireSet
      let parts ← expandArgument
      return [.ofValue isQuoted ((Part.pattern s.joint parts).trimEnd longest text)]

def expand : Nat → Word → Act (List Part)
  | 0, _ => pure []
  | _ + 1, [] => pure []
  | fuel + 1, piece :: pieces => do
    let first ← expandPiece fuel piece
    return first ++ (← expand fuel pieces)

def textOf : Nat → Bool → Word → Act Octets
  | 0, _, _ => pure []
  | fuel + 1, isValue, w => do
    let parts ← expand fuel ((← get).tilded isValue w)
    return Part.joined (← get).joint parts

def fieldsOf : Nat → Word → Act (List Octets)
  | 0, _ => pure []
  | fuel + 1, w => do
    let parts ← expand fuel ((← get).tilded false w)
    let s ← get
    let patterns := Fields.ofParts s.separators parts
    if s.has 'f' then return patterns.map Pattern.toText
    else return patterns.flatMap (Pattern.expand s.process.volume s.process.directory)

def fieldsOfAll : Nat → List Word → Act (List Octets)
  | 0, _ => pure []
  | _ + 1, [] => pure []
  | fuel + 1, w :: ws => do
    let first ← fieldsOf fuel w
    return first ++ (← fieldsOfAll fuel ws)

def assigningFields : Nat → List Word → Act (List Octets)
  | 0, _ => pure []
  | _ + 1, [] => pure []
  | fuel + 1, w :: ws => do
    let first ← match w.assignment? with
      | some (name, value) => do pure [name ++ '=' :: (← textOf fuel true value)]
      | none => fieldsOf fuel w
    return first ++ (← assigningFields fuel ws)

/-- The words of a command, `found` being those that are known. Once the command is, it is clear
whether its words may be assignments. -/
def commandFields : Nat → List Octets → List Word → Act (List Octets)
  | 0, found, _ => pure found
  | _ + 1, found, [] => pure found
  | fuel + 1, found, w :: ws => do
    let s ← get
    if found.isEmpty || (Call.ofWords s found).name = "command".toList then
      commandFields fuel (found ++ (← fieldsOf fuel w)) ws
    else if assignsInWords s found then return found ++ (← assigningFields fuel (w :: ws))
    else return found ++ (← fieldsOfAll fuel (w :: ws))

def capture : Nat → List Command → Act Octets
  | 0, _ => pure []
  | fuel + 1, body => do
    let child := (← get).forked
    let (p, input, output) := child.process.addPipe
    let child := { child with process := p.setDescriptor 1 output }
    let (status, system) := runSession fuel child (runAll fuel .last body)
    modify fun s => s.resume system
    let innerStatus ← statusOf status
    modify fun s => { s with innerStatus }
    let text := Octets.ofBytes ((← get).process.pipeContent input)
    receiveSignals
    return Octets.dropEndWhile (· = '\n') (scriptText text)

def prepare : Nat → List Redirection → Act (List (Nat × RedirectionKind × Octets))
  | 0, _ => pure []
  | _ + 1, [] => pure []
  | fuel + 1, .mk descriptor kind target :: rs => do
    let text ← match kind with
      | .document _ => pure []
      | _ => textOf fuel false target
    if (kind = .copyInput || kind = .copyOutput) && text ≠ ['-'] &&
        !(text.length = 1 && text.all Char.isDigit) then
      failReading "Syntax error: Bad fd number"
    return (descriptor, kind, text) :: (← prepare fuel rs)

def redirect : Nat → List (Nat × RedirectionKind × Octets) → Act Unit
  | 0, _ => pure ()
  | _ + 1, [] => pure ()
  | fuel + 1, (descriptor, kind, text) :: rs => do
    match kind with
    | .document n =>
      let w := ((← get).documents[n]?).getD []
      let parts ← expand fuel w
      feed descriptor (Part.joined (← get).joint parts)
    | .copyInput | .copyOutput => copyDescriptor descriptor text
    | kind => openFile descriptor kind text
    redirect fuel rs

def load : Nat → Process → Octets → List Octets → Except OsFault (ExitStatus × System)
  | 0, _, _, _ => .error .tooManyLinks
  | fuel + 1, p, path, words => do
    if Executable.isTooMuch words p.environment then throw .argumentsTooLong
    let node := p.volume.node (← p.volume.find p.directory path)
    if !(node.isFile && node.isExecutable) then throw .permissionDenied
    match Executable.ofContent (p.volume.content (← p.volume.find p.directory path)) with
    | .unknown => throw .formatError
    | .interpreted interpreter argument =>
      load fuel p interpreter (interpreter :: argument.toList ++ path :: words.drop 1)
    | .known "dash" | .known "bash" => return shell fuel p words
    | .known name =>
      match programs.lookup name with
      | none => throw .formatError
      | some program =>
        return Tool.runAs program (fun p words => launch fuel true p words) (words.headD [])
          (words.drop 1) p

/-- Runs a program that is named by its path; a file that is none is taken for a script. -/
def loadOrInterpret : Nat → Process → Octets → List Octets → Except OsFault (ExitStatus × System)
  | 0, _, _, _ => .error .tooManyLinks
  | fuel + 1, p, path, words =>
    match load fuel p path words with
    | .error fault =>
      if fault = .formatError then
        load fuel p "/bin/sh".toList ("/bin/sh".toList :: path :: words.drop 1)
      else .error fault
    | result => result

/-- Runs the first program of those at some paths that is one; `before` is what was wrong so far. -/
def loadFirst : Nat → Bool → Process → OsFault → List Octets → List Octets →
    Except OsFault (ExitStatus × System)
  | 0, _, _, before, _, _ => .error before
  | _ + 1, _, _, before, [], _ => .error before
  | fuel + 1, takesScripts, p, before, path :: paths, words =>
    match if takesScripts then loadOrInterpret fuel p path words else load fuel p path words with
    | .ok result => .ok result
    | .error fault =>
      if fault = .notFound || fault = .notDirectory then
        loadFirst fuel takesScripts p before paths words
      else if fault = .permissionDenied then loadFirst fuel takesScripts p fault paths words
      else .error fault

def launch : Nat → Bool → Process → List Octets → Except OsFault (ExitStatus × System)
  | 0, _, _, _ => .error .tooManyLinks
  | fuel + 1, takesScripts, p, words =>
    let name := words.headD []
    let directories := Octets.split ':' ((p.setting? "PATH".toList).getD "/bin:/usr/bin".toList)
    let paths := if name.contains '/' then [name] else directories.map fun d => inDirectory d name
    if name.isEmpty then .error .notFound else loadFirst fuel takesScripts p .notFound paths words

def shell : Nat → Process → List Octets → ExitStatus × System
  | 0, p, _ => (.exited 2, p.gone)
  | fuel + 1, p, words =>
    runSession fuel (Session.start p (words.headD [])) (startUp fuel (words.drop 1))

/-- What a shell does from its start on: it reads its switches, and a script from a word, from a file
or from its input. -/
def startUp : Nat → List Octets → Act Unit
  | 0, _ => pure ()
  | fuel + 1, words => do
    let (rest, _, hasScript) ← readSwitches true (words.length + 1) words
    if hasScript then
      match rest with
      | [] => fail "-c requires an argument"
      | script :: rest =>
        match rest with
        | name :: arguments => modify fun s => { s with name, arguments }
        | [] => pure ()
        discard (runText fuel (if (← get).has 's' then .usual else .last) script)
    else if rest.isEmpty || (← get).has 's' then
      switch true 's'
      modify fun s => { s with arguments := rest }
      match (← get).process.readAll 0 with
      | .ok (text, process) =>
        modify fun s => { s with process }
        discard (runText fuel .usual (scriptText text))
      | .error _ => return
    else
      let file := rest.headD []
      openFile 10 .read file
      modify fun s => { s with name := file, arguments := rest.drop 1 }
      let text := ((← get).process.readAll 10).toOption
      modify fun s => { s with process := s.process.closeDescriptor 10 }
      discard (runText fuel .usual (scriptText ((text.map (·.1)).getD [])))

def runSession : Nat → Session → Act Unit → ExitStatus × System
  | 0, s, _ => (.exited 2, s.process.gone)
  | fuel + 1, s, act =>
    let (result, s) := act.run.run s
    conclude fuel result s

def conclude : Nat → Except Stop Unit → Session → ExitStatus × System
  | 0, _, s => (.exited 2, s.process.gone)
  | fuel + 1, result, s =>
    match result, s.traps.lookup 0 with
    | .error (.gone status), _ => (status, s.process.gone)
    | _, none => (.exited (s.status % 256), s.process.gone)
    | _, some action =>
      let others := s.traps.filter fun entry => entry.1 ≠ 0
      let kept := s.status
      let (result, s) := (runText fuel .usual action).run.run
        { s with traps := others, skip := .nothing, loops := 0, keptStatus := some kept }
      match result with
      | .ok _ => (.exited (kept % 256), s.process.gone)
      | .error (.gone status) => (status, s.process.gone)
      | .error _ => (.exited (s.status % 256), s.process.gone)

/-- Runs the commands of a text, whose lines are counted from one, and tells whether there were
any. -/
def runText : Nat → Mode → Octets → Act Bool
  | 0, _, _ => throw (.gone (.exited 2))
  | fuel + 1, mode, text => do
    let s ← get
    let ran ← runLines fuel mode false (Reader.ofText text s.documents)
    modify fun after => { after with readLine := s.readLine }
    return ran

/-- Runs the lines of a text one after the other; `ran` tells whether there were commands before. -/
def runLines : Nat → Mode → Bool → Reader → Act Bool
  | 0, _, _, _ => throw (.gone (.exited 2))
  | fuel + 1, mode, ran, r => do
    if r.atEnd then return ran
    let s ← get
    match { r with documents := s.documents }.nextLine with
    | .error complaint =>
      if s.has 'v' then writeTo 2 r.rest
      modify fun s => { s with readLine := complaint.line }
      failReading complaint.message
    | .ok (commands, next) =>
      modify fun s => { s with documents := next.documents, readLine := next.line }
      if s.has 'v' then writeTo 2 (r.rest.take (r.rest.length - next.rest.length))
      if !s.has 'n' then runAll fuel ⟨mode.isTested, mode.isLast && next.atEnd⟩ commands
      if (← get).skip = .nothing then runLines fuel mode (ran || !commands.isEmpty) next
      else return true

def answerSignals : Nat → Act Unit
  | 0 => pure ()
  | fuel + 1 => do
    let s ← get
    match s.arrived.min? with
    | none => return
    | some signal =>
      if s.skip ≠ .nothing then return
      let kept := s.keptStatus.getD s.status
      set { s with arrived := s.arrived.filter (· ≠ signal), keptStatus := some kept }
      discard (runText fuel .usual ((s.traps.lookup signal).getD []))
      modify fun after =>
        { after with
          keptStatus := s.keptStatus
          status := if after.skip = .returning then after.status else kept }
      answerSignals fuel

def runAll : Nat → Mode → List Command → Act Unit
  | 0, _, _ => throw (.gone (.exited 2))
  | _ + 1, _, [] => pure ()
  | fuel + 1, mode, [c] => run fuel mode c
  | fuel + 1, mode, c :: cs => do
    run fuel mode.inner c
    if (← get).skip = .nothing then runAll fuel mode cs

/-- The words of a call run as a function, as a command of the shell, or as a program. -/
def call : Nat → Mode → Call → Act Unit
  | 0, _, _ => throw (.gone (.exited 2))
  | fuel + 1, mode, c => do
    let s ← get
    match c.words with
    | [] => setStatus s.innerStatus
    | name :: words =>
      match if c.skipsFunctions then none else s.functions.lookup name with
      | some body => callFunction fuel mode body words
      | none =>
        if isBuiltin name then
          match builtin? name with
          | some act => runBuiltin c.isSpecial name (act words)
          | none => runBuiltin c.isSpecial name (callInner fuel mode name words)
        else callProgram fuel mode c

def callFunction : Nat → Mode → Command → List Octets → Act Unit
  | 0, _, _, _ => throw (.gone (.exited 2))
  | fuel + 1, mode, body, arguments => do
    let s ← get
    if 1000 ≤ s.functionDepth then fail "Maximum function recursion depth (1000) reached"
    set { s with arguments, loops := 0, functionDepth := s.functionDepth + 1 }
    let result ← observing (run fuel mode.inner body)
    modify fun after =>
      { after with
        arguments := s.arguments
        loops := s.loops
        functionDepth := s.functionDepth
        skip := if after.skip = .returning then .nothing else after.skip }
    match result with
    | .ok () => return
    | .error stop => throw stop

def callInner : Nat → Mode → Octets → List Octets → Act Nat
  | 0, _, _, _ => throw (.gone (.exited 2))
  | fuel + 1, mode, name, words => do
    match String.ofList name with
    | "eval" =>
      if ← runText fuel mode.inner (Octets.joined [' '] words) then return (← get).status
      else return 0
    | "." =>
      let (_, words) ← optionsOf "" words
      match words with
      | [] => return 0
      | file :: _ => source fuel file
    | "exec" =>
      let (_, words) ← optionsOf "" words
      if words.isEmpty then return 0 else replace fuel words
    | "wait" => wait words
    | "command" =>
      let (flags, words) ← optionsOf "pvV" words
      match words with
      | known :: _ =>
        if flags.any fun entry => entry.1 ≠ 'p' then
          describe (flags.any fun entry => entry.1 = 'v') known
        else return 0
      | [] => return 0
    | _ => return 0

def source : Nat → Octets → Act Nat
  | 0, _ => throw (.gone (.exited 2))
  | fuel + 1, file => do
    let s ← get
    let isPlain (path : Octets) : Bool := (s.process.nodeAt? path).any Node.isFile
    let path ←
      if file.contains '/' then pure file
      else match (s.searchPath.map fun d => inDirectory d file).find? isPlain with
        | some path => pure path
        | none => fail (String.ofList file ++ ": not found")
    match s.process.readFile path with
    | .error fault =>
      if fault = .isDirectory then return 0 else fail (openProblem .read path fault)
    | .ok text =>
      modify fun s => { s with running := some path }
      let ran ← runText fuel .usual (scriptText text)
      modify fun s => { s with skip := if s.skip = .returning then .nothing else s.skip }
      let after ← get
      return if ran then after.status else 0

def replace : Nat → List Octets → Act Nat
  | 0, _ => throw (.gone (.exited 2))
  | fuel + 1, words => do
    let s ← get
    let name := words.headD []
    let paths := if name.contains '/' then [name] else s.searchPath.map fun d => inDirectory d name
    match loadFirst fuel true s.forProgram .notFound paths words with
    | .ok (status, system) =>
      modify fun s => s.resume system
      throw (.gone status)
    | .error fault =>
      warn (String.ofList name ++ ": " ++ startProblem fault)
      setStatus (startStatus fault)
      throw .ending

/-- Runs a program and waits for its end; nothing more to do, it takes the place of the shell. -/
def callProgram : Nat → Mode → Call → Act Unit
  | 0, _, _ => throw (.gone (.exited 2))
  | fuel + 1, mode, c => do
    let s ← get
    let directories := if c.usesUsualPath then Octets.split ':' usualPath else s.searchPath
    match if c.name.contains '/' then .ok c.name else s.searchProgram directories c.name with
    | .error fault =>
      warn (String.ofList c.name ++ ": " ++ startProblem fault)
      setStatus 127
    | .ok path =>
      let replaces := mode.isLast && s.traps.isEmpty
      let p := if replaces then s.forProgram else s.forProgram.fork
      match loadOrInterpret fuel p path c.words with
      | .ok (status, system) =>
        modify fun s => s.resume system
        if replaces then throw (.gone status)
        setStatus (← statusOf status)
        receiveSignals
      | .error fault =>
        warn (String.ofList c.name ++ ": " ++ startProblem fault)
        setStatus (startStatus fault)
        if replaces then throw .ending

def assignAll : Nat → Bool → Bool → List Word → Act (List Octets)
  | 0, _, _, _ => pure []
  | _ + 1, _, _, [] => pure []
  | fuel + 1, isLocal, exports, w :: ws => do
    match w.assignment? with
    | none => assignAll fuel isLocal exports ws
    | some (name, value) =>
      let text ← textOf fuel true value
      if isLocal then shadow name
      assign name text
      if isLocal || exports then
        modify fun s => s.putVariable name
          ((s.bindings.lookup name).map fun v => { v with isExported := true })
      return (name ++ '=' :: text) :: (← assignAll fuel isLocal exports ws)

def runSimple : Nat → Mode → List Word → List Word → List Redirection → Act Unit
  | 0, _, _, _, _ => throw (.gone (.exited 2))
  | fuel + 1, mode, assignments, words, rs => do
    modify fun s => { s with innerStatus := 0 }
    let fields ← commandFields fuel [] words
    let ready ← prepare fuel rs
    let s ← get
    let c := Call.ofWords s fields
    let execs := c.name = "exec".toList && !Call.isFunction s c
    let isLocal := !fields.isEmpty && !c.isSpecial
    let before := s.process.descriptors
    let restore : Act Unit :=
      modify fun s => { s with process := { s.process with descriptors := before } }
    match ← observing (redirect fuel ready) with
    | .error stop =>
      restore
      setStatus 2
      if stop ≠ .mistake || c.isSpecial then throw stop
    | .ok () =>
      if isLocal then modify fun s => { s with frames := [] :: s.frames }
      let act : Act Unit := do
        let texts ← assignAll fuel isLocal (execs && 1 < fields.length) assignments
        if (← get).has 'x' then
          let prompt := (← get).value "PS4"
          let start ← expand fuel (Reader.ofText prompt #[]).wholeWord
          showCommand before (Part.joined [' '] start) (texts ++ fields)
        call fuel mode c
      let result ← observing act
      if !execs || result.toOption.isNone then restore
      match result with
      | .error stop => throw stop
      | .ok () => leaveFrames s.frames.length

def runRedirected : Nat → Mode → Command → List Redirection → Act Unit
  | 0, _, _, _ => throw (.gone (.exited 2))
  | fuel + 1, mode, c, rs => do
    let ready ← prepare fuel rs
    let before := (← get).process.descriptors
    let restore : Act Unit :=
      modify fun s => { s with process := { s.process with descriptors := before } }
    match ← observing (redirect fuel ready) with
    | .error stop =>
      restore
      if stop ≠ .mistake then throw stop
      setStatus 2
    | .ok () =>
      let result ← observing (run fuel mode.inner c)
      restore
      match result with
      | .error stop => throw stop
      | .ok () => return

/-- Runs the stages of a pipeline, each of which reads what the one before it wrote. The last one gives
the status. -/
def runStages : Nat → Mode → Option Nat → List Command → Act Unit
  | 0, _, _, _ => throw (.gone (.exited 2))
  | _ + 1, _, _, [] => pure ()
  | fuel + 1, mode, input, c :: cs => do
    let child := (← get).forked
    let p := match input with
      | some id => child.process.setDescriptor 0 id
      | none => child.process
    let (p, next) :=
      if cs.isEmpty then (p, none)
      else
        let (p, input, output) := p.addPipe
        (p.setDescriptor 1 output, some input)
    let (status, system) := runSession fuel { child with process := p } (run fuel ⟨mode.isTested, true⟩ c)
    modify fun s => s.resume system
    setStatus (← statusOf status)
    runStages fuel mode next cs

def runCase : Nat → Mode → Octets → List (List Word × List Command) → Act Unit
  | 0, _, _, _ => throw (.gone (.exited 2))
  | _ + 1, _, _, [] => setStatus 0
  | fuel + 1, mode, subject, (patterns, body) :: cases => do
    if ← matchesAny fuel subject patterns then
      if body.isEmpty then setStatus 0 else runAll fuel mode body
    else runCase fuel mode subject cases

def matchesAny : Nat → Octets → List Word → Act Bool
  | 0, _, _ => pure false
  | _ + 1, _, [] => pure false
  | fuel + 1, subject, w :: ws => do
    let parts ← expand fuel ((← get).tilded false w)
    if (Part.pattern (← get).joint parts).accepts subject then return true
    else matchesAny fuel subject ws

/-- The rounds of a loop with a condition; `last` is the status of the round before. -/
def repeatWhile : Nat → Mode → Bool → List Command → List Command → Nat → Act Nat
  | 0, _, _, _, _, _ => throw (.gone (.exited 2))
  | fuel + 1, mode, isUntil, condition, body, last => do
    runAll fuel .tested condition
    let tested := (← get).status
    match ← leaveRound with
    | .returning => return tested
    | .breaking _ => return last
    | .continuing _ => repeatWhile fuel mode isUntil condition body last
    | .nothing =>
      if (tested = 0) = isUntil then return last
      runAll fuel mode body
      let status := (← get).status
      match ← leaveRound with
      | .returning | .breaking _ => return status
      | _ => repeatWhile fuel mode isUntil condition body status

def repeatFor : Nat → Mode → Octets → List Octets → List Command → Act Unit
  | 0, _, _, _, _ => throw (.gone (.exited 2))
  | _ + 1, _, _, [], _ => pure ()
  | fuel + 1, mode, name, value :: values, body => do
    assign name value
    runAll fuel mode body
    match ← leaveRound with
    | .returning | .breaking _ => return
    | _ => repeatFor fuel mode name values body

/-- Runs a command that is no simple one, whose parts decide on their own whether a failure ends the
shell. -/
def runCompound : Nat → Mode → Command → Act Unit
  | 0, _, _ => throw (.gone (.exited 2))
  | fuel + 1, mode, c => do
    match c with
    | .simple _ _ _ _ | .pipeline _ | .subshell _ _ _ | .background _ _ => return
    | .group body => runAll fuel mode body
    | .define name body =>
      modify fun s =>
        { s with
          functions := (name, body) :: s.functions.filter fun entry => entry.1 ≠ name
          status := 0 }
    | .redirected line inner rs =>
      modify fun s => { s with line }
      runRedirected fuel mode inner rs
    | .negated inner =>
      run fuel .tested inner
      let s ← get
      if s.skip = .nothing then setStatus (if s.status = 0 then 1 else 0)
    | .both first second =>
      run fuel .tested first
      let s ← get
      if s.skip = .nothing && s.status = 0 then run fuel mode second
    | .either first second =>
      run fuel .tested first
      let s ← get
      if s.skip = .nothing && s.status ≠ 0 then run fuel mode second
    | .conditional condition body otherwise =>
      runAll fuel .tested condition
      let s ← get
      if s.skip = .nothing then
        if s.status = 0 then runAll fuel mode body
        else if otherwise.isEmpty then setStatus 0
        else runAll fuel mode otherwise
    | .loop isUntil condition body =>
      modify fun s => { s with loops := s.loops + 1 }
      let status ← repeatWhile fuel mode.inner isUntil condition body 0
      modify fun s => { s with loops := s.loops - 1, status }
    | .each line name words body =>
      modify fun s => { s with line }
      let values ← fieldsOfAll fuel words
      modify fun s => { s with loops := s.loops + 1 }
      if values.isEmpty then setStatus 0 else repeatFor fuel mode.inner name values body
      modify fun s => { s with loops := s.loops - 1 }
    | .choice line subject cases =>
      modify fun s => { s with line }
      let text ← textOf fuel false subject
      runCase fuel mode text cases

def run : Nat → Mode → Command → Act Unit
  | 0, _, _ => throw (.gone (.exited 2))
  | fuel + 1, mode, c => do
    answerSignals fuel
    match c with
    | .simple line assignments words rs =>
      modify fun s => { s with line }
      runSimple fuel mode assignments words rs
      answerSignals fuel
      check mode.isTested
    | .pipeline stages =>
      runStages fuel mode none stages
      receiveSignals
      answerSignals fuel
      check mode.isTested
    | .subshell line body rs =>
      modify fun s => { s with line }
      let ready ← prepare fuel rs
      let act : Act Unit := do
        redirect fuel ready
        runAll fuel ⟨mode.isTested, true⟩ body
      let (status, system) := runSession fuel (← get).forked act
      modify fun s => s.resume system
      setStatus (← statusOf status)
      receiveSignals
      answerSignals fuel
      check mode.isTested
    | .background line inner =>
      let child := inBackground (← get)
      let (status, system) := runSession fuel child (run fuel .last inner)
      modify fun s =>
        { s.resume system with
          line, status := 0, jobs := (child.process.number, status) :: s.jobs }
      answerSignals fuel
    | c =>
      runCompound fuel mode c
      answerSignals fuel

end

end Diaporama.Rehearsal
