import Diaporama.Rehearsal.Script.Command

/-!
# Reading scripts

A reader takes a script apart from left to right: characters make tokens, tokens make commands. A
word may hold commands of its own, so that both go hand in hand. Whether a word is a keyword depends
on where it stands, and the text of a here-document begins behind the line that asks for it. What is
wrong is complained about with the line that was reached.
-/

namespace Diaporama.Rehearsal

structure Complaint where
  line : Nat
  message : String

structure Awaited where
  number : Nat
  delimiter : Octets
  expands : Bool
  stripsTabs : Bool

inductive Token where
  | endOfText
  | newline
  | semicolon
  | ampersand
  | bothIf
  | eitherIf
  | bar
  | opening
  | closing
  | endOfCase
  | word (w : Word)
  | redirection (descriptor : Nat) (kind : RedirectionKind)
  | document (descriptor : Nat) (stripsTabs : Bool)
  | keyword (name : String)

namespace Token

def name : Token → String
  | endOfText => "end of file"
  | newline => "newline"
  | semicolon => "\";\""
  | ampersand => "\"&\""
  | bothIf => "\"&&\""
  | eitherIf => "\"||\""
  | bar => "\"|\""
  | opening => "\"(\""
  | closing => "\")\""
  | endOfCase => "\";;\""
  | word _ => "word"
  | redirection _ _ | document _ _ => "redirection"
  | keyword name => "\"" ++ name ++ "\""

def isKeyword (name : String) : Token → Bool
  | keyword other => name = other
  | _ => false

def isClosing (t : Token) : Bool :=
  t matches .closing

def endsList : Token → Bool
  | endOfText | closing | endOfCase => true
  | keyword name =>
    ["do", "done", "elif", "else", "esac", "fi", "then", "\x7d"].contains name
  | _ => false

end Token

def keywords : List String :=
  ["!", "case", "do", "done", "elif", "else", "esac", "fi", "for", "if", "in", "then", "until",
    "while", "\x7b", "\x7d"]

structure Watch where
  skipsNewlines : Bool
  findsKeywords : Bool
  /-- The token ends a here-document, so nothing in it is expanded. -/
  isDelimiter : Bool

namespace Watch

def nothing : Watch := ⟨false, false, false⟩

def command : Watch := ⟨false, true, false⟩

def laterCommand : Watch := ⟨true, true, false⟩

def delimiter : Watch := ⟨false, false, true⟩

end Watch

structure Reader where
  rest : Octets
  line : Nat
  last : Token
  /-- The last token is read once more. -/
  isPushed : Bool
  watch : Watch
  awaited : List Awaited
  documents : Array Word

abbrev Reading := StateT Reader (Except Complaint)

namespace Reader

def complain {α : Type} (message : String) : Reading α := do
  throw ⟨(← get).line, "Syntax error: " ++ message⟩

/-- The most characters of the complaint about a token. -/
def maxComplaint : Nat := 63

def unexpected {α : Type} (expected : Option Token) : Reading α := do
  let got := (← get).last.name ++ " unexpected"
  match expected with
  | some t => complain (String.ofList ((got ++ " (expecting " ++ t.name ++ ")").toList.take maxComplaint))
  | none => complain got

/-! ## Characters -/

def skipJoins : Octets → Nat → Octets × Nat
  | '\\' :: '\n' :: rest, line => skipJoins rest (line + 1)
  | cs, line => (cs, line)

def next : Reading (Option Char) := do
  let r ← get
  match r.rest with
  | [] => return none
  | c :: rest =>
    set { r with rest }
    return some c

def nextJoined : Reading (Option Char) := do
  modify fun r =>
    let (rest, line) := skipJoins r.rest r.line
    { r with rest, line }
  next

def back : Option Char → Reading Unit
  | some c => modify fun r => { r with rest := c :: r.rest }
  | none => pure ()

def countLine : Reading Unit :=
  modify fun r => { r with line := r.line + 1 }

def pushToken : Reading Unit :=
  modify fun r => { r with isPushed := true }

def watchFor (w : Watch) : Reading Unit :=
  modify fun r => { r with watch := w }

/-! ## Here-documents -/

/-- The text behind the delimiter of a here-document, if a line is nothing else. -/
def afterDelimiter? (a : Awaited) (cs : Octets) : Option Octets :=
  let cs := if a.stripsTabs then cs.dropWhile (· = '\t') else cs
  if a.delimiter.isPrefixOf cs then
    match cs.drop a.delimiter.length with
    | '\n' :: rest => some rest
    | [] => some []
    | _ => none
  else none

def literalDocument (a : Awaited) : Nat → Octets → Nat → Octets × Octets × Nat
  | 0, cs, line => ([], cs, line)
  | fuel + 1, cs, line =>
    match afterDelimiter? a cs with
    | some rest => ([], rest, line + 1)
    | none =>
      if cs.isEmpty then ([], [], line)
      else
        let cs := if a.stripsTabs then cs.dropWhile (· = '\t') else cs
        let text := cs.takeWhile (· ≠ '\n')
        match cs.drop text.length with
        | [] => (text, [], line)
        | _ :: rest =>
          let (more, rest, line) := literalDocument a fuel rest (line + 1)
          (text ++ '\n' :: more, rest, line)

def setDocument (number : Nat) (w : Word) : Reading Unit :=
  modify fun r => { r with documents := r.documents.setIfInBounds number w }

/-! ## Words -/

inductive Mode where
  | plain
  | doubled
  | arithmetic
  deriving DecidableEq

structure Context where
  mode : Mode
  inBraces : Bool
  inDocument : Bool

namespace Context

def isQuoted (cx : Context) : Bool :=
  cx.mode ≠ .plain

def word : Context := ⟨.plain, false, false⟩

def doubled : Context := ⟨.doubled, false, false⟩

def arithmetic : Context := ⟨.arithmetic, false, false⟩

def document : Context := ⟨.doubled, false, true⟩

end Context

def isSpecial (c : Char) : Bool :=
  c.isDigit || c = '#' || c = '?' || c = '$' || c = '!' || c = '-' || c = '*' || c = '@'

def isOperator (c : Char) : Bool :=
  c = ' ' || c = '\t' || c = '\n' || c = ';' || c = '&' || c = '|' || c = '(' || c = ')' ||
    c = '<' || c = '>'

def backquote : Char := Char.ofNat 96

/-- Characters from the front for which `p` holds, joined lines put together. -/
def takeJoined (p : Char → Bool) : Nat → Reading Octets
  | 0 => pure []
  | fuel + 1 => do
    match ← nextJoined with
    | some c =>
      if p c then return c :: (← takeJoined p fuel)
      else
        back (some c)
        return []
    | none => return []

def singleQuoted : Nat → List Piece → Reading (List Piece)
  | 0, found => pure found
  | fuel + 1, found => do
    match ← next with
    | none => complain "Unterminated quoted string"
    | some '\'' => return found
    | some c =>
      if c = '\n' then countLine
      singleQuoted fuel (Word.pushChar true c found)

/-- What a backslash makes of the next character: in double quotes it stands for itself before most
characters. -/
def escaped (cx : Context) (found : List Piece) : Reading (List Piece) := do
  match ← next with
  | none => return Word.pushChar true '\\' found
  | some c =>
    let isKept := cx.isQuoted && c ≠ '\\' && c ≠ backquote && c ≠ '$' &&
      (c ≠ '"' || (cx.inDocument && !cx.inBraces)) && (c ≠ '\x7d' || !cx.inBraces)
    let found := if isKept then Word.pushChar true '\\' found else found
    return Word.pushChar true c found

def backquoted (cx : Context) : Nat → Octets → Reading Octets
  | 0, found => pure found
  | fuel + 1, found => do
    match ← nextJoined with
    | none => complain "EOF in backquote substitution"
    | some c =>
      if c = backquote then return found.reverse
      else if c = '\\' then
        match ← next with
        | none => complain "EOF in backquote substitution"
        | some c =>
          let isKept := c ≠ '\\' && c ≠ backquote && c ≠ '$' && (!cx.isQuoted || c ≠ '"')
          backquoted cx fuel (if isKept then c :: '\\' :: found else c :: found)
      else
        if c = '\n' then countLine
        backquoted cx fuel (c :: found)

/-- The name behind a dollar sign, whether its size is asked for, and whether it is a name at all;
`c` is its first character. -/
def parameterName (fuel : Nat) (inBraces : Bool) (c : Option Char) :
    Reading (Octets × Bool × Bool) := do
  let named (c : Char) : Reading Octets := do
    if Word.isNameStart c then return c :: (← takeJoined Word.isNameChar fuel)
    else if inBraces then return c :: (← takeJoined Char.isDigit fuel)
    else return [c]
  match c with
  | none => return ([], false, false)
  | some c =>
    if Word.isNameStart c || c.isDigit then return (← named c, false, true)
    else if inBraces && c = '#' then
      match ← nextJoined with
      | none => return ([], false, false)
      | some first =>
        if Word.isNameChar first then return (← named first, true, true)
        else
          let second ← nextJoined
          back second
          if first = '\x7d' || second ≠ some '\x7d' then
            back (some first)
            return (['#'], false, true)
          else return ([first], true, isSpecial first)
    else if isSpecial c then return ([c], false, true)
    else
      back (some c)
      return ([], false, false)

def alteration : Reading (Alteration × Bool) := do
  let twice (c : Char) : Reading Bool := do
    match ← nextJoined with
    | some d =>
      if c = d then return true
      else
        back (some d)
        return false
    | none => return false
  let plainSign (c : Char) : Alteration :=
    match c with
    | '-' => .otherwise
    | '=' => .assign
    | '?' => .require
    | '+' => .instead
    | _ => .unknown
  match ← nextJoined with
  | some '#' => return (.trimStart (← twice '#'), false)
  | some '%' => return (.trimEnd (← twice '%'), false)
  | some ':' =>
    match ← nextJoined with
    | some c => return (plainSign c, true)
    | none => return (.unknown, true)
  | some c => return (plainSign c, false)
  | none => return (.unknown, false)

mutual

/-- The pieces of a word up to where its context ends, in reverse order. `inner` tells whether quotes
are open inside braces that are quoted themselves, and `depth` counts the open brackets of an
arithmetic expression. -/
def pieces : Nat → Context → Bool → Nat → List Piece → Reading (List Piece)
  | 0, _, _, _, found => pure found
  | fuel + 1, cx, inner, depth, found => do
    match ← nextJoined with
    | none =>
      if cx.inDocument && !cx.inBraces then return found
      else if cx.mode = .arithmetic then complain "Missing '))'"
      else if cx.mode = .doubled && !cx.inDocument then complain "Unterminated quoted string"
      else if cx.inBraces then complain "Missing '\x7d'"
      else return found
    | some c =>
      let goOn (c : Char) : Reading (List Piece) :=
        pieces fuel cx inner depth (Word.pushChar cx.isQuoted c found)
      if c = '\\' then pieces fuel cx inner depth (← escaped cx found)
      else if c = '$' then pieces fuel cx inner depth (← substitution fuel cx found)
      else if c = backquote then
        if (← get).watch.isDelimiter then
          pieces fuel cx inner depth (Word.pushChar true c found)
        else pieces fuel cx inner depth (.command (← oldCommand fuel cx) cx.isQuoted :: found)
      else match cx.mode with
        | .plain =>
          if c = '\'' then pieces fuel cx inner depth (← singleQuoted fuel (.mark :: found))
          else if c = '"' then
            match ← pieces fuel .doubled false 0 [] with
            | [.parameter ['@'] .plain colon argument isQuoted] =>
              pieces fuel cx inner depth (.parameter ['@'] .plain colon argument isQuoted :: found)
            | quoted => pieces fuel cx inner depth (quoted ++ .mark :: found)
          else if c = '\x7d' && cx.inBraces then return found
          else if isOperator c && !cx.inBraces then
            back (some c)
            return found
          else
            if c = '\n' then countLine
            goOn c
        | .doubled =>
          if c = '"' && !(cx.inDocument && !cx.inBraces) then
            if cx.inBraces then pieces fuel cx (!inner) depth found else return found
          else if c = '\x7d' && cx.inBraces && !inner then return found
          else
            if c = '\n' then countLine
            if c = '\n' && cx.inDocument && !cx.inBraces then
              return Word.pushChar true c found
            else goOn c
        | .arithmetic =>
          if c = '(' then pieces fuel cx inner (depth + 1) (Word.pushChar true c found)
          else if c = ')' then
            if 0 < depth then pieces fuel cx inner (depth - 1) (Word.pushChar true c found)
            else
              let d ← nextJoined
              if d = some ')' then return found
              else
                back d
                goOn c
          else
            if c = '\n' then countLine
            goOn c

def substitution : Nat → Context → List Piece → Reading (List Piece)
  | 0, _, found => pure found
  | fuel + 1, cx, found => do
    let first ← nextJoined
    let begins (c : Char) : Bool :=
      c = '(' || c = '\x7b' || Word.isNameStart c || isSpecial c
    if (← get).watch.isDelimiter || !first.any begins then
      back first
      return Word.pushChar cx.isQuoted '$' found
    else if first = some '(' then
      let second ← nextJoined
      if second = some '(' then
        let inside ← pieces fuel .arithmetic false 0 []
        return .arithmetic (Word.ofReversed inside) cx.isQuoted :: found
      else
        back second
        return .command (← newCommand fuel) cx.isQuoted :: found
    else if first = some '\x7b' then
      let (name, asksSize, isName) ← parameterName fuel true (← nextJoined)
      let following ← nextJoined
      back following
      let (alteration, colon) ←
        if !isName then pure (.unknown, false)
        else if asksSize then
          pure (if following = some '\x7d' then .size else .unknown, false)
        else if following = some '\x7d' then pure (.plain, false)
        else alteration
      let mode := match alteration with
        | .trimStart _ | .trimEnd _ => .plain
        | _ => if cx.mode = .arithmetic then .doubled else cx.mode
      let inside ← pieces fuel ⟨mode, true, cx.inDocument && mode = .doubled⟩ false 0 []
      return .parameter name alteration colon (Word.ofReversed inside) cx.isQuoted :: found
    else
      let (name, _, _) ← parameterName fuel false first
      return .parameter name .plain false [] cx.isQuoted :: found

def newCommand : Nat → Reading (List Command)
  | 0 => complain "Missing ')'"
  | fuel + 1 => do
    let before ← get
    set { before with awaited := [], isPushed := false }
    let body ← list fuel false true
    if !(← token fuel).isClosing then unexpected (some .closing)
    modify fun r => { r with awaited := before.awaited, watch := before.watch }
    return body

def oldCommand : Nat → Context → Reading (List Command)
  | 0, _ => complain "EOF in backquote substitution"
  | fuel + 1, cx => do
    let text ← backquoted cx fuel []
    let before ← get
    set { before with rest := text, line := 1, awaited := [], isPushed := false }
    let body ← list fuel false true
    modify fun r => { before with documents := r.documents }
    return body

def documentLines : Nat → Awaited → List Piece → Reading (List Piece)
  | 0, _, found => pure found
  | fuel + 1, a, found => do
    let r ← get
    match afterDelimiter? a r.rest with
    | some rest =>
      set { r with rest, line := r.line + 1 }
      return found
    | none =>
      if r.rest.isEmpty then return found
      if a.stripsTabs then set { r with rest := r.rest.dropWhile (· = '\t') }
      documentLines fuel a (← pieces fuel .document false 0 found)

def readDocuments : Nat → Reading Unit
  | 0 => pure ()
  | fuel + 1 => do
    let r ← get
    match r.awaited with
    | [] => pure ()
    | a :: others =>
      set { r with awaited := others }
      if a.expands then
        let found ← documentLines fuel a []
        setDocument a.number (Word.ofReversed found)
      else
        let (text, rest, line) := literalDocument a (r.rest.length + 1) r.rest r.line
        modify fun r => { r with rest, line }
        setDocument a.number [.text text true]
      readDocuments fuel

/-- A token that is no operator: a word, or a redirection with the digit before it. -/
def wordToken : Nat → Reading Token
  | 0 => pure .endOfText
  | fuel + 1 => do
    let w := Word.ofReversed (← pieces fuel .word false 0 [])
    let c ← nextJoined
    let digit? : Option (Option Nat) :=
      match w with
      | [] => some none
      | [.text [d] false] => if d.isDigit then some (some (d.toNat - 48)) else none
      | _ => none
    match digit?, c with
    | some digit, some '>' =>
      let descriptor := digit.getD 1
      match ← nextJoined with
      | some '>' => return .redirection descriptor .append
      | some '|' => return .redirection descriptor .writeOver
      | some '&' => return .redirection descriptor .copyOutput
      | c =>
        back c
        return .redirection descriptor .write
    | some digit, some '<' =>
      let descriptor := digit.getD 0
      match ← nextJoined with
      | some '<' =>
        let c ← nextJoined
        if c = some '-' then return .document descriptor true
        else
          back c
          return .document descriptor false
      | some '&' => return .redirection descriptor .copyInput
      | some '>' => return .redirection descriptor .readWrite
      | c =>
        back c
        return .redirection descriptor .read
    | _, c =>
      back c
      return .word w

def rawToken : Nat → Reading Token
  | 0 => pure .endOfText
  | fuel + 1 => do
    let r ← get
    if r.isPushed then
      set { r with isPushed := false }
      return r.last
    let doubled (c : Char) (twice once : Token) : Reading Token := do
      let d ← nextJoined
      if d = some c then return twice
      else
        back d
        return once
    match ← nextJoined with
    | none => return .endOfText
    | some c =>
      match c with
      | ' ' | '\t' => rawToken fuel
      | '#' =>
        modify fun r => { r with rest := r.rest.dropWhile (· ≠ '\n') }
        rawToken fuel
      | '\n' =>
        countLine
        return .newline
      | '&' => doubled '&' .bothIf .ampersand
      | '|' => doubled '|' .eitherIf .bar
      | ';' => doubled ';' .endOfCase .semicolon
      | '(' => return .opening
      | ')' => return .closing
      | c =>
        back (some c)
        wordToken fuel

def behindNewlines : Nat → Token → Reading Token
  | 0, t => pure t
  | fuel + 1, t => do
    match t with
    | .newline =>
      readDocuments fuel
      watchFor .nothing
      behindNewlines fuel (← rawToken fuel)
    | t => return t

def watchedToken : Nat → Watch → Reading Token
  | 0, _ => pure .endOfText
  | fuel + 1, w => do
    let first ← rawToken fuel
    let t ← if w.skipsNewlines then behindNewlines fuel first else pure first
    let r ← get
    set { r with watch := .nothing }
    match t with
    | .word word =>
      match (word.plain?).map String.ofList with
      | some name => return if w.findsKeywords && keywords.contains name then .keyword name else t
      | none => return t
    | t => return t

def token : Nat → Reading Token
  | 0 => pure .endOfText
  | fuel + 1 => do
    let t ← watchedToken fuel (← get).watch
    modify fun r => { r with last := t }
    return t

def expectKeyword : Nat → String → Reading Unit
  | 0, _ => pure ()
  | fuel + 1, name => do
    if !(← token fuel).isKeyword name then unexpected (some (.keyword name))

def redirectionTarget : Nat → Token → Reading Redirection
  | 0, _ => complain "redirection unexpected"
  | fuel + 1, t => do
    match t with
    | .document descriptor stripsTabs =>
      watchFor .delimiter
      match ← token fuel with
      | .word w =>
        modify fun r =>
          let a : Awaited := ⟨r.documents.size, w.literal, w.plain?.isSome, stripsTabs⟩
          { r with documents := r.documents.push [], awaited := r.awaited ++ [a] }
        return .mk descriptor (.document ((← get).documents.size - 1)) []
      | _ => unexpected none
    | .redirection descriptor kind =>
      match ← token fuel with
      | .word w => return .mk descriptor kind w
      | _ => unexpected none
    | _ => unexpected none

def redirections : Nat → Reading (List Redirection)
  | 0 => pure []
  | fuel + 1 => do
    let t ← token fuel
    match t with
    | .document _ _ | .redirection _ _ =>
      let r ← redirectionTarget fuel t
      return r :: (← redirections fuel)
    | _ =>
      pushToken
      return []

/-- The rest of a simple command, whose parts so far are in reverse order. Behind the first word that
is no assignment there are no more assignments. -/
def simple : Nat → Nat → List Word → List Word → List Redirection → Reading Command
  | 0, line, assignments, words, rs =>
    pure (.simple line assignments.reverse words.reverse rs.reverse)
  | fuel + 1, line, assignments, words, rs => do
    watchFor .nothing
    let t ← token fuel
    match t with
    | .word w =>
      if words.isEmpty && w.assignment?.isSome then
        simple fuel line (w :: assignments) words rs
      else simple fuel line assignments (w :: words) rs
    | .document _ _ | .redirection _ _ =>
      simple fuel line assignments words ((← redirectionTarget fuel t) :: rs)
    | .opening =>
      match words, assignments, rs with
      | [w], [], [] =>
        if !(← token fuel).isClosing then unexpected (some .closing)
        match w.plain? with
        | some name =>
          if Word.isName name && !specialCommands.contains (String.ofList name) then
            watchFor .laterCommand
            return .define name (← command fuel)
          else complain "Bad function name"
        | none => complain "Bad function name"
      | _, _, _ =>
        pushToken
        return .simple line assignments.reverse words.reverse rs.reverse
    | _ =>
      pushToken
      return .simple line assignments.reverse words.reverse rs.reverse

def eachWords : Nat → Reading (List Word)
  | 0 => pure []
  | fuel + 1 => do
    match ← token fuel with
    | .word w => return w :: (← eachWords fuel)
    | .newline | .semicolon => return []
    | _ => unexpected none

/-- The patterns of a case, up to its bracket; the first token is read already. -/
def casePatterns : Nat → Token → Reading (List Word)
  | 0, _ => pure []
  | fuel + 1, t => do
    let w := match t with
      | .word w => w
      | _ => []
    match ← token fuel with
    | .bar => return w :: (← casePatterns fuel (← token fuel))
    | .closing => return [w]
    | _ => unexpected (some .closing)

def cases : Nat → Reading (List (List Word × List Command))
  | 0 => pure []
  | fuel + 1 => do
    watchFor .laterCommand
    let t ← token fuel
    if t.isKeyword "esac" then return []
    let first ← if t matches .opening then token fuel else pure t
    let patterns ← casePatterns fuel first
    let body ← list fuel false true
    watchFor .laterCommand
    let t ← token fuel
    if t.isKeyword "esac" then return [(patterns, body)]
    else if t matches .endOfCase then return (patterns, body) :: (← cases fuel)
    else unexpected (some .endOfCase)

def conditional : Nat → Reading Command
  | 0 => complain "\"if\" unexpected"
  | fuel + 1 => do
    let condition ← list fuel false false
    expectKeyword fuel "then"
    let body ← list fuel false false
    let t ← token fuel
    if t.isKeyword "elif" then return .conditional condition body [← conditional fuel]
    else if t.isKeyword "else" then
      let otherwise ← list fuel false false
      expectKeyword fuel "fi"
      return .conditional condition body otherwise
    else if t.isKeyword "fi" then return .conditional condition body []
    else unexpected (some (.keyword "fi"))

/-- A command that starts with a keyword or a bracket, `line` being where it was looked for. -/
def compound : Nat → Nat → Token → Reading Command
  | 0, _, _ => complain "word unexpected"
  | fuel + 1, line, t => do
    match t with
    | .opening =>
      let body ← list fuel false false
      if !(← token fuel).isClosing then unexpected (some .closing)
      return .subshell line body []
    | .keyword "if" => conditional fuel
    | .keyword "while" | .keyword "until" =>
      let condition ← list fuel false false
      expectKeyword fuel "do"
      let body ← list fuel false false
      expectKeyword fuel "done"
      return .loop (t.isKeyword "until") condition body
    | .keyword "for" =>
      let name ← match ← token fuel with
        | .word w => pure ((w.plain?).getD [])
        | _ => pure []
      if !Word.isName name then complain "Bad for loop variable"
      watchFor .laterCommand
      let t ← token fuel
      let words ←
        if t.isKeyword "in" then eachWords fuel
        else do
          if !(t matches .semicolon) then pushToken
          pure [[.parameter ['@'] .plain false [] true]]
      watchFor .laterCommand
      expectKeyword fuel "do"
      let body ← list fuel false false
      expectKeyword fuel "done"
      return .each line name words body
    | .keyword "case" =>
      match ← token fuel with
      | .word subject =>
        watchFor .laterCommand
        expectKeyword fuel "in"
        return .choice line subject (← cases fuel)
      | _ => unexpected (some (.word []))
    | .keyword "\x7b" =>
      let body ← list fuel false false
      expectKeyword fuel "\x7d"
      return .group body
    | _ => unexpected none

def command : Nat → Reading Command
  | 0 => complain "end of file unexpected"
  | fuel + 1 => do
    let line := (← get).line
    let t ← token fuel
    match t with
    | .word _ | .document _ _ | .redirection _ _ =>
      pushToken
      simple fuel (← get).line [] [] []
    | t =>
      let c ← compound fuel line t
      watchFor .command
      let rs ← redirections fuel
      match c with
      | .subshell line body _ => return .subshell line body rs
      | c => return if rs.isEmpty then c else .redirected line c rs

def stages : Nat → Reading (List Command)
  | 0 => pure []
  | fuel + 1 => do
    match ← token fuel with
    | .bar =>
      watchFor .laterCommand
      let c ← command fuel
      return c :: (← stages fuel)
    | _ =>
      pushToken
      return []

def pipeline : Nat → Reading Command
  | 0 => complain "end of file unexpected"
  | fuel + 1 => do
    let isNegated := (← token fuel).isKeyword "!"
    if isNegated then watchFor .command else pushToken
    let first ← command fuel
    let others ← stages fuel
    let c := if others.isEmpty then first else .pipeline (first :: others)
    return if isNegated then .negated c else c

def joined : Nat → Command → Reading Command
  | 0, c => pure c
  | fuel + 1, c => do
    match ← token fuel with
    | .bothIf =>
      watchFor .laterCommand
      joined fuel (.both c (← pipeline fuel))
    | .eitherIf =>
      watchFor .laterCommand
      joined fuel (.either c (← pipeline fuel))
    | _ =>
      pushToken
      return c

/-- A list of commands: one line, or, inside another command, all up to a token that ends a list;
`mayBeEmpty` tells whether that token may come first. -/
def list : Nat → Bool → Bool → Reading (List Command)
  | 0, _, _ => pure []
  | fuel + 1, isLine, mayBeEmpty => do
    watchFor { Watch.laterCommand with skipsNewlines := !isLine }
    let t ← token fuel
    match t with
    | .newline =>
      readDocuments fuel
      return []
    | .endOfText =>
      readDocuments fuel
      pushToken
      return []
    | t =>
      pushToken
      if mayBeEmpty && !isLine && t.endsList then return []
      let line := (← get).line
      let c ← joined fuel (← pipeline fuel)
      let separator ← token fuel
      let c := if separator matches .ampersand then .background line c else c
      match separator with
      | .newline | .endOfText =>
        pushToken
        return c :: (← list fuel isLine true)
      | .ampersand | .semicolon => return c :: (← list fuel isLine true)
      | _ =>
        if isLine then unexpected none
        pushToken
        return [c]

end

/-! ## Whole scripts -/

def ofText (text : Octets) (documents : Array Word) : Reader where
  rest := text
  line := 1
  last := .newline
  isPushed := false
  watch := .nothing
  awaited := []
  documents := documents

def depth (r : Reader) : Nat :=
  20 * r.rest.length + 1000

def atEnd (r : Reader) : Bool :=
  r.isPushed && r.last matches .endOfText

/-- The pieces of a text that is expanded as a here-document is, in reverse order. -/
def allPieces : Nat → List Piece → Reading (List Piece)
  | 0, found => pure found
  | fuel + 1, found => do
    if (← get).rest.isEmpty then return found
    allPieces fuel (← pieces fuel .document false 0 found)

def wholeWord (r : Reader) : Word :=
  match (allPieces r.depth []).run r with
  | .ok (found, _) => Word.ofReversed found
  | .error _ => [.text r.rest true]

/-- The commands of the next line, which go on over several lines if they are not complete. -/
def nextLine (r : Reader) : Except Complaint (List Command × Reader) :=
  (list r.depth true true).run { r with isPushed := false, watch := .nothing, awaited := [] }

end Reader

end Diaporama.Rehearsal
