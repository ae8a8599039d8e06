import FleetOps.Shell.Script

set_option autoImplicit false

namespace FleetOps.Shell

def isSpace (c : Char) : Bool :=
  c = ' ' || c = '\t'

def isBreak (c : Char) : Bool :=
  isSpace c || c = '\n' || c = ';' || c = '&' || c = '|' || c = '<' || c = '>' || c = '(' || c = ')'

def isNameStart (c : Char) : Bool :=
  c.isAlpha || c = '_'

def isNameChar (c : Char) : Bool :=
  c.isAlphanum || c = '_'

def quoteMark : Char := '\x27'

def backQuote : Char := '\x60'

def isSpecialParameter (c : Char) : Bool :=
  c = '?' || c = '#' || c = '@' || c = '*' || c = '$' || c = '!' || c = '-'

def skipComment : Octets → Octets
  | '#' :: cs => cs.dropWhile (· ≠ '\n')
  | cs => cs

-- Blanks and continued lines, and a comment after them.
def skipBlanks : Octets → Octets
  | '\\' :: '\n' :: cs => skipBlanks cs
  | c :: cs => if isSpace c then skipBlanks cs else skipComment (c :: cs)
  | [] => []

def skipLines : Nat → Octets → Octets
  | 0, cs => cs
  | n + 1, cs =>
    match skipBlanks cs with
    | '\n' :: rest => skipLines n rest
    | rest => rest

def plainWord (cs : Octets) : Octets :=
  cs.takeWhile fun c => !isBreak c

def closers : List String :=
  ["then", "else", "elif", "fi", "do", "done", "esac", "\x7d"]

def atCloser (cs : Octets) : Bool :=
  match cs with
  | [] | ')' :: _ | ';' :: ';' :: _ => true
  | _ => closers.contains (String.ofList (plainWord cs))

def tokenText (cs : Octets) : String :=
  let quoted (s : String) := "\"" ++ s ++ "\""
  match cs with
  | [] => "end of file"
  | '\n' :: _ => "newline"
  | ';' :: ';' :: _ => quoted ";;"
  | '&' :: '&' :: _ => quoted "&&"
  | '|' :: '|' :: _ => quoted "||"
  | c :: _ =>
    if isBreak c then quoted (String.ofList [c])
    else
      let w := String.ofList (plainWord cs)
      if closers.contains w then quoted w else "word"

def unexpectedHere {α : Type} (cs : Octets) (expected : Option String := none) :
    Except ScriptError α :=
  .error (.unexpected (tokenText cs) expected)

def expectWord (w : String) (cs : Octets) : Except ScriptError Octets :=
  let cs := skipLines cs.length cs
  if String.ofList (plainWord cs) = w then .ok (cs.drop w.length) else unexpectedHere cs (some w)

def expectMark (mark : Char) (cs : Octets) : Except ScriptError Octets :=
  match skipLines cs.length cs with
  | c :: rest => if c = mark then .ok rest else unexpectedHere (c :: rest) (some (String.ofList [mark]))
  | [] => unexpectedHere [] (some (String.ofList [mark]))

def assignmentName (cs : Octets) : Option (Octets × Octets) :=
  let name := cs.takeWhile isNameChar
  match name, cs.drop name.length with
  | c :: _, '=' :: rest => if isNameStart c then some (name, rest) else none
  | _, _ => none

-- The text between back quotes, without the backslashes that protect marks in it.
def readBackQuoted : Octets → Octets → Option (Octets × Octets)
  | _, [] => none
  | acc, '\\' :: c :: cs =>
    if c = backQuote || c = '\\' || c = '$' then readBackQuoted (c :: acc) cs
    else readBackQuoted (c :: '\\' :: acc) cs
  | acc, c :: cs => if c = backQuote then some (acc.reverse, cs) else readBackQuoted (c :: acc) cs

def adaptation? (cs : Octets) : Option (Adaptation × Octets) :=
  match cs with
  | ':' :: '-' :: r => some (.orElse true, r)
  | '-' :: r => some (.orElse false, r)
  | ':' :: '=' :: r => some (.orAssign true, r)
  | '=' :: r => some (.orAssign false, r)
  | ':' :: '+' :: r => some (.ifSet true, r)
  | '+' :: r => some (.ifSet false, r)
  | ':' :: '?' :: r => some (.orFail true, r)
  | '?' :: r => some (.orFail false, r)
  | '#' :: '#' :: r => some (.dropStart true, r)
  | '#' :: r => some (.dropStart false, r)
  | '%' :: '%' :: r => some (.dropEnd true, r)
  | '%' :: r => some (.dropEnd false, r)
  | _ => none

def parameterName (cs : Octets) : Option (Octets × Octets) :=
  match cs with
  | c :: rest =>
    if isNameStart c then
      let name := cs.takeWhile isNameChar
      some (name, cs.drop name.length)
    else if c.isDigit || isSpecialParameter c then some ([c], rest)
    else none
  | [] => none

inductive Within where
  | word
  | quotes
  | braces
  | expression (depth : Nat)
  | document
deriving DecidableEq

def lineOf (lines : Nat) (cs : Octets) : Nat :=
  lines + 1 - (cs.filter (· = '\n')).length

def channelOf (default : Nat) (cs : Octets) : Nat × Octets :=
  match cs with
  | c :: rest => if c.isDigit then (c.toNat - '0'.toNat, rest) else (default, cs)
  | [] => (default, [])

-- The mark that ends a document, and whether it is quoted; a quoted one keeps the document as it is.
def documentMark (cs : Octets) : Octets × Bool :=
  let isQuote (c : Char) : Bool := c = '"' || c = quoteMark || c = '\\'
  (cs.filter (!isQuote ·), cs.any isQuote)

def splitDocument (mark : Octets) (dropsTabs : Bool) : Nat → Octets → Octets × Octets
  | 0, cs => ([], cs)
  | n + 1, cs =>
    let cs := if dropsTabs then cs.dropWhile (· = '\t') else cs
    let line := cs.takeWhile (· ≠ '\n')
    let rest := cs.drop (line.length + 1)
    if cs.isEmpty || line = mark then ([], rest)
    else
      let (body, rest) := splitDocument mark dropsTabs n rest
      (line ++ '\n' :: body, rest)

/--
Takes the document that begins on the line after this one out of the script: what stands behind the
mark on this line, the document, and whether its mark is quoted.
-/
def takeDocument (dropsTabs : Bool) (cs : Octets) : Octets × Octets × Bool :=
  let cs := skipBlanks cs
  let (mark, isQuoted) := documentMark (plainWord cs)
  let cs := cs.drop (plainWord cs).length
  let line := cs.takeWhile (· ≠ '\n')
  let (body, rest) := splitDocument mark dropsTabs cs.length (cs.drop (line.length + 1))
  (line ++ '\n' :: rest, body, isQuoted)

def isRedirection (cs : Octets) : Bool :=
  match cs with
  | c :: d :: _ => c = '<' || c = '>' || (c.isDigit && (d = '<' || d = '>'))
  | [c] => c = '<' || c = '>'
  | [] => false

mutual
def readPieces (lines : Nat) : Nat → Within → Octets → Except ScriptError (Word × Octets)
  | 0, _, cs => .ok ([], cs)
  | n + 1, w, cs =>
    let quoted := w = .quotes || w = .document
    let more (p : Piece) (w : Within) (rest : Octets) : Except ScriptError (Word × Octets) := do
      let (ps, rest) ← readPieces lines n w rest
      return (p :: ps, rest)
    match cs with
    | [] =>
      match w with
      | .word | .document => .ok ([], [])
      | .quotes => .error .openQuote
      | .braces => .error (.unexpected "end of file" (some "\x7d"))
      | .expression _ => .error (.unexpected "end of file" (some "))"))
    | '\\' :: '\n' :: rest => readPieces lines n w rest
    | '\\' :: c :: rest =>
      if quoted && !(c = '$' || (c = '"' && w = .quotes) || c = '\\' || c = backQuote) then
        more (.text ['\\', c] true) w rest
      else more (.text [c] true) w rest
    | '$' :: rest => do
      let (p, rest) ← readDollar lines n quoted rest
      more p w rest
    | c :: rest =>
      if c = backQuote then
        match readBackQuoted [] rest with
        | none => .error .openQuote
        | some (script, rest) => do
          let (body, _) ← readList lines n script
          more (.output body quoted) w rest
      else if c = '"' && w ≠ .document then
        if quoted then .ok ([], rest)
        else do
          let (inner, rest) ← readPieces lines n .quotes rest
          let (ps, rest) ← readPieces lines n w rest
          return (.text [] true :: inner ++ ps, rest)
      else if c = quoteMark && !quoted then
        let inner := rest.takeWhile (· ≠ quoteMark)
        match rest.drop inner.length with
        | [] => .error .openQuote
        | _ :: rest => more (.text inner true) w rest
      else
        match w with
        | .word => if isBreak c then .ok ([], cs) else more (.text [c] false) w rest
        | .braces => if c = '\x7d' then .ok ([], rest) else more (.text [c] false) w rest
        | .quotes | .document => more (.text [c] true) w rest
        | .expression depth =>
          if c = '(' then more (.text [c] false) (.expression (depth + 1)) rest
          else if c = ')' then
            match depth, rest with
            | 0, ')' :: rest => .ok ([], rest)
            | 0, _ => .error (.unexpected "\")\"" none)
            | depth + 1, _ => more (.text [c] false) (.expression depth) rest
          else more (.text [c] false) w rest

def readDollar (lines : Nat) : Nat → Bool → Octets → Except ScriptError (Piece × Octets)
  | 0, quoted, cs => .ok (.text ['$'] quoted, cs)
  | n + 1, quoted, cs =>
    match cs with
    | '\x7b' :: '#' :: rest =>
      match parameterName rest with
      | some (name, '\x7d' :: rest) => .ok (.size name, rest)
      | _ => readBraced lines n quoted ('#' :: rest)
    | '\x7b' :: rest => readBraced lines n quoted rest
    | '(' :: '(' :: rest => do
      let (e, rest) ← readPieces lines n (.expression 0) rest
      return (.arithmetic e quoted, rest)
    | '(' :: rest => do
      let (body, rest) ← readList lines n rest
      let rest ← expectMark ')' rest
      return (.output body quoted, rest)
    | _ =>
      match parameterName cs with
      | some (name, rest) => .ok (.value name quoted, rest)
      | none => .ok (.text ['$'] quoted, cs)

def readBraced (lines : Nat) : Nat → Bool → Octets → Except ScriptError (Piece × Octets)
  | 0, _, _ => .error .badSubstitution
  | n + 1, quoted, cs =>
    match parameterName cs with
    | none => .error .badSubstitution
    | some (name, '\x7d' :: rest) => .ok (.value name quoted, rest)
    | some (name, rest) =>
      match adaptation? rest with
      | none => .error .badSubstitution
      | some (how, rest) => do
        let (word, rest) ← readPieces lines n .braces rest
        return (.adapted name how word quoted, rest)

def readList (lines : Nat) : Nat → Octets → Except ScriptError (Command × Octets)
  | 0, cs => .ok (.nothing, cs)
  | n + 1, cs =>
    let cs := skipLines cs.length cs
    if atCloser cs then .ok (.nothing, cs)
    else do
      let (c, cs) ← readAndOr lines n cs
      match skipBlanks cs with
      | ';' :: ';' :: rest => return (c, ';' :: ';' :: rest)
      | ';' :: rest | '\n' :: rest | '&' :: rest =>
        let (d, rest) ← readList lines n rest
        return (.sequence c d, rest)
      | rest => return (c, rest)

def readLine (lines : Nat) : Nat → Octets → Except ScriptError (Command × Octets)
  | 0, cs => .ok (.nothing, cs)
  | n + 1, cs =>
    match skipBlanks cs with
    | [] => .ok (.nothing, [])
    | '\n' :: rest => .ok (.nothing, rest)
    | cs => do
      let (c, cs) ← readAndOr lines n cs
      match skipBlanks cs with
      | [] => return (c, [])
      | '\n' :: rest => return (c, rest)
      | ';' :: ';' :: rest => unexpectedHere (';' :: ';' :: rest)
      | ';' :: rest | '&' :: rest =>
        let (d, rest) ← readLine lines n rest
        return (.sequence c d, rest)
      | rest => unexpectedHere rest

def readAndOr (lines : Nat) : Nat → Octets → Except ScriptError (Command × Octets)
  | 0, cs => .ok (.nothing, cs)
  | n + 1, cs => do
    let (c, cs) ← readPipeline lines n cs
    readAndOrRest lines n c cs

def readAndOrRest (lines : Nat) : Nat → Command → Octets → Except ScriptError (Command × Octets)
  | 0, c, cs => .ok (c, cs)
  | n + 1, c, cs =>
    match skipBlanks cs with
    | '&' :: '&' :: rest => do
      let (d, rest) ← readPipeline lines n (skipLines rest.length rest)
      readAndOrRest lines n (.both c d) rest
    | '|' :: '|' :: rest => do
      let (d, rest) ← readPipeline lines n (skipLines rest.length rest)
      readAndOrRest lines n (.either c d) rest
    | rest => .ok (c, rest)

def readPipeline (lines : Nat) : Nat → Octets → Except ScriptError (Command × Octets)
  | 0, cs => .ok (.nothing, cs)
  | n + 1, cs =>
    let cs := skipBlanks cs
    if plainWord cs = ['!'] then do
      let (c, cs) ← readPipeline lines n (cs.drop 1)
      return (.negated c, cs)
    else do
      let (c, cs) ← readCommand lines n cs
      match skipBlanks cs with
      | '|' :: '|' :: rest => return (c, '|' :: '|' :: rest)
      | '|' :: rest =>
        let (d, rest) ← readPipeline lines n (skipLines rest.length rest)
        return (.pipe c d, rest)
      | rest => return (c, rest)

def readCommand (lines : Nat) : Nat → Octets → Except ScriptError (Command × Octets)
  | 0, cs => .ok (.nothing, cs)
  | n + 1, cs =>
    let cs := skipBlanks cs
    let after (c : Command) (cs : Octets) : Except ScriptError (Command × Octets) := do
      let (rs, cs) ← readRedirections lines n cs
      return (if rs.isEmpty then c else .redirected c rs, cs)
    match cs with
    | '(' :: rest => do
      let (c, rest) ← readList lines n rest
      let rest ← expectMark ')' rest
      after (.apart c) rest
    | _ =>
      if atCloser cs then unexpectedHere cs
      else
        match String.ofList (plainWord cs) with
        | "\x7b" => do
          let (c, rest) ← readList lines n (cs.drop 1)
          let rest ← expectWord "\x7d" rest
          after c rest
        | "if" => do
          let (c, rest) ← readChoice lines n (cs.drop 2)
          after c rest
        | "while" => do
          let (c, rest) ← readLoop lines n true (cs.drop 5)
          after c rest
        | "until" => do
          let (c, rest) ← readLoop lines n false (cs.drop 5)
          after c rest
        | "for" => do
          let (c, rest) ← readEach lines n (cs.drop 3)
          after c rest
        | "case" => do
          let (c, rest) ← readSelect lines n (cs.drop 4)
          after c rest
        | _ =>
          match parameterName cs with
          | some (name, rest) =>
            match skipBlanks rest with
            | '(' :: rest =>
              match skipBlanks rest with
              | ')' :: rest => do
                let (body, rest) ← readCommand lines n (skipLines rest.length rest)
                return (.define name body, rest)
              | _ => unexpectedHere ['(']
            | _ => readSimple lines n (lineOf lines cs) [] [] [] cs
          | none => readSimple lines n (lineOf lines cs) [] [] [] cs

def readChoice (lines : Nat) : Nat → Octets → Except ScriptError (Command × Octets)
  | 0, cs => .ok (.nothing, cs)
  | n + 1, cs => do
    let (test, cs) ← readList lines n cs
    let cs ← expectWord "then" cs
    let (yes, cs) ← readList lines n cs
    let cs := skipLines cs.length cs
    match String.ofList (plainWord cs) with
    | "elif" =>
      let (no, cs) ← readChoice lines n (cs.drop 4)
      return (.choice test yes no, cs)
    | "else" =>
      let (no, cs) ← readList lines n (cs.drop 4)
      let cs ← expectWord "fi" cs
      return (.choice test yes no, cs)
    | _ =>
      let cs ← expectWord "fi" cs
      return (.choice test yes .nothing, cs)

def readLoop (lines : Nat) : Nat → Bool → Octets → Except ScriptError (Command × Octets)
  | 0, _, cs => .ok (.nothing, cs)
  | n + 1, wanted, cs => do
    let (test, cs) ← readList lines n cs
    let cs ← expectWord "do" cs
    let (body, cs) ← readList lines n cs
    let cs ← expectWord "done" cs
    return (.loop wanted test body, cs)

def readEach (lines : Nat) : Nat → Octets → Except ScriptError (Command × Octets)
  | 0, cs => .ok (.nothing, cs)
  | n + 1, cs => do
    let cs := skipBlanks cs
    let name := cs.takeWhile isNameChar
    let cs := skipLines cs.length (cs.drop name.length)
    let (words, cs) ←
      if plainWord cs = ['i', 'n'] then do
        let (ws, cs) ← readWords lines n (cs.drop 2)
        pure (some ws, cs)
      else pure (none, cs)
    let cs := match skipBlanks cs with
      | ';' :: rest => rest
      | rest => rest
    let cs ← expectWord "do" cs
    let (body, cs) ← readList lines n cs
    let cs ← expectWord "done" cs
    return (.each name words body, cs)

def readWords (lines : Nat) : Nat → Octets → Except ScriptError (List Word × Octets)
  | 0, cs => .ok ([], cs)
  | n + 1, cs =>
    match skipBlanks cs with
    | [] => .ok ([], [])
    | c :: cs =>
      if isBreak c then .ok ([], c :: cs)
      else do
        let (w, cs) ← readPieces lines n .word (c :: cs)
        let (ws, cs) ← readWords lines n cs
        return (w :: ws, cs)

def readSelect (lines : Nat) : Nat → Octets → Except ScriptError (Command × Octets)
  | 0, cs => .ok (.nothing, cs)
  | n + 1, cs => do
    let (word, cs) ← readPieces lines n .word (skipBlanks cs)
    let cs ← expectWord "in" cs
    let (branches, cs) ← readBranches lines n cs
    return (.select word branches, cs)

def readBranches (lines : Nat) : Nat → Octets → Except ScriptError (List (List Word × Command) × Octets)
  | 0, cs => .ok ([], cs)
  | n + 1, cs =>
    let cs := skipLines cs.length cs
    if String.ofList (plainWord cs) = "esac" then .ok ([], cs.drop 4)
    else do
      let cs := match cs with
        | '(' :: rest => skipBlanks rest
        | cs => cs
      let (patterns, cs) ← readPatterns lines n cs
      let (body, cs) ← readList lines n cs
      let cs := match skipLines cs.length cs with
        | ';' :: ';' :: rest => rest
        | rest => rest
      if cs.isEmpty then unexpectedHere [] (some ";;")
      else
        let (rest, cs) ← readBranches lines n cs
        return ((patterns, body) :: rest, cs)

def readPatterns (lines : Nat) : Nat → Octets → Except ScriptError (List Word × Octets)
  | 0, cs => .ok ([], cs)
  | n + 1, cs => do
    let (w, cs) ← readPieces lines n .word (skipBlanks cs)
    match skipBlanks cs with
    | ')' :: rest => return ([w], rest)
    | '|' :: rest =>
      let (ws, rest) ← readPatterns lines n rest
      return (w :: ws, rest)
    | rest => unexpectedHere rest (some ")")

def readRedirections (lines : Nat) : Nat → Octets → Except ScriptError (List Redirection × Octets)
  | 0, cs => .ok ([], cs)
  | n + 1, cs =>
    let cs := skipBlanks cs
    if isRedirection cs then do
      let (r, cs) ← readRedirection lines n cs
      let (rs, cs) ← readRedirections lines n cs
      return (r :: rs, cs)
    else .ok ([], cs)

def readRedirection (lines : Nat) : Nat → Octets → Except ScriptError (Redirection × Octets)
  | 0, _ => .error (.unexpected "redirection" none)
  | n + 1, cs =>
    match channelOf 1 cs with
    | (channel, '>' :: '&' :: rest) =>
      match skipBlanks rest with
      | '-' :: rest => .ok (.close channel, rest)
      | rest =>
        let (target, rest) := channelOf 1 rest
        .ok (.copy channel target, rest)
    | (channel, '>' :: '>' :: rest) | (channel, '>' :: '|' :: rest) | (channel, '>' :: rest) => do
      let (w, rest) ← readTarget lines n rest
      return (.write channel w, rest)
    | (_, '<' :: '<' :: rest) => do
      let (dropsTabs, rest) := match rest with
        | '-' :: rest => (true, rest)
        | rest => (false, rest)
      let (rest, body, isQuoted) := takeDocument dropsTabs rest
      if isQuoted then return (.document [.text body true], rest)
      else
        let (text, _) ← readPieces lines n .document body
        return (.document text, rest)
    | (_, '<' :: rest) => do
      let (w, rest) ← readTarget lines n rest
      return (.read w, rest)
    | (_, rest) => unexpectedHere rest

def readTarget (lines : Nat) : Nat → Octets → Except ScriptError (Word × Octets)
  | 0, cs => unexpectedHere cs
  | n + 1, cs => do
    let cs := skipBlanks cs
    let (w, rest) ← readPieces lines n .word cs
    if w.isEmpty then unexpectedHere cs else return (w, rest)

def readSimple (lines : Nat) : Nat → Nat → List (Octets × Word) → List Word → List Redirection →
    Octets → Except ScriptError (Command × Octets)
  | 0, line, assignments, words, redirections, cs =>
    .ok (.simple line assignments.reverse words.reverse redirections.reverse, cs)
  | n + 1, line, assignments, words, redirections, cs =>
    let cs := skipBlanks cs
    let done : Except ScriptError (Command × Octets) :=
      .ok (.simple line assignments.reverse words.reverse redirections.reverse, cs)
    if isRedirection cs then do
      let (r, cs) ← readRedirection lines n cs
      readSimple lines n line assignments words (r :: redirections) cs
    else
      match cs with
      | [] => done
      | c :: _ =>
        if isBreak c then
          if words.isEmpty && assignments.isEmpty && redirections.isEmpty then unexpectedHere cs
          else done
        else
          match words, assignmentName cs with
          | [], some (name, rest) => do
            let (value, rest) ← readPieces lines n .word rest
            readSimple lines n line ((name, value) :: assignments) words redirections rest
          | _, _ => do
            let (w, cs) ← readPieces lines n .word cs
            readSimple lines n line assignments (w :: words) redirections cs
end

def readNext (lines : Nat) (cs : Octets) : Except ScriptError (Command × Octets) :=
  readLine lines (4 * cs.length + 8) cs

end FleetOps.Shell
