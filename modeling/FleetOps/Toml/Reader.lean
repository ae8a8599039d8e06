import FleetOps.Text.Numeral
import FleetOps.Toml.Table

set_option autoImplicit false

namespace FleetOps.Toml

abbrev Reader (α : Type) := List Char → Option (α × List Char)

def isBlank (c : Char) : Bool :=
  c = ' ' || c = '\t'

def skipBlank (cs : List Char) : List Char :=
  cs.dropWhile isBlank

-- Control characters other than the tab stand in no comment and no string.
def isPrintable (c : Char) : Bool :=
  c = '\t' || (0x20 ≤ c.toNat && c.toNat ≠ 0x7f)

def skipComment (cs : List Char) : List Char :=
  match cs with
  | '#' :: rest => rest.dropWhile isPrintable
  | _ => cs

def readNewline : List Char → Option (List Char)
  | '\n' :: rest => some rest
  | '\r' :: '\n' :: rest => some rest
  | _ => none

def readLineEnd (cs : List Char) : Option (List Char) :=
  match skipComment (skipBlank cs) with
  | [] => some []
  | rest => readNewline rest

def hexValue? (c : Char) : Option Nat :=
  if c.isDigit then some (c.toNat - '0'.toNat)
  else if 'a' ≤ c ∧ c ≤ 'f' then some (c.toNat - 'a'.toNat + 10)
  else if 'A' ≤ c ∧ c ≤ 'F' then some (c.toNat - 'A'.toNat + 10)
  else none

def readScalar (digits : Nat) (cs : List Char) : Option (Char × List Char) := do
  let ds := cs.take digits
  let values ← ds.mapM hexValue?
  let n := values.foldl (fun n d => 16 * n + d) 0
  if ds.length = digits ∧ (n < 0xd800 ∨ (0xdfff < n ∧ n < 0x110000)) then
    some (Char.ofNat n, cs.drop digits)
  else none

def readEscape : Reader Char
  | 'b' :: rest => some ('\x08', rest)
  | 't' :: rest => some ('\t', rest)
  | 'n' :: rest => some ('\n', rest)
  | 'f' :: rest => some ('\x0c', rest)
  | 'r' :: rest => some ('\r', rest)
  | '"' :: rest => some ('"', rest)
  | '\\' :: rest => some ('\\', rest)
  | 'u' :: rest => readScalar 4 rest
  | 'U' :: rest => readScalar 8 rest
  | _ => none

-- The characters so far are held last first.
def readBasic : Nat → List Char → Reader String
  | 0, _, _ => none
  | fuel + 1, done, cs =>
    match cs with
    | '"' :: rest => some (String.ofList done.reverse, rest)
    | '\\' :: rest =>
      match readEscape rest with
      | some (c, rest) => readBasic fuel (c :: done) rest
      | none => none
    | c :: rest => if isPrintable c then readBasic fuel (c :: done) rest else none
    | [] => none

def readLiteral : Nat → List Char → Reader String
  | 0, _, _ => none
  | fuel + 1, done, cs =>
    match cs with
    | '\'' :: rest => some (String.ofList done.reverse, rest)
    | c :: rest => if isPrintable c then readLiteral fuel (c :: done) rest else none
    | [] => none

def skipBlankLines : List Char → List Char
  | '\r' :: '\n' :: rest => skipBlankLines rest
  | c :: rest => if isBlank c || c = '\n' then skipBlankLines rest else c :: rest
  | [] => []

-- A backslash at the end of a line joins it to the next character that is not blank.
def readJoin (cs : List Char) : Option (List Char) :=
  match readNewline (skipBlank cs) with
  | some rest => some (skipBlankLines rest)
  | none => none

-- Up to two quotes may stand before the three that close the string.
def readClosing (quote : Char) (cs : List Char) : Option (List Char × List Char) :=
  let run := (cs.take 5).takeWhile (· = quote)
  if 3 ≤ run.length then some (List.replicate (run.length - 3) quote, cs.drop run.length) else none

def readLines (quote : Char) : Nat → List Char → Reader String
  | 0, _, _ => none
  | fuel + 1, done, cs =>
    match readClosing quote cs with
    | some (quotes, rest) => some (String.ofList (done.reverse ++ quotes), rest)
    | none =>
      match cs with
      | '\\' :: rest =>
        if quote = '"' then
          match readEscape rest with
          | some (c, rest) => readLines quote fuel (c :: done) rest
          | none =>
            match readJoin rest with
            | some rest => readLines quote fuel done rest
            | none => none
        else readLines quote fuel ('\\' :: done) rest
      | c :: rest =>
        match readNewline cs with
        | some rest => readLines quote fuel ('\n' :: done) rest
        | none => if isPrintable c then readLines quote fuel (c :: done) rest else none
      | [] => none

-- A line break right after the opening quotes is dropped.
def skipFirstBreak (cs : List Char) : List Char :=
  (readNewline cs).getD cs

def readText : Reader String := fun cs =>
  match cs with
  | '"' :: '"' :: '"' :: rest => readLines '"' (rest.length + 1) [] (skipFirstBreak rest)
  | '\'' :: '\'' :: '\'' :: rest => readLines '\'' (rest.length + 1) [] (skipFirstBreak rest)
  | '"' :: rest => readBasic (rest.length + 1) [] rest
  | '\'' :: rest => readLiteral (rest.length + 1) [] rest
  | _ => none

def isKeyChar (c : Char) : Bool :=
  c.isAlphanum || c = '_' || c = '-'

def readSimpleKey : Reader String := fun cs =>
  match cs with
  | '"' :: rest => readBasic (rest.length + 1) [] rest
  | '\'' :: rest => readLiteral (rest.length + 1) [] rest
  | _ =>
    let key := cs.takeWhile isKeyChar
    if key.isEmpty then none else some (String.ofList key, cs.drop key.length)

def depthLimit : Nat := 80

def readKeys : Nat → Reader (List String)
  | 0, _ => none
  | fuel + 1, cs =>
    match readSimpleKey (skipBlank cs) with
    | none => none
    | some (key, rest) =>
      match skipBlank rest with
      | '.' :: more => (readKeys fuel more).map fun (keys, rest) => (key :: keys, rest)
      | rest => some ([key], rest)

def readKey : Reader (List String × String) := fun cs =>
  match readKeys (depthLimit - 1) cs with
  | some (keys, rest) => keys.getLast?.map fun key => ((keys.dropLast, key), rest)
  | none => none

def readSign (cs : List Char) : Bool × List Char :=
  match cs with
  | '+' :: rest => (false, rest)
  | '-' :: rest => (true, rest)
  | _ => (false, cs)

def readDigitRun (p : Char → Bool) : Nat → Reader (List Char)
  | 0, _ => none
  | fuel + 1, cs =>
    let ds := cs.takeWhile p
    if ds.isEmpty then none
    else
      match cs.drop ds.length with
      | '_' :: rest => (readDigitRun p fuel rest).map fun (more, rest) => (ds ++ more, rest)
      | rest => some (ds, rest)

def readDigits (p : Char → Bool) : Reader (List Char) := fun cs =>
  readDigitRun p (cs.length + 1) cs

-- Stops before digits that follow a leading zero.
def readWhole : Reader (List Char) := fun cs =>
  match cs with
  | '0' :: rest => some (['0'], rest)
  | _ => readDigits Char.isDigit cs

def isHexDigit (c : Char) : Bool :=
  (hexValue? c).isSome

def isOctalDigit (c : Char) : Bool :=
  '0' ≤ c && c ≤ '7'

def isBinaryDigit (c : Char) : Bool :=
  c = '0' || c = '1'

def valueIn (base : Nat) (ds : List Char) : Nat :=
  ds.foldl (fun n c => base * n + (hexValue? c).getD 0) 0

def integerJson (n : Int) : Option Json :=
  if -9223372036854775808 ≤ n ∧ n ≤ 9223372036854775807 then some (.int n) else none

def readInteger : Reader Json := fun cs => do
  match cs with
  | '0' :: 'x' :: rest =>
    let (ds, rest) ← readDigits isHexDigit rest
    some (← integerJson (valueIn 16 ds), rest)
  | '0' :: 'o' :: rest =>
    let (ds, rest) ← readDigits isOctalDigit rest
    some (← integerJson (valueIn 8 ds), rest)
  | '0' :: 'b' :: rest =>
    let (ds, rest) ← readDigits isBinaryDigit rest
    some (← integerJson (valueIn 2 ds), rest)
  | _ =>
    let (negative, rest) := readSign cs
    let (ds, rest) ← readWhole rest
    let n : Int := valueIn 10 ds
    some (← integerJson (if negative then -n else n), rest)

def floatJson : Json :=
  .real ⟨0⟩

def readExponentPart (cs : List Char) : Option (List Char) :=
  match cs with
  | e :: rest =>
    if e = 'e' ∨ e = 'E' then
      (readDigits Char.isDigit (readSign rest).2).map (·.2)
    else none
  | [] => none

def readFloat : Reader Json := fun cs => do
  let (_, rest) := readSign cs
  match rest with
  | 'i' :: 'n' :: 'f' :: rest => some (floatJson, rest)
  | 'n' :: 'a' :: 'n' :: rest => some (floatJson, rest)
  | _ =>
    let (_, rest) ← readWhole rest
    match rest with
    | '.' :: more =>
      let (_, rest) ← readDigits Char.isDigit more
      some (floatJson, (readExponentPart rest).getD rest)
    | _ => some (floatJson, ← readExponentPart rest)

def readFixed (width : Nat) : Reader Nat := fun cs =>
  let ds := cs.take width
  if ds.length = width ∧ ds.all Char.isDigit then some (Text.digitsValue ds, cs.drop width) else none

def readMark (mark : Char) (cs : List Char) : Option (List Char) :=
  match cs with
  | c :: rest => if c = mark then some rest else none
  | [] => none

def daysIn (year month : Nat) : Nat :=
  if month = 2 then
    if year % 4 = 0 ∧ (year % 100 ≠ 0 ∨ year % 400 = 0) then 29 else 28
  else if month = 4 ∨ month = 6 ∨ month = 9 ∨ month = 11 then 30
  else 31

def readDay (cs : List Char) : Option (List Char) := do
  let (year, cs) ← readFixed 4 cs
  let cs ← readMark '-' cs
  let (month, cs) ← readFixed 2 cs
  let cs ← readMark '-' cs
  let (day, cs) ← readFixed 2 cs
  if 1 ≤ month ∧ month ≤ 12 ∧ 1 ≤ day ∧ day ≤ daysIn year month then some cs else none

def readTime (cs : List Char) : Option (List Char) := do
  let (hour, cs) ← readFixed 2 cs
  let cs ← readMark ':' cs
  let (minute, cs) ← readFixed 2 cs
  let cs ← readMark ':' cs
  let (second, cs) ← readFixed 2 cs
  if hour ≤ 23 ∧ minute ≤ 59 ∧ second ≤ 60 then
    match cs with
    | '.' :: rest =>
      let ds := rest.takeWhile Char.isDigit
      if ds.isEmpty then none else some (rest.drop ds.length)
    | _ => some cs
  else none

def readOffset (cs : List Char) : Option (List Char) :=
  match cs with
  | 'Z' :: rest | 'z' :: rest => some rest
  | '+' :: rest | '-' :: rest => do
    let (hour, rest) ← readFixed 2 rest
    let rest ← readMark ':' rest
    let (minute, rest) ← readFixed 2 rest
    if hour ≤ 24 ∧ minute ≤ 59 then some rest else none
  | _ => none

def isTimeMark (c : Char) : Bool :=
  c = 'T' || c = 't' || c = ' '

def readMoment (cs : List Char) : Option (List Char) :=
  match readDay cs with
  | some rest =>
    match rest with
    | mark :: more =>
      if isTimeMark mark then
        match readTime more with
        | some rest => some ((readOffset rest).getD rest)
        | none => some rest
      else some rest
    | [] => some []
  | none => readTime cs

def dateMember : String :=
  "$__toml_private_datetime"

def readDate : Reader Json := fun cs =>
  (readMoment cs).map fun rest =>
    (.obj [(dateMember, .str (String.ofList (cs.take (cs.length - rest.length))))], rest)

def skipLines : Nat → List Char → List Char
  | 0, cs => cs
  | fuel + 1, cs =>
    let rest := skipComment (skipBlank cs)
    match readNewline rest with
    | some rest => skipLines fuel rest
    | none => rest

-- Between the values of an array there may be line breaks and comments.
def skipGap (cs : List Char) : List Char :=
  skipLines (cs.length + 1) cs

mutual
def readValue : Nat → Nat → Reader Json
  | 0, _, _ => none
  | fuel + 1, depth, cs =>
    match cs with
    | '"' :: _ | '\'' :: _ => (readText cs).map fun (s, rest) => (.str s, rest)
    | '[' :: rest =>
      if depth + 1 < depthLimit then
        (readItems fuel (depth + 1) (skipGap rest)).map fun (items, rest) => (.arr items, rest)
      else none
    | '{' :: rest =>
      if depth + 1 < depthLimit then
        match skipBlank rest with
        | '}' :: rest => some (.obj [], rest)
        | rest => (readPairs fuel (depth + 1) [] rest).map fun (es, rest) =>
          (.obj (entriesToMembers es), rest)
      else none
    | 't' :: 'r' :: 'u' :: 'e' :: rest => some (.bool true, rest)
    | 'f' :: 'a' :: 'l' :: 's' :: 'e' :: rest => some (.bool false, rest)
    | _ => readDate cs <|> readFloat cs <|> readInteger cs

def readItems : Nat → Nat → Reader (List Json)
  | 0, _, _ => none
  | fuel + 1, depth, cs =>
    match cs with
    | ']' :: rest => some ([], rest)
    | _ =>
      match readValue fuel depth cs with
      | none => none
      | some (v, rest) =>
        match skipGap rest with
        | ',' :: rest =>
          (readItems fuel depth (skipGap rest)).map fun (items, rest) => (v :: items, rest)
        | ']' :: rest => some ([v], rest)
        | _ => none

def readPairs : Nat → Nat → Entries → Reader Entries
  | 0, _, _, _ => none
  | fuel + 1, depth, es, cs =>
    match readKey cs with
    | none => none
    | some ((path, key), rest) =>
      match rest with
      | '=' :: rest =>
        match readValue fuel depth (skipBlank rest) with
        | none => none
        | some (v, rest) =>
          match es.addValue path key v with
          | none => none
          | some es =>
            match skipBlank rest with
            | ',' :: rest => readPairs fuel depth es rest
            | '}' :: rest => some (es, rest)
            | _ => none
      | _ => none
end

def readEntry : Reader Statement := fun cs => do
  let ((path, key), rest) ← readKey cs
  let rest ← readMark '=' rest
  let rest := skipBlank rest
  let (v, rest) ← readValue (2 * rest.length + 2) 0 rest
  some (.entry path key v, rest)

def readStatement : Reader Statement := fun cs => do
  match cs with
  | '[' :: '[' :: rest =>
    let ((path, key), rest) ← readKey rest
    let rest ← readMark ']' rest
    let rest ← readMark ']' rest
    some (.arrayHeader path key, rest)
  | '[' :: rest =>
    let ((path, key), rest) ← readKey rest
    let rest ← readMark ']' rest
    some (.header path key, rest)
  | _ => readEntry cs

def readStatements : Nat → List Char → Option (List Statement)
  | 0, _ => none
  | fuel + 1, cs =>
    match skipBlank cs with
    | [] => some []
    | rest =>
      match readLineEnd rest with
      | some rest => readStatements fuel rest
      | none => do
        let (s, rest) ← readStatement rest
        let rest ← readLineEnd rest
        let more ← readStatements fuel rest
        some (s :: more)

def skipByteOrderMark (cs : List Char) : List Char :=
  match cs with
  | '\ufeff' :: rest => rest
  | _ => cs

def read? (text : String) : Option Json := do
  let cs := skipByteOrderMark text.toList
  let statements ← readStatements (cs.length + 1) cs
  build statements

end FleetOps.Toml
