import FleetOps.Schedule.Error

set_option autoImplicit false

namespace FleetOps.Cron

structure FieldKind where
  least : Nat
  greatest : Nat
  names : List (String × Nat)
  questionMark : Bool
deriving DecidableEq, Repr

namespace FieldKind

def monthNames : List (String × Nat) :=
  [("jan", 1), ("january", 1), ("feb", 2), ("february", 2), ("mar", 3), ("march", 3), ("apr", 4),
   ("april", 4), ("may", 5), ("jun", 6), ("june", 6), ("jul", 7), ("july", 7), ("aug", 8),
   ("august", 8), ("sep", 9), ("september", 9), ("oct", 10), ("october", 10), ("nov", 11),
   ("november", 11), ("dec", 12), ("december", 12)]

def weekdayNames : List (String × Nat) :=
  [("sun", 1), ("sunday", 1), ("mon", 2), ("monday", 2), ("tue", 3), ("tues", 3), ("tuesday", 3),
   ("wed", 4), ("wednesday", 4), ("thu", 5), ("thurs", 5), ("thursday", 5), ("fri", 6),
   ("friday", 6), ("sat", 7), ("saturday", 7)]

def second : FieldKind := ⟨0, 59, [], false⟩

def minute : FieldKind := ⟨0, 59, [], false⟩

def hour : FieldKind := ⟨0, 23, [], false⟩

def dayOfMonth : FieldKind := ⟨1, 31, [], true⟩

def month : FieldKind := ⟨1, 12, monthNames, false⟩

def dayOfWeek : FieldKind := ⟨1, 7, weekdayNames, true⟩

def year : FieldKind := ⟨1970, 2100, [], false⟩

def holds (k : FieldKind) (n : Nat) : Bool :=
  k.least ≤ n && n ≤ k.greatest

def all (k : FieldKind) : List Nat :=
  List.range' k.least (k.greatest + 1 - k.least)

def ofName? (k : FieldKind) (name : String) : Option Nat :=
  (k.names.find? (·.1 = name.map Char.toLower)).map (·.2)

end FieldKind

inductive Specifier where
  | all
  | point (n : Nat)
  | range (first last : Nat)
  | nameRange (first last : String)
deriving DecidableEq, Repr

inductive Item where
  | plain (s : Specifier)
  | stepped (s : Specifier) (step : Nat)
  | named (name : String)
deriving DecidableEq, Repr

abbrev Reader (α : Type) := List Char → Option (α × List Char)

def isSpace (c : Char) : Bool :=
  c = ' ' || c = '\t' || c = '\r' || c = '\n'

def skipSpace (cs : List Char) : List Char :=
  cs.dropWhile isSpace

-- A run of such characters with blanks around it.
def readRun (p : Char → Bool) : Reader (List Char) := fun cs =>
  let cs := skipSpace cs
  let run := cs.takeWhile p
  if run.isEmpty then none else some (run, skipSpace (cs.drop run.length))

def numberBound : Nat := 4294967296

def readNumber : Reader Nat := fun cs =>
  match readRun Char.isDigit cs with
  | some (run, rest) =>
    let n := Text.digitsValue run
    if n < numberBound then some (n, rest) else none
  | none => none

def readName : Reader String := fun cs =>
  (readRun Char.isAlpha cs).map fun (run, rest) => (String.ofList run, rest)

def readMark (mark : Char) : Reader Unit
  | c :: rest => if c = mark then some ((), rest) else none
  | [] => none

def readPair {α β : Type} (left : Reader α) (mark : Char) (right : Reader β) : Reader (α × β) :=
  fun cs => do
    let (a, cs) ← left cs
    let (_, cs) ← readMark mark cs
    let (b, cs) ← right cs
    some ((a, b), cs)

def readAll (questionMark : Bool) : Reader Specifier
  | '*' :: rest => some (.all, rest)
  | '?' :: rest => if questionMark then some (.all, rest) else none
  | _ => none

def readSpecifier (questionMark : Bool) : Reader Specifier := fun cs =>
  readAll questionMark cs <|>
  (readPair readNumber '-' readNumber cs).map (fun (p, rest) => (.range p.1 p.2, rest)) <|>
  (readNumber cs).map (fun (n, rest) => (.point n, rest)) <|>
  (readPair readName '-' readName cs).map (fun (p, rest) => (.nameRange p.1 p.2, rest))

def readItem (questionMark : Bool) : Reader Item := fun cs =>
  let specifier := readSpecifier questionMark
  (readPair specifier '/' readNumber cs).map (fun (p, rest) => (.stepped p.1 p.2, rest)) <|>
  (specifier cs).map (fun (s, rest) => (.plain s, rest)) <|>
  (readName cs).map (fun (n, rest) => (.named n, rest))

-- A comma that no item follows is left to the next reader.
def readItems (questionMark : Bool) : Nat → Reader (List Item)
  | 0, _ => none
  | fuel + 1, cs =>
    match readItem questionMark cs with
    | none => none
    | some (item, rest) =>
      match rest with
      | ',' :: more =>
        match readItems questionMark fuel more with
        | some (items, rest) => some (item :: items, rest)
        | none => some ([item], rest)
      | _ => some ([item], rest)

def numbersBetween (k : FieldKind) (first last : Nat) : Option (List Nat) :=
  if k.holds first && k.holds last && first ≤ last then
    some (List.range' first (last + 1 - first))
  else none

def Specifier.numbers (k : FieldKind) : Specifier → Option (List Nat)
  | .all => some k.all
  | .point n => if k.holds n then some [n] else none
  | .range first last => numbersBetween k first last
  | .nameRange first last => do
    let first ← k.ofName? first
    let last ← k.ofName? last
    numbersBetween k first last

-- A point with a step runs to the end of the unit.
def Specifier.steppedNumbers (k : FieldKind) : Specifier → Option (List Nat)
  | .point n => numbersBetween k n k.greatest
  | s => s.numbers k

def everyNth (step : Nat) (ns : List Nat) : List Nat :=
  (ns.zipIdx.filter (·.2 % step = 0)).map (·.1)

def Item.numbers (k : FieldKind) : Item → Option (List Nat)
  | .plain s => s.numbers k
  | .stepped s step =>
    if 1 ≤ step ∧ step ≤ k.greatest then (s.steppedNumbers k).map (everyNth step) else none
  | .named name => (k.ofName? name).map ([·])

def numbersOf (k : FieldKind) (items : List Item) : Option (List Nat) :=
  (items.mapM (Item.numbers k)).map fun selected =>
    k.all.filter fun n => selected.any (·.contains n)

def FieldKind.read (k : FieldKind) : Reader (List Nat) := fun cs => do
  let cs := skipSpace cs
  let (items, rest) ← readItems k.questionMark (cs.length + 1) cs
  let numbers ← numbersOf k items
  some (numbers, skipSpace rest)

end FleetOps.Cron
