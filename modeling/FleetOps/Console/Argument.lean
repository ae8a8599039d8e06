set_option autoImplicit false

namespace FleetOps.Console

structure OptionForm where
  name : String
  letter : Option Char := none
  takesValue : Bool := true
  repeats : Bool := false
  accepts : String → Bool := fun _ => true

inductive Argument where
  | value (form : OptionForm) (text : String)
  | flag (form : OptionForm)
  | word (text : String)

inductive Stop where
  | complete
  | refused
  | command (name : String) (rest : List String)
deriving DecidableEq, Repr

inductive Shape where
  | word
  | flag (form : OptionForm)
  | value (form : OptionForm) (text : String)
  | needsValue (form : OptionForm)
  | unknown

namespace Shape

def splitValue (cs : List Char) : String × Option String :=
  let name := cs.takeWhile (· ≠ '=')
  (String.ofList name,
   if name.length = cs.length then none else some (String.ofList (cs.drop (name.length + 1))))

def ofForm (form : OptionForm) (attached : Option String) : Shape :=
  match form.takesValue, attached with
  | true, some text => .value form text
  | true, none => .needsValue form
  | false, some _ => .unknown
  | false, none => .flag form

def ofLong (forms : List OptionForm) (cs : List Char) : Shape :=
  let (name, attached) := splitValue cs
  match forms.find? (·.name = name) with
  | some form => ofForm form attached
  | none => .unknown

-- What follows the letter is its value, with or without an equals sign; a flag ignores it.
def ofLetter (forms : List OptionForm) (letter : Char) (cs : List Char) : Shape :=
  match forms.find? (·.letter = some letter) with
  | none => .unknown
  | some form =>
    if !form.takesValue then .flag form
    else match cs with
      | [] => .needsValue form
      | '=' :: text => .value form (String.ofList text)
      | text => .value form (String.ofList text)

def ofText (forms : List OptionForm) (text : String) : Shape :=
  match text.toList with
  | '-' :: '-' :: cs => ofLong forms cs
  | '-' :: letter :: cs => ofLetter forms letter cs
  | _ => .word

end Shape

def startsOption (text : String) : Bool :=
  match text.toList with
  | '-' :: _ :: _ => true
  | _ => false

/--
Reads an argument list. `open?` is the option that waits for its value. After two hyphens alone all is
taken for words.
-/
def readArguments (forms : List OptionForm) (isCommand : String → Bool) :
    Option OptionForm → List String → List Argument × Stop
  | none, [] => ([], .complete)
  | some _, [] => ([], .refused)
  | some form, text :: rest =>
    if startsOption text then ([], .refused)
    else
      let (arguments, stop) := readArguments forms isCommand none rest
      (.value form text :: arguments, stop)
  | none, text :: rest =>
    if text = "--" then (rest.map .word, .complete)
    else if isCommand text then ([], .command text rest)
    else
      match Shape.ofText forms text with
      | .unknown => ([], .refused)
      | .needsValue form => readArguments forms isCommand (some form) rest
      | .word =>
        let (arguments, stop) := readArguments forms isCommand none rest
        (.word text :: arguments, stop)
      | .flag form =>
        let (arguments, stop) := readArguments forms isCommand none rest
        (.flag form :: arguments, stop)
      | .value form value =>
        let (arguments, stop) := readArguments forms isCommand none rest
        (.value form value :: arguments, stop)

structure Gathered where
  values : List (String × String) := []
  flags : List String := []
  words : List String := []
deriving DecidableEq, Repr

inductive Refusal where
  | misuse
  | help
  | version
deriving DecidableEq, Repr

namespace Gathered

def has (g : Gathered) (name : String) : Bool :=
  g.flags.contains name

def value? (g : Gathered) (name : String) : Option String :=
  g.values.lookup name

def all (g : Gathered) (name : String) : List String :=
  (g.values.filter (·.1 = name)).map (·.2)

def add (g : Gathered) (places : Nat) : Argument → Except Refusal Gathered
  | .flag form =>
    if form.name = "help" then .error .help
    else if form.name = "version" then .error .version
    else if g.has form.name then .error .misuse
    else .ok { g with flags := g.flags ++ [form.name] }
  | .value form text =>
    if !form.accepts text || (!form.repeats && (g.value? form.name).isSome) then .error .misuse
    else .ok { g with values := g.values ++ [(form.name, text)] }
  | .word text =>
    if g.words.length < places then .ok { g with words := g.words ++ [text] } else .error .misuse

end Gathered

def gather (places : Nat) (arguments : List Argument) : Except Refusal Gathered :=
  arguments.foldlM (fun g a => g.add places a) {}

end FleetOps.Console
