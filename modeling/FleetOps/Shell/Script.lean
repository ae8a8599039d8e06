set_option autoImplicit false

namespace FleetOps.Shell

abbrev Octets := List Char

def octets (s : String) : Octets :=
  s.toUTF8.toList.map fun b => Char.ofNat b.toNat

def bytes (cs : Octets) : List UInt8 :=
  cs.map (·.toUInt8)

/-- How a variable's value is adapted before it is used. -/
inductive Adaptation where
  | orElse (alsoEmpty : Bool)
  | orAssign (alsoEmpty : Bool)
  | ifSet (alsoEmpty : Bool)
  | orFail (alsoEmpty : Bool)
  | dropStart (longest : Bool)
  | dropEnd (longest : Bool)
deriving DecidableEq, Repr

mutual
/-- A piece of a word. Where it is quoted its value stays in one piece. -/
inductive Piece where
  | text (cs : Octets) (quoted : Bool)
  | value (name : Octets) (quoted : Bool)
  | adapted (name : Octets) (how : Adaptation) (word : List Piece) (quoted : Bool)
  | size (name : Octets)
  | arithmetic (expression : List Piece) (quoted : Bool)
  | output (c : Command) (quoted : Bool)

inductive Redirection where
  | copy (channel target : Nat)
  | close (channel : Nat)
  | write (channel : Nat) (file : List Piece)
  | read (file : List Piece)
  | document (text : List Piece)

inductive Command where
  | nothing
  | simple (line : Nat) (assignments : List (Octets × List Piece)) (words : List (List Piece))
      (redirections : List Redirection)
  | redirected (c : Command) (redirections : List Redirection)
  | sequence (a b : Command)
  | both (a b : Command)
  | either (a b : Command)
  | negated (c : Command)
  | pipe (a b : Command)
  | apart (c : Command)
  | choice (test yes no : Command)
  | loop (wanted : Bool) (test body : Command)
  | each (name : Octets) (words : Option (List (List Piece))) (body : Command)
  | select (word : List Piece) (branches : List (List (List Piece) × Command))
  | define (name : Octets) (body : Command)
end

instance : Inhabited Command := ⟨.nothing⟩

abbrev Word := List Piece

inductive ScriptError where
  | openQuote
  | badSubstitution
  | unexpected (token : String) (expected : Option String)
deriving DecidableEq, Repr

def ScriptError.message : ScriptError → String
  | .openQuote => "Syntax error: Unterminated quoted string"
  | .badSubstitution => "Bad substitution"
  | .unexpected token none => "Syntax error: " ++ token ++ " unexpected"
  | .unexpected token (some expected) =>
    "Syntax error: " ++ token ++ " unexpected (expecting \"" ++ expected ++ "\")"

end FleetOps.Shell
