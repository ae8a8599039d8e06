import FleetOps.Json.Basic

set_option autoImplicit false

namespace FleetOps.Json

def hexChar (n : Nat) : Char :=
  Nat.digitChar n

def escapeChar (c : Char) : List Char :=
  if c = '"' then ['\\', '"']
  else if c = '\\' then ['\\', '\\']
  else if c = '\x08' then ['\\', 'b']
  else if c = '\x0c' then ['\\', 'f']
  else if c = '\n' then ['\\', 'n']
  else if c = '\r' then ['\\', 'r']
  else if c = '\t' then ['\\', 't']
  else if c.toNat < 0x20 then ['\\', 'u', '0', '0', hexChar (c.toNat / 16), hexChar (c.toNat % 16)]
  else [c]

def quote (s : String) : String :=
  String.ofList ('"' :: s.toList.flatMap escapeChar ++ ['"'])

def openBrace : String := "\x7b"

def closeBrace : String := "\x7d"

def newline (indent : Nat) : String :=
  String.ofList ('\n' :: List.replicate (2 * indent) ' ')

mutual
def write : Option Nat → Json → String
  | _, .null => "null"
  | _, .bool b => if b then "true" else "false"
  | _, .int n => toString n
  | _, .real x => x.text
  | _, .str s => quote s
  | _, .arr [] => "[]"
  | none, .arr items => "[" ++ writeItems none items ++ "]"
  | some n, .arr items =>
    "[" ++ newline (n + 1) ++ writeItems (some (n + 1)) items ++ newline n ++ "]"
  | _, .obj [] => openBrace ++ closeBrace
  | none, .obj members => openBrace ++ writeMembers none members ++ closeBrace
  | some n, .obj members =>
    openBrace ++ newline (n + 1) ++ writeMembers (some (n + 1)) members ++ newline n ++ closeBrace

def writeItems : Option Nat → List Json → String
  | _, [] => ""
  | indent, [v] => write indent v
  | none, v :: rest => write none v ++ "," ++ writeItems none rest
  | some n, v :: rest => write (some n) v ++ "," ++ newline n ++ writeItems (some n) rest

def writeMembers : Option Nat → List (String × Json) → String
  | _, [] => ""
  | none, [(k, v)] => quote k ++ ":" ++ write none v
  | some n, [(k, v)] => quote k ++ ": " ++ write (some n) v
  | none, (k, v) :: rest => quote k ++ ":" ++ write none v ++ "," ++ writeMembers none rest
  | some n, (k, v) :: rest =>
    quote k ++ ": " ++ write (some n) v ++ "," ++ newline n ++ writeMembers (some n) rest
end

def compact (v : Json) : String :=
  write none v.canonical

def pretty (v : Json) : String :=
  write (some 0) v.canonical

end FleetOps.Json
