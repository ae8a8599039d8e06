set_option autoImplicit false

namespace FleetOps

structure Failure where
  message : String
  causes : List String := []
  isCut : Bool := false
deriving DecidableEq, Repr

namespace Failure

def under (message : String) (f : Failure) : Failure :=
  { message, causes := f.message :: f.causes, isCut := f.isCut }

def line (f : Failure) : String :=
  ": ".intercalate (f.message :: f.causes)

-- The lines of a cause that has several stand under its first.
def indented (margin text : String) : String :=
  margin ++ ("\n" ++ String.ofList (margin.toList.map fun _ => ' ')).intercalate (text.splitOn "\n")

def numbered (causes : List String) : List String :=
  causes.zipIdx.map fun (text, i) =>
    let number := toString i
    indented (String.ofList (List.replicate (5 - number.length) ' ') ++ number ++ ": ") text

def report (f : Failure) : String :=
  match f.causes, f.isCut with
  | [], _ => f.message
  | [cause], false => f.message ++ "\n\nCaused by:\n" ++ indented "    " cause
  | causes, _ => f.message ++ "\n\nCaused by:\n" ++ "\n".intercalate (numbered causes)

end Failure

end FleetOps
