namespace Switchboard

structure Signature where
  name : String
  paramTypes : List String
  deriving DecidableEq, Repr

namespace Signature

def arity (s : Signature) : Nat := s.paramTypes.length

def display (s : Signature) : String := s.name ++ "(" ++ ", ".intercalate s.paramTypes ++ ")"

def le (a b : Signature) : Bool :=
  a.name < b.name || (a.name = b.name && ¬ b.paramTypes < a.paramTypes)

end Signature

end Switchboard
