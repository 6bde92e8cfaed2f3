/-! The types of expressions. A type is known before anything runs; only some
types have values that ever lie on a stack, and those are the scalars. -/

namespace ExprMachine

inductive Scalar where
  | u64
deriving DecidableEq

/-- What evaluating an expression leaves behind: nothing, or a number of 64 bits. -/
inductive Ty where
  | none
  | u64
deriving DecidableEq

namespace Scalar

def ty : Scalar → Ty
  | .u64 => .u64

def size : Scalar → Nat
  | .u64 => 8

end Scalar

namespace Ty

def scalar? : Ty → Option Scalar
  | .none => .none
  | .u64 => some .u64

def name : Ty → String
  | .none => "none"
  | .u64 => "u64"

end Ty

def Scalar.name (scalar : Scalar) : String :=
  scalar.ty.name

end ExprMachine
