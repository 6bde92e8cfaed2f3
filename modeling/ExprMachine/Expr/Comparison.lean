import ExprMachine.Expr.Compilation

/-! Comparison of two expressions and of what they compile to. -/

namespace ExprMachine

structure Comparison where
  exprs : Bool
  results : Bool
  /-- Nothing to compare where one of the expressions is ill typed. -/
  pools : Option Bool
  code : Option Bool
deriving DecidableEq

def Comparison.of (left right : Expr) : Comparison :=
  let exprs := decide (left = right)
  match left.compile, right.compile with
  | .ok program, .ok other =>
      { exprs
        results := decide (program = other)
        pools := some (decide (program.pool = other.pool))
        code := some (decide (program.code = other.code)) }
  | .error error, .error other =>
      { exprs, results := decide (error = other), pools := none, code := none }
  | _, _ => { exprs, results := false, pools := none, code := none }

end ExprMachine
