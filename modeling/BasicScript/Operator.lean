/-! Operators of expressions and the symbols they are written with. -/

set_option autoImplicit false

namespace BasicScript

inductive BinaryOperator where
  | add | subtract | multiply | divide | power | modulo
  | equal | notEqual | greater | less | greaterEqual | lessEqual
  deriving DecidableEq, Inhabited

def BinaryOperator.symbol : BinaryOperator → String
  | .add => "+"
  | .subtract => "-"
  | .multiply => "*"
  | .divide => "/"
  | .power => "^"
  | .modulo => "%"
  | .equal => "=="
  | .notEqual => "!="
  | .greater => ">"
  | .less => "<"
  | .greaterEqual => ">="
  | .lessEqual => "<="

def BinaryOperator.name : BinaryOperator → String
  | .add => "Add"
  | .subtract => "Subtract"
  | .multiply => "Multiply"
  | .divide => "Divide"
  | .power => "Power"
  | .modulo => "Modulo"
  | .equal => "Equal"
  | .notEqual => "NotEqual"
  | .greater => "Greater"
  | .less => "Less"
  | .greaterEqual => "GreaterEqual"
  | .lessEqual => "LessEqual"

inductive UnaryOperator where
  | plus | negate | not
  deriving DecidableEq, Inhabited

def UnaryOperator.symbol : UnaryOperator → String
  | .plus => "+"
  | .negate => "-"
  | .not => "NOT"

def UnaryOperator.name : UnaryOperator → String
  | .plus => "Plus"
  | .negate => "Negate"
  | .not => "Not"

end BasicScript
