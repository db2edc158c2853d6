import BasicScript.Operator
import BasicScript.Token

/-! The syntax tree. Statements and expressions share one type: each statement may stand where an
expression may and has a value. -/

set_option autoImplicit false

namespace BasicScript

inductive ImportAlias where
  | wildcard
  | name (name : String)
  deriving DecidableEq, Inhabited

inductive Node where
  | number (value : Number) (span : Span)
  | string (value : String) (span : Span)
  | binary (left : Node) (operator : BinaryOperator) (right : Node) (span : Span)
  | unary (operator : UnaryOperator) (operand : Node) (span : Span)
  | access (name : String) (span : Span)
  | declare (name : String) (constant : Bool) (value : Node) (span : Span)
  /-- A compound assignment carries its operator. -/
  | assign (name : String) (compound : Option BinaryOperator) (value : Node) (span : Span)
  | list (items : List Node) (span : Span)
  | dictionary (entries : List (Node × Node)) (span : Span)
  | getIndex (base index : Node) (span : Span)
  | setIndex (base index value : Node) (span : Span)
  | member (base : Node) (name : String) (span : Span)
  | function (name : Option String) (params : List String) (body : List Node) (span : Span)
  | call (callee : Node) (args : List Node) (span : Span)
  | ifElse (branches : List (Node × List Node)) (otherwise : Option (List Node)) (span : Span)
  | whileLoop (condition : Node) (body : List Node) (span : Span)
  | forLoop (item : String) (itemSpan : Span) (iterable : Node) (body : List Node) (span : Span)
  | exitFunction (value : Option Node) (span : Span)
  | exitLoop (span : Span)
  | nextTurn (span : Span)
  | importModule (name : Node) (binding : Option ImportAlias) (span : Span)
  | range (start stop step : Node) (span : Span)
  deriving Inhabited

namespace Node

def span : Node → Span
  | number _ s | string _ s | binary _ _ _ s | unary _ _ s | access _ s | declare _ _ _ s
  | assign _ _ _ s | list _ s | dictionary _ s | getIndex _ _ s | setIndex _ _ _ s
  | member _ _ s | function _ _ _ s | call _ _ s | ifElse _ _ s | whileLoop _ _ s
  | forLoop _ _ _ _ s | exitFunction _ s | exitLoop s | nextTurn s | importModule _ _ s
  | range _ _ _ s => s

def name : Node → String
  | number .. => "NumberLiteral"
  | string .. => "StringLiteral"
  | binary .. => "BinaryOp"
  | unary .. => "UnaryOp"
  | access .. => "VariableAccess"
  | declare .. => "VariableDeclare"
  | assign .. => "VariableAssign"
  | list .. => "List"
  | dictionary .. => "Dictionary"
  | getIndex .. => "GetIndex"
  | setIndex .. => "SetIndex"
  | member .. => "GetAttribute"
  | function .. => "FunctionDefine"
  | call .. => "FunctionCall"
  | ifElse .. => "If"
  | whileLoop .. => "While"
  | forLoop .. => "For"
  | exitFunction .. => "Return"
  | exitLoop .. => "Break"
  | nextTurn .. => "Continue"
  | importModule .. => "Import"
  | range .. => "Range"

def infixed (left : Node) (operator : BinaryOperator) (right : Node) : Node :=
  .binary left operator right (left.span.upTo right.span)

def signed (sign : Span) (operator : UnaryOperator) (operand : Node) : Node :=
  .unary operator operand (sign.upTo operand.span)

end Node

end BasicScript
