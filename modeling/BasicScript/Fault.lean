import BasicScript.Operator
import BasicScript.Token
import BasicScript.Value

/-! Faults: what can go wrong, from scanning to running. Each constructor is a cause and carries
what its message tells; the kind, the wording and the advice are functions of the cause. -/

set_option autoImplicit false

namespace BasicScript

inductive Phase where
  | lex | parse | runtime
  deriving DecidableEq, Inhabited

def Phase.name : Phase → String
  | .lex => "Lex"
  | .parse => "Parse"
  | .runtime => "Runtime"

inductive ErrorKind where
  | illegalCharacter | unterminatedString | invalidEscape | invalidNumber
  | invalidSyntax
  | duplicateDeclaration | constantAssignment | undefinedVariable | divisionByZero
  | invalidConversion | indexOutOfRange | invalidKey | argumentCountMismatch | invalidIterator
  | returnOutsideFunction | breakOutsideLoop | continueOutsideLoop | circularImport
  | moduleNotFound | unsupportedOperation | valueError | recursionLimit
  deriving DecidableEq, Inhabited

namespace ErrorKind

def all : List ErrorKind :=
  [.illegalCharacter, .unterminatedString, .invalidEscape, .invalidNumber, .invalidSyntax,
   .duplicateDeclaration, .constantAssignment, .undefinedVariable, .divisionByZero,
   .invalidConversion, .indexOutOfRange, .invalidKey, .argumentCountMismatch, .invalidIterator,
   .returnOutsideFunction, .breakOutsideLoop, .continueOutsideLoop, .circularImport,
   .moduleNotFound, .unsupportedOperation, .valueError, .recursionLimit]

def name : ErrorKind → String
  | .illegalCharacter => "IllegalCharacter"
  | .unterminatedString => "UnterminatedString"
  | .invalidEscape => "InvalidEscape"
  | .invalidNumber => "InvalidNumber"
  | .invalidSyntax => "InvalidSyntax"
  | .duplicateDeclaration => "DuplicateDeclaration"
  | .constantAssignment => "ConstantAssignment"
  | .undefinedVariable => "UndefinedVariable"
  | .divisionByZero => "DivisionByZero"
  | .invalidConversion => "InvalidConversion"
  | .indexOutOfRange => "IndexOutOfRange"
  | .invalidKey => "InvalidKey"
  | .argumentCountMismatch => "ArgumentCountMismatch"
  | .invalidIterator => "InvalidIterator"
  | .returnOutsideFunction => "ReturnOutsideFunction"
  | .breakOutsideLoop => "BreakOutsideLoop"
  | .continueOutsideLoop => "ContinueOutsideLoop"
  | .circularImport => "CircularImport"
  | .moduleNotFound => "ModuleNotFound"
  | .unsupportedOperation => "UnsupportedOperation"
  | .valueError => "ValueError"
  | .recursionLimit => "RecursionLimit"

def phase : ErrorKind → Phase
  | .illegalCharacter | .unterminatedString | .invalidEscape | .invalidNumber => .lex
  | .invalidSyntax => .parse
  | _ => .runtime

end ErrorKind

inductive Expected where
  | statementEnd
  | declaredName (keyword : String)
  | initialValue (keyword name : String)
  | importName
  | expression
  | operandOf (operator : String)
  | indexExpression
  | indexEnd
  | attributeName
  | argumentEnd
  | groupEnd
  | listEnd
  | rangeEnd
  | keyColon
  | dictionaryEnd
  | thenOf (block : Keyword)
  | endOf (block : Keyword)
  | loopVariable
  | loopIn
  | parameterStart
  | parameterName
  | parameterEnd
  | blockEnd (terminators : List Keyword) (opener : Keyword)
  deriving DecidableEq, Inhabited

namespace Expected

def text : Expected → String
  | .statementEnd => "newline or ';'"
  | .declaredName keyword => "identifier after '" ++ keyword ++ "'"
  | .initialValue _ _ => "'=' after variable name"
  | .importName => "identifier or '*' after 'AS'"
  | .expression => "expression"
  | .operandOf operator => "expression after '" ++ operator ++ "'"
  | .indexExpression => "index expression"
  | .indexEnd => "']' after index"
  | .attributeName => "attribute name after '.'"
  | .argumentEnd => "',' or ')' in argument list"
  | .groupEnd => "')' after expression"
  | .listEnd => "',' or ']' in list"
  | .rangeEnd => "']' after range"
  | .keyColon => "':' after dictionary key"
  | .dictionaryEnd => "',' or '\x7d' in dictionary"
  | .thenOf .for => "keyword THEN after FOR iterable"
  | .thenOf block => "keyword THEN after " ++ block.word ++ " condition"
  | .endOf block => "keyword END to close " ++ block.word
  | .loopVariable => "loop variable after 'FOR'"
  | .loopIn => "keyword IN after loop variable"
  | .parameterStart => "'(' after FUNCTION"
  | .parameterName => "parameter name"
  | .parameterEnd => "',' or ')' in parameter list"
  | .blockEnd terminators _ => "keyword " ++ ", ".intercalate (terminators.map Keyword.word)

def help : Expected → Option String
  | .statementEnd => some "Separate statements with a newline or ';'"
  | .initialValue keyword name =>
    some ("Variables are declared as: " ++ keyword ++ " " ++ name ++ " = value")
  | .importName =>
    some "Use 'AS name' to bind a module value or 'AS *' to import every export"
  | .argumentEnd => some "Function arguments are separated by commas: f(a, b)"
  | .groupEnd => some "Every '(' needs a matching ')'"
  | .rangeEnd => some "Ranges are written as [start -> end] or [start -> end -> step]"
  | .keyColon => some "Dictionary entries are written as key: value"
  | .parameterStart => some "Functions are defined as: FUNCTION name(a, b) ... END"
  | .blockEnd _ opener => some ("The " ++ opener.word ++ " block is never closed")
  | _ => none

end Expected

/-- The longest string, in bytes, that repetition builds. -/
def repeatLimit : Nat := 1 <<< 28

inductive Fault where
  -- scanning
  | illegalCharacter (c : Char)
  | unterminatedString (quote : Char)
  /-- The character behind the backslash, absent at the end of the line. -/
  | invalidEscape (c : Option Char) (quote : Char)
  | integerTooLarge (lexeme : String)
  -- parsing
  | expected (what : Expected) (got : String)
  | invalidLiteral (lexeme : String)
  | duplicateParameter (name : String)
  -- variables
  | duplicateDeclaration (name : String)
  | constantAssignment (name : String)
  | undefinedVariable (name : String)
  -- arithmetic
  | divisionByZero
  | notReal (base exponent : Number)
  | negativeRoot (n : Number)
  -- operations on values
  | binaryUnsupported (operator : BinaryOperator) (left right : ValueType)
  | unaryUnsupported (operator : UnaryOperator) (type : ValueType)
  | fractionalRepeat (n : Number)
  | repeatTooLong (length count : Nat)
  | noTruthValue (type : ValueType)
  | notNumeric (text : String)
  | notConvertible (type : ValueType)
  | notIndexable (type : ValueType)
  | notAssignable (type : ValueType)
  | immutableString
  | indexNotInteger (container index : ValueType)
  | indexOutOfRange (container : ValueType) (index : Int64) (length : Nat)
  | offsetOutOfRange (offset : Int64) (length : Nat)
  | emptyPop
  | invalidKey (key : String)
  | noAttribute (type : ValueType) (name : String)
  | wrongType (wanted got : String)
  | notNumber (function : String) (got : ValueType)
  -- calls
  | notCallable (type : ValueType)
  | argumentCount (function wanted : String) (got : Nat)
  | recursionLimit (limit : Nat) (function : String)
  -- control flow
  | returnOutsideFunction
  | breakOutsideLoop
  | continueOutsideLoop
  | notIterable
  | zeroStep
  -- modules
  | moduleNotFound (name extension folder : String)
  | moduleUnreadable (name path reason : String)
  | circularImport (path importer : String)
  | nestedFunction (name : String)
  -- the world outside
  | outputFailed (reason : String)
  /-- A line is wanted that has yet to be typed. -/
  | inputPending
  | raised (kind : ErrorKind) (message : String) (help : Option String)
  deriving DecidableEq, Inhabited

namespace Fault

def kind : Fault → ErrorKind
  | .illegalCharacter _ => .illegalCharacter
  | .unterminatedString _ => .unterminatedString
  | .invalidEscape _ _ => .invalidEscape
  | .integerTooLarge _ => .invalidNumber
  | .expected _ _ | .invalidLiteral _ | .duplicateParameter _ => .invalidSyntax
  | .duplicateDeclaration _ => .duplicateDeclaration
  | .constantAssignment _ => .constantAssignment
  | .undefinedVariable _ => .undefinedVariable
  | .divisionByZero => .divisionByZero
  | .notReal _ _ | .negativeRoot _ => .valueError
  | .binaryUnsupported _ _ _ | .unaryUnsupported _ _ | .fractionalRepeat _ | .noTruthValue _
  | .notIndexable _ | .notAssignable _ | .immutableString | .noAttribute _ _
  | .notCallable _ => .unsupportedOperation
  | .repeatTooLong _ _ => .valueError
  | .notNumeric _ | .notConvertible _ => .invalidConversion
  | .indexNotInteger _ _ => .valueError
  | .indexOutOfRange _ _ _ | .offsetOutOfRange _ _ | .emptyPop => .indexOutOfRange
  | .invalidKey _ => .invalidKey
  | .wrongType _ _ | .notNumber _ _ => .valueError
  | .argumentCount _ _ _ => .argumentCountMismatch
  | .recursionLimit _ _ => .recursionLimit
  | .returnOutsideFunction => .returnOutsideFunction
  | .breakOutsideLoop => .breakOutsideLoop
  | .continueOutsideLoop => .continueOutsideLoop
  | .notIterable => .invalidIterator
  | .zeroStep => .valueError
  | .moduleNotFound _ _ _ | .moduleUnreadable _ _ _ => .moduleNotFound
  | .circularImport _ _ => .circularImport
  | .nestedFunction _ => .valueError
  | .outputFailed _ | .inputPending => .valueError
  | .raised kind _ _ => kind

def typeMessage (wanted got : String) : String :=
  "Expected value of type " ++ wanted ++ ", not " ++ got

def plural (alone : Bool) : String := if alone then "" else "s"

def message : Fault → String
  | .illegalCharacter c => s!"Unexpected character: '{c}'"
  | .unterminatedString _ => "Unterminated string"
  | .invalidEscape none _ => "Invalid escape character end of line"
  | .invalidEscape (some c) _ => s!"Invalid escape character '{c}'"
  | .integerTooLarge lexeme => s!"Invalid integer: {lexeme}"
  | .expected what got => s!"Expected {what.text}, got {got}"
  | .invalidLiteral lexeme => s!"Invalid number literal '{lexeme}'"
  | .duplicateParameter name => s!"Duplicate parameter '{name}'"
  | .duplicateDeclaration name => s!"Variable '{name}' is already declared in this scope"
  | .constantAssignment name => s!"Cannot assign to constant '{name}'"
  | .undefinedVariable name => s!"Variable '{name}' is not defined"
  | .divisionByZero => "Unable to divide by zero"
  | .notReal base exponent => s!"{base.text} ^ {exponent.text} is not a real number"
  | .negativeRoot n => s!"Cannot take the square root of negative number {n.text}"
  | .binaryUnsupported operator left right =>
    s!"Operator '{operator.symbol}' is not supported between {left.name} and {right.name}"
  | .unaryUnsupported operator type =>
    s!"Unary '{operator.symbol}' is not supported for {type.name}"
  | .fractionalRepeat n =>
    s!"A string can only be repeated a whole number of times, not {n.text}"
  | .repeatTooLong length count =>
    s!"Repeating a string of length {length} {count} times exceeds the limit of {repeatLimit} bytes"
  | .noTruthValue type => s!"A value of type {type.name} has no truth value"
  | .notNumeric text => s!"Unable to convert the string '{text}' to a number"
  | .notConvertible type => s!"Unable to convert a value of type {type.name} to a number"
  | .notIndexable type => s!"A value of type {type.name} cannot be indexed"
  | .notAssignable type => s!"A value of type {type.name} does not support item assignment"
  | .immutableString => "Strings are immutable; characters cannot be assigned"
  | .indexNotInteger container index =>
    s!"{container.name} indices must be integers, not {index.name}"
  | .indexOutOfRange container index length =>
    s!"{container.name} index {index.toInt} is out of range for length {length}"
  | .offsetOutOfRange offset length =>
    s!"Offset {offset.toInt} from the end is out of range for length {length}"
  | .emptyPop => "Cannot pop from an empty list"
  | .invalidKey key => s!"Invalid key {key}"
  | .noAttribute type name => s!"A value of type {type.name} has no attribute '{name}'"
  | .wrongType wanted got => typeMessage wanted got
  | .notNumber _ got => typeMessage "Number" got.name
  | .notCallable type => s!"A value of type {type.name} cannot be called"
  | .argumentCount function wanted got =>
    "Expected " ++ wanted ++ " argument" ++ plural (wanted == "1") ++ ", but got " ++
      toString got ++ " argument" ++ plural (got == 1) ++ " when calling function " ++ function
  | .recursionLimit limit function =>
    s!"Maximum call depth of {limit} exceeded when calling function {function}"
  | .returnOutsideFunction => "Returning values can only be done inside of functions"
  | .breakOutsideLoop => "Break can only be done inside of loops"
  | .continueOutsideLoop => "Continue can only be done inside of loops"
  | .notIterable => "Iterator inside of for loops can only be of type list"
  | .zeroStep => "Range step cannot be zero"
  | .moduleNotFound name _ _ => s!"Module '{name}' was not found"
  | .moduleUnreadable name path reason => s!"Unable to read module '{name}' at {path}: {reason}"
  | .circularImport path importer =>
    s!"Circular import occurred while trying to import file {path}, from file {importer}"
  | .nestedFunction name =>
    s!"Native module variable '{name}' nests a function inside a list or map"
  | .outputFailed reason => s!"Failed to write output: {reason}"
  | .inputPending => "Failed to read input: nothing has been typed yet"
  | .raised _ message _ => message

def help : Fault → Option String
  | .illegalCharacter '!' =>
    some "Use 'NOT' for negation; '!' is only valid as part of '!='"
  | .unterminatedString quote => some s!"Close the string with {quote} before the end of the line"
  | .invalidEscape _ quote =>
    some ("Valid escapes are \\\\, \\n, \\r, \\t, \\b and \\" ++ toString quote)
  | .integerTooLarge _ => some "Integer literals must fit in a signed 64-bit value"
  | .expected what _ => what.help
  | .duplicateDeclaration name => some s!"Use '{name} = ...' to change its value"
  | .undefinedVariable name => some s!"Declare it first with 'LET {name} = ...'"
  | .notNumber function _ => some s!"{function} only accepts numbers"
  | .moduleNotFound name extension folder =>
    some s!"Looked for '{name}.{extension}' in the script directory, the root directory and their '{folder}' subdirectories"
  | .raised _ _ help => help
  | _ => none

def display (fault : Fault) : String := fault.kind.name ++ ": " ++ fault.message

end Fault

end BasicScript
