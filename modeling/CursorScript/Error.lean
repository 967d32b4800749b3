import CursorScript.Position
import CursorScript.Text.Quoted

/-!
Errors: what went wrong, as a cause with its particulars, and where. The wording of each cause,
its kind, its name and the hint given with it are functions of the cause.
-/
namespace CursorScript

inductive ErrorKind where
  | syntactic
  | name
  | type
  | logic
  | runtime
deriving DecidableEq, Repr

def ErrorKind.heading : ErrorKind → String
  | .syntactic => "Syntax error"
  | .name => "Name error"
  | .type => "Type error"
  | .logic => "Logic error"
  | .runtime => "Runtime error"

inductive Cause where
  | unrecognisedToken (token : String)
  | unexpectedToken (token : String)
  | unexpectedTokenDetailed (token message : String)
  | numberParseError (token : String)
  | unknownType (type : String)
  | variableAlreadyDeclared (name : String)
  | variableNotDeclared (name : String) (suggestions : List String)
  | functionAlreadyDeclared (function : String)
  | functionNotFound (function arguments : String) (suggestions : List String)
  | duplicateParameter (parameter : String)
  | typeMatchError (expected received : String)
  | conditionTypeError (statement expected received : String)
  | operatorTypeError (operator left right : String)
  | unaryOperatorTypeError (operator operand : String)
  | returnTypeMismatch (expected received : String)
  | missingReturnValue (function : String)
  | unexpectedReturnValue (function : String)
  | emptyCollectionArgument (function : String)
  | emptyCollectionOperand
  | elementTypeMismatch (expected received : String)
  | indexTypeError (collection index : String)
  | interpolationTypeError (received : String)
  | unreachableCode
  | missingReturn (function : String)
  | outsideLoop (statement : String)
  | returnOutsideFunction
  | divisionByZero
  | recursionLimit (limit : Nat)
  | nativeCallFailed (function message : String)
  | indexOutOfBounds (index : String) (length : Nat)
  | missingKey (key : String)
  | invalidExponent (exponent : String)
  | scriptUnavailable (path reason : String)
  | internalError (message : String)
deriving DecidableEq, Repr

namespace Cause

def name : Cause → String
  | unrecognisedToken .. => "UnrecognisedToken"
  | unexpectedToken .. => "UnexpectedToken"
  | unexpectedTokenDetailed .. => "UnexpectedTokenDetailed"
  | numberParseError .. => "NumberParseError"
  | unknownType .. => "UnknownType"
  | variableAlreadyDeclared .. => "VariableAlreadyDeclared"
  | variableNotDeclared .. => "VariableNotDeclared"
  | functionAlreadyDeclared .. => "FunctionAlreadyDeclared"
  | functionNotFound .. => "FunctionNotFound"
  | duplicateParameter .. => "DuplicateParameter"
  | typeMatchError .. => "TypeMatchError"
  | conditionTypeError .. => "ConditionTypeError"
  | operatorTypeError .. => "OperatorTypeError"
  | unaryOperatorTypeError .. => "UnaryOperatorTypeError"
  | returnTypeMismatch .. => "ReturnTypeMismatch"
  | missingReturnValue .. => "MissingReturnValue"
  | unexpectedReturnValue .. => "UnexpectedReturnValue"
  | emptyCollectionArgument .. => "EmptyCollectionArgument"
  | emptyCollectionOperand => "EmptyCollectionOperand"
  | elementTypeMismatch .. => "ElementTypeMismatch"
  | indexTypeError .. => "IndexTypeError"
  | interpolationTypeError .. => "InterpolationTypeError"
  | unreachableCode => "UnreachableCode"
  | missingReturn .. => "MissingReturn"
  | outsideLoop .. => "OutsideLoop"
  | returnOutsideFunction => "ReturnOutsideFunction"
  | divisionByZero => "DivisionByZero"
  | recursionLimit .. => "RecursionLimit"
  | nativeCallFailed .. => "NativeCallFailed"
  | indexOutOfBounds .. => "IndexOutOfBounds"
  | missingKey .. => "MissingKey"
  | invalidExponent .. => "InvalidExponent"
  | scriptUnavailable .. => "ScriptUnavailable"
  | internalError .. => "InternalError"

def kind : Cause → ErrorKind
  | unrecognisedToken .. => .syntactic
  | unexpectedToken .. => .syntactic
  | unexpectedTokenDetailed .. => .syntactic
  | numberParseError .. => .syntactic
  | unknownType .. => .syntactic
  | variableAlreadyDeclared .. => .name
  | variableNotDeclared .. => .name
  | functionAlreadyDeclared .. => .name
  | functionNotFound .. => .name
  | duplicateParameter .. => .name
  | typeMatchError .. => .type
  | conditionTypeError .. => .type
  | operatorTypeError .. => .type
  | unaryOperatorTypeError .. => .type
  | returnTypeMismatch .. => .type
  | missingReturnValue .. => .type
  | unexpectedReturnValue .. => .type
  | emptyCollectionArgument .. => .type
  | emptyCollectionOperand => .type
  | elementTypeMismatch .. => .type
  | indexTypeError .. => .type
  | interpolationTypeError .. => .type
  | unreachableCode => .logic
  | missingReturn .. => .logic
  | outsideLoop .. => .logic
  | returnOutsideFunction => .logic
  | divisionByZero => .runtime
  | recursionLimit .. => .runtime
  | nativeCallFailed .. => .runtime
  | indexOutOfBounds .. => .runtime
  | missingKey .. => .runtime
  | invalidExponent .. => .runtime
  | scriptUnavailable .. => .runtime
  | internalError .. => .runtime

def suggestions : Cause → List String
  | variableNotDeclared _ suggestions => suggestions
  | functionNotFound _ _ suggestions => suggestions
  | _ => []

/-- The offered names behind a message, if there are any. -/
def suggestionNote (suggestions : List String) : String :=
  if suggestions = [] then ""
  else " (did you mean: " ++ ", ".intercalate suggestions ++ "?)"

open Text in
def message : Cause → String
  | unrecognisedToken token => "unrecognised token: " ++ quoted token
  | unexpectedToken token => "unexpected token: " ++ quoted token
  | unexpectedTokenDetailed token message =>
    "unexpected token (" ++ message ++ "): " ++ quoted token
  | numberParseError token => "error parsing number: " ++ quoted token
  | unknownType type => "unknown type " ++ quoted type
  | variableAlreadyDeclared name =>
    "variable " ++ quoted name ++ " already declared in this scope"
  | variableNotDeclared name suggestions =>
    "variable " ++ quoted name ++ " not declared" ++ suggestionNote suggestions
  | functionAlreadyDeclared function =>
    "function " ++ quoted function ++ " already declared with the same parameters in this scope"
  | functionNotFound function arguments suggestions =>
    "no function " ++ function ++ "(" ++ arguments ++ ") found" ++ suggestionNote suggestions
  | duplicateParameter parameter => "parameter " ++ quoted parameter ++ " declared more than once"
  | typeMatchError expected received =>
    "types do not match: expected " ++ expected ++ ", received " ++ received
  | conditionTypeError statement expected received =>
    statement ++ " condition must be " ++ expected ++ ", received " ++ received
  | operatorTypeError operator left right =>
    "operator " ++ operator ++ " cannot be applied to " ++ left ++ " and " ++ right
  | unaryOperatorTypeError operator operand =>
    "operator " ++ operator ++ " cannot be applied to " ++ operand
  | returnTypeMismatch expected received =>
    "function returns " ++ expected ++ ", received " ++ received
  | missingReturnValue function => "function " ++ quoted function ++ " must return a value"
  | unexpectedReturnValue function =>
    "function " ++ quoted function ++ " does not return a value"
  | emptyCollectionArgument function =>
    "empty collection passed to " ++ quoted function ++ " without a type"
  | emptyCollectionOperand => "empty collection used without a type"
  | elementTypeMismatch expected received =>
    "collection elements must share one type: expected " ++ expected ++ ", received " ++ received
  | indexTypeError collection index => "cannot index " ++ collection ++ " with " ++ index
  | interpolationTypeError received => "cannot interpolate a value of type " ++ received
  | unreachableCode => "unreachable code"
  | missingReturn function => "some branches do not return in function " ++ quoted function
  | outsideLoop statement => statement ++ " used outside of a loop"
  | returnOutsideFunction => "return used outside of a function"
  | divisionByZero => "division by zero"
  | recursionLimit limit => "maximum recursion depth of " ++ toString limit ++ " exceeded"
  | nativeCallFailed function message =>
    "native function " ++ quoted function ++ " failed: " ++ message
  | indexOutOfBounds index length =>
    "index " ++ index ++ " out of bounds for list of length " ++ toString length
  | missingKey key => "key " ++ key ++ " not found in map"
  | invalidExponent exponent => "invalid exponent " ++ exponent
  | scriptUnavailable path reason => "script " ++ quoted path ++ " cannot be run: " ++ reason
  | internalError message => "internal error: " ++ message

def tip : Cause → Option String
  | unexpectedToken token =>
    some ("Unexpected token: `" ++ token ++ "`, did you miss a semicolon?")
  | unexpectedTokenDetailed token message =>
    some ("Unexpected token: `" ++ token ++ "`, " ++ message)
  | numberParseError token => some ("Invalid number literal `" ++ token ++ "`")
  | unknownType type =>
    some ("Unknown type `" ++ type ++
      "`, expected one of number, real, logic, string, material")
  | variableNotDeclared _ suggestions =>
    if suggestions = [] then none
    else some ("did you mean " ++ ", ".intercalate suggestions ++ "?")
  | functionNotFound _ _ suggestions =>
    if suggestions = [] then none
    else some ("did you mean " ++ ", ".intercalate suggestions ++ "?")
  | duplicateParameter parameter => some ("Rename one of the `" ++ parameter ++ "` parameters")
  | emptyCollectionArgument _ => some "Bind the empty collection to a typed variable first"
  | emptyCollectionOperand => some "Bind the empty collection to a typed variable first"
  | missingReturn _ => some "Add a return statement or an else branch that returns"
  | recursionLimit limit =>
    some ("Calls may be nested at most " ++ toString limit ++ " deep")
  | _ => none

end Cause

structure Error where
  cause : Cause
  position : Position
deriving DecidableEq, Repr

/-- The kind, the place and the wording of an error in one line. -/
def Error.message (e : Error) : String :=
  e.cause.kind.heading ++ " at line " ++ toString e.position.line ++ ", col " ++
    toString e.position.column ++ ": " ++ e.cause.message

/-- An error that no script should be able to cause. -/
def Error.internal (message : String) (position : Position) : Error :=
  ⟨.internalError message, position⟩

theorem exists_of_bind_ok {ε α β : Type} {x : Except ε α} {f : α → Except ε β} {b : β}
    (h : (x >>= f) = .ok b) : ∃ a, x = .ok a ∧ f a = .ok b := by
  cases x with
  | error e => cases h
  | ok a => exact ⟨a, rfl, h⟩

end CursorScript
