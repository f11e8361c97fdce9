namespace RecordLogic.Formula

/-- The kinds of nodes that check their operator or their number of arguments. -/
inductive Form where
  | binary
  | logical
  | member
deriving DecidableEq

namespace Form

def name : Form → String
  | binary => "BinaryExpression"
  | logical => "LogicalExpression"
  | member => "MemberExpression"

/-- How many arguments a node of the form has. -/
def arity : Form → String
  | binary => "2 arguments"
  | logical => "at least 1 argument"
  | member => "1 argument"

end Form

/-- Why a formula has no value. -/
inductive EvalError where
  | unsupportedExpression (type : String)
  | unsupportedOperator (form : Form) (operator : String)
  | arity (form : Form)
  | missingCallee
  | unknownFunction (name : String) (suggestion : Option String)
  | depthLimit (limit : Nat)
  | function (name : String) (reason : String)
deriving DecidableEq

namespace EvalError

def code : EvalError → String
  | unsupportedExpression _ => "unsupported_expression"
  | unsupportedOperator .. => "unsupported_operator"
  | arity _ => "arity"
  | missingCallee => "missing_callee"
  | unknownFunction .. => "unknown_function"
  | depthLimit _ => "depth_limit"
  | function .. => "function_error"

def message : EvalError → String
  | unsupportedExpression type => "unsupported expression type: " ++ type
  | unsupportedOperator form operator =>
    "unsupported " ++ form.name ++ " operator: " ++ operator
  | arity form => form.name ++ " requires " ++ form.arity
  | missingCallee => "CallExpression requires a callee"
  | unknownFunction name none => "unknown function: " ++ name
  | unknownFunction name (some near) =>
    "unknown function: " ++ name ++ " (did you mean " ++ near ++ "?)"
  | depthLimit limit => "expression nesting exceeds maximum depth of " ++ toString limit
  | function name reason => name ++ ": " ++ reason

end EvalError

end RecordLogic.Formula
