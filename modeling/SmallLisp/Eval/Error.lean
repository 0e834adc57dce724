import SmallLisp.Value.Decide
import SmallLisp.Value.Print

/-!
# Evaluation errors

Why an evaluation fails (`EvalError`), with the expression or the value that is
at fault, and the wording (`EvalError.message`).
-/

namespace SmallLisp

/-- A kind of value that a function asks for. -/
inductive Expected
  | number
  | list
  /-- What a function of the host asks for. -/
  | other (text : String)
deriving DecidableEq, Repr

/-- The kind, in words. -/
def Expected.text : Expected → String
  | number => "a number"
  | list => "a list"
  | other text => text

/-- A part of a special form that has the wrong shape, or what else is said to be malformed. -/
inductive Misplaced
  /-- What `setq` should bind. -/
  | target
  /-- The name that `defun` should bind. -/
  | functionName
  /-- The parameters of a `defun`. -/
  | parameterList
  /-- One parameter of a `defun`. -/
  | parameter
  /-- A clause of a `cond`. -/
  | clause
  /-- What a function of the host finds malformed. -/
  | other (text : String)
deriving DecidableEq, Repr

/-- What the part should be and what was found instead, in words. A host finds its own words. -/
def Misplaced.message (found : Expr) : Misplaced → String
  | target => "setq requires a symbol, got " ++ toString found
  | functionName => "defun requires a function name, got " ++ toString found
  | parameterList => "defun parameters must be a list, got " ++ toString found
  | parameter => "defun parameters must be symbols, got " ++ toString found
  | clause => "each cond clause must be a list, got " ++ toString found
  | other text => text

/-- Why an evaluation fails. -/
inductive EvalError
  | undefinedSymbol (name : String)
  | undefinedFunction (name : String)
  | notCallable (name : String)
  | arity (name : String) (expected : Arity) (got : Nat)
  | typeMismatch (expected : Expected) (found : Value)
  | divisionByZero
  | misplaced (part : Misplaced) (found : Expr)
  | emptyList
  | invalidOperator (head : Expr)
  | depthExceeded (limit : Nat)
deriving DecidableEq

/-- What is wrong, in words. -/
def EvalError.message : EvalError → String
  | undefinedSymbol name => "undefined symbol: " ++ name
  | undefinedFunction name => "undefined function: " ++ name
  | notCallable name => name ++ " is not a function"
  | arity name expected got =>
    name ++ " expects " ++ expected.text ++ " arguments, got " ++ toString got
  | typeMismatch expected found => "expected " ++ expected.text ++ ", got " ++ toString found
  | divisionByZero => "division by zero"
  | misplaced part found => part.message found
  | emptyList => "empty list is not a valid expression"
  | invalidOperator head => "invalid operator: " ++ toString head
  | depthExceeded limit => "evaluation depth limit exceeded (max: " ++ toString limit ++ ")"

/-- Refuses a number of arguments that a function of this name and arity does not take. -/
def Arity.check (arity : Arity) (name : String) (count : Nat) : Except EvalError Unit :=
  if arity.accepts count then .ok () else .error (.arity name arity count)

/-- A value as a number, which integers and floats are. -/
def Value.toNumber (v : Value) : Except EvalError Binary64 :=
  match v.number? with
  | some x => .ok x
  | none => .error (.typeMismatch .number v)

end SmallLisp
