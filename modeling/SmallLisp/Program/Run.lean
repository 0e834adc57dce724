import SmallLisp.Eval.Basic
import SmallLisp.Expr.Parse
import SmallLisp.Program.Chunk
import SmallLisp.Token.Tokenize

/-!
# Running texts

A text is run as a whole (`Evaluator.runText`): all of it has to be well formed
before any of it is evaluated. Or it is run chunk by chunk
(`Evaluator.runChunks`), and an error in one chunk does not keep the next ones
from running.
-/

namespace SmallLisp

/-- Why a text has no value. -/
inductive RunError
  | token (e : TokenError)
  | parse (e : ParseError)
  | eval (e : EvalError)
deriving DecidableEq

/-- What is wrong, in words, behind the stage at which it was found. -/
def RunError.message : RunError → String
  | token e => "LexError: " ++ e.report
  | parse e => "ParseError: " ++ e.message
  | eval e => "EvalError: " ++ e.message

namespace Evaluator

variable [Host]

/-- Runs all expressions of a text up to the first error, and has the value of the last one. -/
def runText (evaluator : Evaluator) (text : String) (env : Environment) :
    Except RunError Value × Environment :=
  match tokenize text with
  | .error e => (.error (.token e), env)
  | .ok tokens =>
    match parseAll tokens with
    | .error e => (.error (.parse e), env)
    | .ok [] => (.error (.parse ⟨.noExpression, 0⟩), env)
    | .ok es =>
      match evalSequence evaluator.evaluate .nil es env with
      | (.error e, env) => (.error (.eval e), env)
      | (.ok v, env) => (.ok v, env)

/-- Runs texts one after the other, whether or not those before failed. -/
def runAll (evaluator : Evaluator) :
    List String → Environment → List (Except RunError Value) × Environment
  | [], env => ([], env)
  | text :: texts, env =>
    let (result, env) := evaluator.runText text env
    let (results, env) := runAll evaluator texts env
    (result :: results, env)

/-- Runs the chunks of a text. -/
def runChunks (evaluator : Evaluator) (text : String) (env : Environment) :
    List (Except RunError Value) × Environment :=
  evaluator.runAll (chunks text) env

end Evaluator

end SmallLisp
