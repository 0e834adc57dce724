import SmallLisp.Environment.Basic
import SmallLisp.Value.Print

/-!
# Texts of the console

The banner, the help text, and the listing of an environment
(`Environment.listing`): builtins by name in rows of four, then the other
bindings with their values.
-/

namespace SmallLisp

/-- Lines of output, each with a line feed. -/
def unlines (ls : List String) : String := String.join (ls.map (· ++ "\n"))

namespace Console

/-- What the console shows first. -/
def banner : String := unlines [
  "minilisp",
  "Enter S-expressions like: (+ 1 2)",
  "Type :help for more commands, or Ctrl+D to exit.",
  ""]

/-- What the console shows last. -/
def farewell : String := unlines ["Goodbye!"]

/-- What the console shows on request. -/
def help : String := unlines [
  "Commands:",
  "  :help         - Show this help message",
  "  :env          - Show current environment bindings",
  "  :load <path>  - Evaluate every form in a file",
  "  :quit         - Exit the interpreter",
  "  :exit         - Exit the interpreter",
  "  Ctrl+D        - Exit the interpreter",
  "",
  "Special forms:",
  "  (setq name value)",
  "  (defun name (params...) body...)",
  "  (cond (test body...) ...)   ; `t` always matches",
  "  (quote expr)",
  "",
  "Builtins:",
  "  Arithmetic: +, -, *, /",
  "  Comparison: =, <, >",
  "  Predicates: equal, atom, list",
  "",
  "Examples:",
  "  (defun square (n) (* n n))",
  "  (square 12)",
  "  (cond ((> 3 2) \"yes\") (t \"no\"))",
  ""]

end Console

/-- Cuts a list into rows of four, the last of which may be shorter. -/
def rowsOfFour {α : Type} : List α → List (List α)
  | [] => []
  | a :: b :: c :: d :: rest => [a, b, c, d] :: rowsOfFour rest
  | row => [row]

/-- A name with two blanks before it, filled up to fifteen characters. -/
def nameCell (name : String) : String :=
  "  " ++ name ++ String.ofList (List.replicate (15 - name.length) ' ')

namespace Environment

/-- Whether a binding is of a builtin. -/
def isBuiltin : String × Value → Bool
  | (_, .callable (.builtin _)) => true
  | _ => false

/-- The bindings of an environment, for a user. -/
def listing (env : Environment) : String :=
  let builtins := (env.bindings.filter isBuiltin).map (·.1)
  let others := env.bindings.filter (!isBuiltin ·)
  if env.isEmpty then unlines ["Environment is empty."]
  else
    unlines ["Environment bindings (" ++ toString env.size ++ " total):", ""] ++
    (if builtins.isEmpty then ""
      else unlines (("Built-in functions (" ++ toString builtins.length ++ "):") ::
        (rowsOfFour builtins).map (fun row => String.join (row.map nameCell)) ++ [""])) ++
    (if others.isEmpty then ""
      else unlines (("User-defined values (" ++ toString others.length ++ "):") ::
        others.map fun (name, v) => "  " ++ name ++ " = " ++ toString v))

end Environment

end SmallLisp
