import SmallLisp.Eval.Error
import SmallLisp.Environment.Basic

/-!
# Atoms

What the text of an atom means: a string literal, else the value bound to the
name, else a number (`resolve`); and which expressions name something that can
be bound (`Expr.symbolName?`).
-/

namespace SmallLisp

namespace Literal

/-- The character that a backslash and a character stand for. -/
def escaped : Char → Char
  | 'n' => '\n'
  | 't' => '\t'
  | 'r' => '\r'
  | c => c

/-- The text with its escapes resolved; a backslash at the end stands for itself. -/
def unescape : List Char → List Char
  | [] => []
  | ['\\'] => ['\\']
  | '\\' :: c :: cs => escaped c :: unescape cs
  | c :: cs => c :: unescape cs

/-- The contents of a string literal: what stands between quotation marks at both ends. -/
def string? (t : String) : Option String :=
  match t.toList with
  | '"' :: cs =>
    if cs.getLast? = some '"' then some (String.ofList (unescape cs.dropLast)) else none
  | _ => none

/-- Whether a text starts like a number: with a digit, or with a minus sign and a digit. -/
def startsNumeric : List Char → Bool
  | '-' :: c :: _ => c.isDigit
  | c :: _ => c.isDigit
  | [] => false

/-- The number that a text is: a float if it has a point or an exponent, else an integer. -/
def number? (t : String) : Option Value :=
  let cs := t.toList
  if startsNumeric cs then
    if cs.any fun c => c = '.' || c = 'e' || c = 'E' then
      (Decimal.read? cs).map fun d => .float d.toBinary64
    else (Numeral.readInt64? cs).map .integer
  else none

end Literal

/-- The value of a text atom. -/
def resolve (t : String) (env : Environment) : Except EvalError Value :=
  match Literal.string? t with
  | some s => .ok (.str s)
  | none =>
    match env.get? t with
    | some v => .ok v
    | none =>
      match Literal.number? t with
      | some v => .ok v
      | none => .error (.undefinedSymbol t)

namespace Expr

/-- The name that an expression is as the target of a binding: any text that does not start like a
string. -/
def symbolName? (e : Expr) : Option String := e.text?.filter fun t => t.toList.head? ≠ some '"'

mutual

/-- An expression as data: text atoms become strings. -/
def toValue : Expr → Value
  | integer n => .integer n
  | text t => .str ((Literal.string? t).getD t)
  | list items => .list (toValues items)

/-- Expressions as data, one by one. -/
def toValues : List Expr → List Value
  | [] => []
  | e :: es => toValue e :: toValues es

end

theorem toValues_eq_map (es : List Expr) : toValues es = es.map toValue := by
  induction es with
  | nil => rfl
  | cons e es ih => rw [toValues, ih, List.map_cons]

end Expr

end SmallLisp
