import SmallLisp.Expr.Print
import SmallLisp.Value.Basic

/-!
# Written values

`Value.print` writes a value as it is shown to a user, `Value.describe` names
the kind of every part.
-/

namespace SmallLisp

/-- Texts with commas between them, in square brackets. -/
def bracketed (texts : List (List Char)) : List Char :=
  '[' :: (texts.intersperse ", ".toList).flatten ++ [']']

/-- A function with all that its equality looks at. -/
def Callable.describe : Callable → List Char
  | builtin b => "Builtin(".toList ++ b.name.toList ++ [')']
  | closure c =>
    "Closure(".toList ++ c.name.toList ++ ", params=".toList ++
      bracketed (c.params.map Text.quote) ++ ", body=".toList ++
      bracketed (c.body.map Expr.describe) ++ [')']

namespace Value

mutual

/-- A value as it is shown: text without quotation marks, a list with spaces between its items, a
function by its name. -/
def print : Value → List Char
  | integer n => Numeral.ofInt n.toInt
  | float x => x.text
  | str s | symbol s => s.toList
  | bool b => if b then "true".toList else "false".toList
  | list items => '(' :: printItems items ++ [')']
  | callable (.builtin b) => "#<builtin:".toList ++ b.name.toList ++ ['>']
  | callable (.closure c) => "#<function:".toList ++ c.name.toList ++ ['>']
  | nil => "nil".toList

/-- The items of a list with a space between neighbours. -/
def printItems : List Value → List Char
  | [] => []
  | [v] => print v
  | v :: w :: vs => print v ++ ' ' :: printItems (w :: vs)

end

theorem print_integer (n : Int64) : print (integer n) = Numeral.ofInt n.toInt := by
  unfold print
  rfl

theorem print_str (s : String) : print (str s) = s.toList := rfl

theorem print_list (items : List Value) :
    print (list items) = '(' :: printItems items ++ [')'] := rfl

instance : ToString Value := ⟨fun v => String.ofList v.print⟩

mutual

/-- A value with the kind of every part, strings between quotation marks. -/
def describe : Value → List Char
  | integer n => "Integer(".toList ++ Numeral.ofInt n.toInt ++ [')']
  | float x => "Float(".toList ++ x.text ++ [')']
  | str s => "Str(".toList ++ Text.quote s ++ [')']
  | symbol s => "Symbol(".toList ++ s.toList ++ [')']
  | bool b => if b then "Bool(true)".toList else "Bool(false)".toList
  | list items => "List(".toList ++ describeItems items ++ [')']
  | callable c => c.describe
  | nil => "Nil".toList

/-- The descriptions of some values with commas between them. -/
def describeItems : List Value → List Char
  | [] => []
  | [v] => describe v
  | v :: w :: vs => describe v ++ ", ".toList ++ describeItems (w :: vs)

end

end Value

end SmallLisp
