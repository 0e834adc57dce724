import SmallLisp.Expr.Basic
import SmallLisp.Number.Numeral
import SmallLisp.Text.Quoted

/-!
# Written expressions

`Expr.print` writes an expression the way programs are written, `Expr.describe`
names the kind of every part.
-/

namespace SmallLisp.Expr

mutual

/-- An expression as program text: one space between the items of a list. -/
def print : Expr → List Char
  | integer n => Numeral.ofInt n.toInt
  | text t => t.toList
  | list items => '(' :: printItems items ++ [')']

/-- The items of a list with a space between neighbours. -/
def printItems : List Expr → List Char
  | [] => []
  | [e] => print e
  | e :: f :: es => print e ++ ' ' :: printItems (f :: es)

end

instance : ToString Expr := ⟨fun e => String.ofList e.print⟩

mutual

/-- An expression with the kind of every part, text between quotation marks. -/
def describe : Expr → List Char
  | integer n => "Atom(Integer(".toList ++ Numeral.ofInt n.toInt ++ "))".toList
  | text t => "Atom(Text(".toList ++ Text.quote t ++ "))".toList
  | list items => "List([".toList ++ describeItems items ++ "])".toList

/-- The descriptions of some expressions with commas between them. -/
def describeItems : List Expr → List Char
  | [] => []
  | [e] => describe e
  | e :: f :: es => describe e ++ ", ".toList ++ describeItems (f :: es)

end

end SmallLisp.Expr
