/-!
# Expressions

Program text is a tree (`Expr`) of integers, other atoms kept as the text they
were written with, and lists. What an atom stands for is settled when it is
evaluated.
-/

namespace SmallLisp

/-- An expression. -/
inductive Expr
  | integer (n : Int64)
  | text (t : String)
  | list (items : List Expr)
deriving Inhabited

namespace Expr

mutual

/-- Decides whether two expressions are the same tree. -/
def decEq : (a b : Expr) → Decidable (a = b)
  | integer m, integer n => decidable_of_iff (m = n) (by simp)
  | text s, text t => decidable_of_iff (s = t) (by simp)
  | list es, list fs => @decidable_of_iff _ (es = fs) (by simp) (decEqList es fs)
  | integer _, text _ | integer _, list _ | text _, integer _ | text _, list _ | list _, integer _
  | list _, text _ => isFalse (by simp)

/-- Decides whether two lists hold the same trees. -/
def decEqList : (as bs : List Expr) → Decidable (as = bs)
  | [], [] => isTrue rfl
  | [], _ :: _ | _ :: _, [] => isFalse (by simp)
  | a :: as, b :: bs =>
    match decEq a b, decEqList as bs with
    | isTrue h, isTrue hs => isTrue (by rw [h, hs])
    | isFalse h, _ => isFalse fun e => h (List.cons.inj e).1
    | _, isFalse h => isFalse fun e => h (List.cons.inj e).2

end

instance : DecidableEq Expr := decEq

/-- The text of a text atom. -/
def text? : Expr → Option String
  | text t => some t
  | _ => none

end Expr

end SmallLisp
