import SmallLisp.Value.Basic

/-!
# Identity of values

Whether two values are identical can be decided. This is finer than the
equality that programs see (`Value.same`): it tells the two zeros apart, holds
of NaN and itself, and looks at what a builtin runs.
-/

namespace SmallLisp.Value

mutual

/-- Decides whether two values are identical, NaN to itself included. -/
def decEq : (a b : Value) → Decidable (a = b)
  | integer m, integer n => decidable_of_iff (m = n) (by simp)
  | float x, float y => decidable_of_iff (x = y) (by simp)
  | str s, str t | symbol s, symbol t => decidable_of_iff (s = t) (by simp)
  | bool a, bool b => decidable_of_iff (a = b) (by simp)
  | list as, list bs => @decidable_of_iff _ (as = bs) (by simp) (decEqList as bs)
  | callable c, callable d => decidable_of_iff (c = d) (by simp)
  | nil, nil => isTrue rfl
  | integer _, float _ | integer _, str _ | integer _, symbol _ | integer _, bool _
  | integer _, list _ | integer _, callable _ | integer _, nil | float _, integer _
  | float _, str _ | float _, symbol _ | float _, bool _ | float _, list _ | float _, callable _
  | float _, nil | str _, integer _ | str _, float _ | str _, symbol _ | str _, bool _
  | str _, list _ | str _, callable _ | str _, nil | symbol _, integer _ | symbol _, float _
  | symbol _, str _ | symbol _, bool _ | symbol _, list _ | symbol _, callable _ | symbol _, nil
  | bool _, integer _ | bool _, float _ | bool _, str _ | bool _, symbol _ | bool _, list _
  | bool _, callable _ | bool _, nil | list _, integer _ | list _, float _ | list _, str _
  | list _, symbol _ | list _, bool _ | list _, callable _ | list _, nil | callable _, integer _
  | callable _, float _ | callable _, str _ | callable _, symbol _ | callable _, bool _
  | callable _, list _ | callable _, nil | nil, integer _ | nil, float _ | nil, str _
  | nil, symbol _ | nil, bool _ | nil, list _ | nil, callable _ => isFalse (by simp)

/-- Decides whether two lists hold identical values. -/
def decEqList : (as bs : List Value) → Decidable (as = bs)
  | [], [] => isTrue rfl
  | [], _ :: _ | _ :: _, [] => isFalse (by simp)
  | a :: as, b :: bs =>
    match decEq a b, decEqList as bs with
    | isTrue h, isTrue hs => isTrue (by rw [h, hs])
    | isFalse h, _ => isFalse fun e => h (List.cons.inj e).1
    | _, isFalse h => isFalse fun e => h (List.cons.inj e).2

end

instance : DecidableEq Value := decEq

end SmallLisp.Value
