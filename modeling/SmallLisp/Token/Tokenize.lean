import SmallLisp.Text.Bytes
import SmallLisp.Token.Scan

/-!
# Texts as tokens

A text is read as tokens with blanks around them (`tokenize`). Reading stops at
the first place where no token begins; the error tells that place and the text
up to where tokens begin again.
-/

namespace SmallLisp

/-- The place where a text has no token: its byte offset in UTF-8, and the rejected text. -/
structure TokenError where
  offset : Nat
  found : String
deriving DecidableEq, Repr

/-- What is wrong, in words. -/
def TokenError.message (e : TokenError) : String := "invalid character sequence: " ++ e.found

/-- What is wrong and where. -/
def TokenError.report (e : TokenError) : String :=
  e.message ++ " (at offset " ++ toString e.offset ++ ")"

namespace Token

/-- The tokens up to the end or up to the first place where none begins, and the text from there
on. -/
def scanAll (cs : List Char) : List (List Char) × List Char :=
  match h : scan? (Text.trimStart cs) with
  | none => ([], Text.trimStart cs)
  | some (t, rest) =>
    have : rest.length < cs.length :=
      Nat.lt_of_lt_of_le (length_lt_of_scan? h) (Text.trimStart_length_le cs)
    let (ts, left) := scanAll rest
    (t :: ts, left)
termination_by cs.length

/-- The text up to the first place where a token begins. -/
def untilToken : List Char → List Char
  | [] => []
  | c :: cs => if (scan? (c :: cs)).isSome then [] else c :: untilToken cs

/-- What is rejected where no token begins: the text up to the next token, without blanks at its
end. -/
def rejected : List Char → List Char
  | [] => []
  | c :: cs => Text.trimEnd (c :: untilToken cs)

end Token

/-- The tokens of a text. -/
def tokenize (text : String) : Except TokenError (List String) :=
  match Token.scanAll text.toList with
  | (ts, []) => .ok (ts.map String.ofList)
  | (_, left) =>
    .error ⟨Text.utf8Length text.toList - Text.utf8Length left,
      String.ofList (Token.rejected left)⟩

/-- Whether closing and opening parentheses pair up, with `depth` opened before. -/
def isBalancedFrom : (depth : Nat) → List Char → Bool
  | depth, [] => depth == 0
  | depth, '(' :: cs => isBalancedFrom (depth + 1) cs
  | 0, ')' :: _ => false
  | depth + 1, ')' :: cs => isBalancedFrom depth cs
  | depth, _ :: cs => isBalancedFrom depth cs

/-- Whether the parentheses of a text pair up. Every parenthesis counts, inside quoted strings
too. -/
def isBalanced (text : String) : Bool := isBalancedFrom 0 text.toList

end SmallLisp
