import SmallLisp.Expr.Basic
import SmallLisp.Number.Numeral

/-!
# Tokens as expressions

A parser reads tokens from the left and keeps the lists that are still open on
a stack (`OpenList`), the innermost first; the height of the stack is the depth
at which the next token stands. `Parser.next` reads one expression and leaves
the parser behind it, or where reading failed; `parseAll` reads to the end.

`Parser.length_lt_of_next`: an expression takes at least one token.
-/

namespace SmallLisp

/-- Why no expression could be read. -/
inductive ParseFault
  /-- No token is left where an expression should start. -/
  | unexpectedEnd
  /-- There is no expression at all. -/
  | noExpression
  /-- The tokens end inside a list. -/
  | unclosed
  /-- A list is closed that was not opened. -/
  | unexpectedClose
  /-- Lists are nested deeper than allowed. -/
  | tooDeep (limit : Nat)
deriving DecidableEq, Repr

/-- What is wrong, in words. -/
def ParseFault.message : ParseFault → String
  | unexpectedEnd => "unexpected end of input"
  | noExpression => "no expression to evaluate"
  | unclosed => "unbalanced parentheses: list is never closed"
  | unexpectedClose => "unexpected token ')'"
  | tooDeep limit => "expression too deeply nested (max depth: " ++ toString limit ++ ")"

/-- A fault and the index of the token it is about. -/
structure ParseError where
  fault : ParseFault
  position : Nat
deriving DecidableEq, Repr

/-- What is wrong, in words. -/
def ParseError.message (e : ParseError) : String := e.fault.message

/-- The deepest nesting that is read unless another limit is set. -/
def defaultParseDepth : Nat := 256

/-- A token other than a parenthesis is an integer if it reads as one, and text otherwise. -/
def Expr.ofToken (t : String) : Expr :=
  match Numeral.readInt64? t.toList with
  | some n => .integer n
  | none => .text t

/-- A list whose end has not been read: the index of its opening parenthesis and its items so far,
the last one first. -/
structure OpenList where
  position : Nat
  items : List Expr

/-- Tokens on their way to expressions: those not read yet, and the number of those read. -/
structure Parser where
  rest : List String
  position : Nat := 0
  maxDepth : Nat := defaultParseDepth

namespace Parser

/-- What a token leads to. -/
inductive Step
  | more (stack : List OpenList)
  | done (e : Expr)
  | fail (error : ParseError)

/-- A finished expression goes into the innermost open list. Outside of lists it is what was
read. -/
def place (e : Expr) : List OpenList → Step
  | [] => .done e
  | o :: stack => .more (⟨o.position, e :: o.items⟩ :: stack)

/-- Reads the token at `position`. A closing parenthesis is allowed at any depth. -/
def step (maxDepth : Nat) (stack : List OpenList) (position : Nat) (t : String) : Step :=
  if t = ")" then
    match stack with
    | [] => .fail ⟨.unexpectedClose, position⟩
    | o :: stack => place (.list o.items.reverse) stack
  else if maxDepth ≤ stack.length then .fail ⟨.tooDeep maxDepth, position⟩
  else if t = "(" then .more (⟨position, []⟩ :: stack)
  else place (.ofToken t) stack

/-- The error where the tokens end: the innermost open list is never closed. -/
def endError (position : Nat) : List OpenList → ParseError
  | [] => ⟨.unexpectedEnd, position⟩
  | o :: _ => ⟨.unclosed, o.position⟩

/-- Reads tokens until an expression is complete; with it come the index and the tokens after it, or
those where reading failed. -/
def run (maxDepth : Nat) (stack : List OpenList) (position : Nat) :
    List String → Except ParseError Expr × Nat × List String
  | [] => (.error (endError position stack), position, [])
  | t :: ts =>
    match step maxDepth stack position t with
    | .more stack => run maxDepth stack (position + 1) ts
    | .done e => (.ok e, position + 1, ts)
    | .fail error => (.error error, position, t :: ts)

/-- Reads one expression. A limit of zero allows none, whatever the tokens are. -/
def next (p : Parser) : Except ParseError Expr × Parser :=
  if p.maxDepth = 0 then (.error ⟨.tooDeep 0, p.position⟩, p)
  else
    let (result, position, rest) := run p.maxDepth [] p.position p.rest
    (result, { p with rest, position })

/-- Whether all tokens are read. -/
def isFinished (p : Parser) : Bool := p.rest.isEmpty

theorem length_lt_of_run {maxDepth : Nat} {ts : List String} {stack : List OpenList}
    {position : Nat} {e : Expr} (h : (run maxDepth stack position ts).1 = .ok e) :
    (run maxDepth stack position ts).2.2.length < ts.length := by
  induction ts generalizing stack position with
  | nil => simp [run] at h
  | cons t ts ih =>
    simp only [run] at h ⊢
    split at h
    · exact Nat.lt_succ_of_lt (ih h)
    · simp
    · simp at h

theorem length_lt_of_next {p q : Parser} {e : Expr} (h : p.next = (.ok e, q)) :
    q.rest.length < p.rest.length := by
  simp only [next] at h
  split at h
  · simp at h
  · obtain ⟨hr, hq⟩ := Prod.mk.inj h
    subst hq
    exact length_lt_of_run hr

/-- Reads expressions to the end. -/
def all (p : Parser) : Except ParseError (List Expr) :=
  if p.isFinished then .ok []
  else
    match h : p.next with
    | (.error error, _) => .error error
    | (.ok e, q) =>
      have := length_lt_of_next h
      q.all.map (e :: ·)
termination_by p.rest.length

end Parser

/-- The expression that tokens start with. -/
def parse (tokens : List String) : Except ParseError Expr := (Parser.next { rest := tokens }).1

/-- The expressions that tokens spell. -/
def parseAll (tokens : List String) : Except ParseError (List Expr) := Parser.all { rest := tokens }

end SmallLisp
