import SmallLisp.Console.Arguments
import SmallLisp.Console.Backspace
import SmallLisp.Console.Command
import SmallLisp.Console.Folder
import SmallLisp.Console.Listing
import SmallLisp.Operator.Extension
import SmallLisp.Program.Run

/-!
# Sessions at the console

The console takes program text line by line and runs it as soon as its
parentheses have closed (`Session.take`). What edits the lines is a parameter,
as the files are. A whole session without a terminal is a function of these two,
the arguments and the input (`Console.runWith`); the console that runs has an
editor of its own (`Console.run`).
-/

namespace SmallLisp

/-- A result as it is shown: `nil` is not. -/
def showResult : Except RunError Value → String
  | .ok .nil => ""
  | .ok v => unlines [toString v]
  | .error e => unlines ["Error: " ++ e.message]

/-- Files by path. -/
abbrev Files : Type := String → Except FileFault String

/-- The state of a session: what is bound, and the lines of a form that has not closed. -/
structure Session where
  evaluator : Evaluator
  env : Environment
  pending : Option (List Char) := none

/-- Whether a session goes on. -/
inductive Session.Status
  | running
  /-- Over as the user asked for. -/
  | closed
  /-- Broken off at a line that cannot be edited. -/
  | broken
deriving DecidableEq, Repr

/-- The exit code of a session that ends. -/
def Session.Status.exitCode : Session.Status → Nat
  | broken => 1
  | _ => 0

/-- What comes of a line: output, the next state, and whether the session goes on. -/
structure Reply where
  output : String
  session : Session
  status : Session.Status := .running

namespace Session

variable [Host]

/-- Runs the chunks of a file and shows all results. The flag tells whether there was no error. -/
def load (session : Session) (files : Files) (path : String) : String × Session × Bool :=
  match files path with
  | .error fault =>
    (unlines ["Error: cannot read " ++ path ++ ": " ++ fault.message], session, false)
  | .ok text =>
    let (results, env) := session.evaluator.runChunks text session.env
    (String.join (results.map showResult), { session with env }, results.all Except.isOk)

/-- Carries out a command. -/
def obey (session : Session) (files : Files) : Command → Reply
  | .help => ⟨Console.help, session, .running⟩
  | .environment => ⟨session.env.listing, session, .running⟩
  | .load path =>
    let (output, session, _) := session.load files path
    ⟨output, session, .running⟩
  | .loadUsage => ⟨unlines ["Usage: :load <path>"], session, .running⟩
  | .quit => ⟨Console.farewell, session, .closed⟩
  | .unknown line => ⟨unlines ["Unknown command: " ++ line ++ " (try :help)"], session, .running⟩

/-- Runs the text of the lines taken so far, unless it has more opening than closing parentheses. -/
def runWhenClosed (session : Session) (cs : List Char) : Reply :=
  if cs.count ')' < cs.count '(' then ⟨"", { session with pending := some cs }, .running⟩
  else
    let (result, env) := session.evaluator.runText (String.ofList cs) session.env
    ⟨showResult result, { session with env, pending := none }, .running⟩

/-- The command that a line is, which it can only be between forms. -/
def command? (session : Session) (line : List Char) : Option Command :=
  if session.pending.isSome then none else Command.ofLine? line

/-- Takes a line as it was edited. Blank lines between forms are passed over. -/
def takeEdited (session : Session) (files : Files) (line : List Char) : Reply :=
  match session.pending with
  | some cs => session.runWhenClosed (cs ++ '\n' :: line)
  | none =>
    if line.all Text.isBlank then ⟨"", session, .running⟩
    else
      match session.command? line with
      | some command => session.obey files command
      | none => session.runWhenClosed line

/-- Takes a line as it was typed. -/
def take (session : Session) (edit : Console.LineEditor) (files : Files) (line : List Char) :
    Reply :=
  match edit line with
  | some line => session.takeEdited files line
  | none => ⟨"", session, .broken⟩

/-- Takes lines until the session is over, which the end of the input also makes it. -/
def takeAll (session : Session) (edit : Console.LineEditor) (files : Files) :
    List (List Char) → Reply
  | [] => ⟨Console.farewell, session, .closed⟩
  | line :: lines =>
    let reply := session.take edit files line
    if reply.status = .running then
      let last := reply.session.takeAll edit files lines
      { last with output := reply.output ++ last.output }
    else reply

end Session

namespace Console

section Host

variable [Host]

/-- The session that arguments start, with the file they name already run. With the state come the
output so far and whether there was no error. -/
def start (args : Arguments) (files : Files) : String × Session × Bool :=
  let session : Session := { evaluator := args.evaluator, env := .initial }
  match args.file with
  | none => ("", session, true)
  | some path => session.load files path

/-- Runs the console: the output and the exit code. Arguments that cannot be read give the code 2, a
file alone gives 1 if anything in it failed, and a session gives 1 if it was broken off. -/
def runWith (edit : LineEditor) (arguments : List String) (files : Files) (input : String) :
    String × Nat :=
  match Arguments.read? arguments with
  | none => ("", 2)
  | some args =>
    let (output, session, clean) := start args files
    if args.noRepl then (output, if clean then 0 else 1)
    else
      let reply := session.takeAll edit files (Text.lines input.toList)
      (output ++ banner ++ reply.output, reply.status.exitCode)

end Host

/-- Runs the console with the editor that obeys backspaces. -/
def run (arguments : List String) (files : Files) (input : String) : String × Nat :=
  runWith editLine? arguments files input

end Console

end SmallLisp
