import SmallLisp.Console.Session

/-!
# The console as a program

Standard input is taken line by line, and what comes of a line is written
before the next one is read. Files are read when they are asked for.
-/

namespace SmallLisp.Console

/-- Why the operating system did not give a file out. Its codes come with either sign. -/
def faultOf : IO.Error → FileFault
  | .noFileOrDirectory .. => .missing
  | .inappropriateType _ code _ =>
    if code = 20 ∨ code = UInt32.neg 20 then .notFolder else .isFolder
  | .invalidArgument _ code details =>
    if code = 36 ∨ code = UInt32.neg 36 then .tooLong else .other details
  | e => .other (toString e)

/-- Reads a file. -/
def readFile (path : String) : IO (Except FileFault String) := do
  if '\x00' ∈ path.toList then return .error .hasNul
  try
    return .ok (← IO.FS.readFile path)
  catch e => return .error (faultOf e)

/-- The files that a session needs for a step: the one that is asked for, if there is one. -/
def filesFor : Option String → IO Files
  | none => return fun _ => .error .missing
  | some path => do
    let contents ← readFile path
    return fun _ => contents

/-- The path that a line asks to load. -/
def requestedPath (session : Session) (line : List Char) : Option String :=
  match (editLine? line).bind session.command? with
  | some (.load path) => some path
  | _ => none

/-- Takes lines until the session is over, and tells how it ended. -/
partial def loop (stdin stdout : IO.FS.Stream) (session : Session) : IO Session.Status := do
  let input ← stdin.getLine
  match Text.lines input.toList with
  | [] =>
    stdout.putStr farewell
    return .closed
  | line :: _ =>
    let reply := session.take editLine? (← filesFor (requestedPath session line)) line
    stdout.putStr reply.output
    stdout.flush
    if reply.status = .running then loop stdin stdout reply.session else return reply.status

end SmallLisp.Console

open SmallLisp in
/-- Runs the console on the arguments and standard input. -/
def main (arguments : List String) : IO UInt32 := do
  let stdout ← IO.getStdout
  match Arguments.read? arguments with
  | none =>
    (← IO.getStderr).putStrLn "usage: [FILE] [--no-repl] [--max-depth N]"
    return 2
  | some args =>
    let (output, session, clean) := Console.start args (← Console.filesFor args.file)
    stdout.putStr output
    if args.noRepl then return if clean then 0 else 1
    stdout.putStr Console.banner
    stdout.flush
    let status ← Console.loop (← IO.getStdin) stdout session
    return UInt32.ofNat status.exitCode
