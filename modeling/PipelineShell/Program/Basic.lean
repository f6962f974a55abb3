import PipelineShell.Environment
import PipelineShell.Text.Utf8

/-!
# Programs

A program turns what it is started with into writes to its two output streams and an exit status.
It touches nothing else. Which files are programs is a function of their bytes.
-/

namespace PipelineShell

/-- What a program is started with. -/
structure Invocation where
  /-- The name it is called by, and its arguments. -/
  argv : List Bytes
  environment : Environment
  /-- The path of its working directory, without links. -/
  directory : String
  /-- Its standard input. -/
  input : Bytes

/-- The output streams of a program. -/
inductive Sink
  | out
  | err
  deriving DecidableEq, Repr

/-- What a program does. -/
structure Performance where
  /-- Its writes, in order. -/
  writes : List (Sink × Bytes)
  /-- Its exit status; minus the number of the signal that ended it. -/
  status : Int
  /-- How many bytes of its input it took. -/
  taken : Nat
  deriving DecidableEq, Repr

/-- All that is written to one sink. -/
def Performance.written (p : Performance) (sink : Sink) : Bytes :=
  p.writes.flatMap fun w => if w.1 = sink then w.2 else []

@[simp] theorem Performance.written_nil (status : Int) (taken : Nat) (sink : Sink) :
    (Performance.mk [] status taken).written sink = [] := rfl

theorem Performance.written_cons (sink p : Sink) (bytes : Bytes) (rest : List (Sink × Bytes))
    (status : Int) (taken : Nat) :
    (Performance.mk ((p, bytes) :: rest) status taken).written sink =
      (if p = sink then bytes else []) ++ (Performance.mk rest status taken).written sink := rfl

/-- The behaviour of a program. -/
abbrev Program := Invocation → Performance

/-- The program that the bytes of a file are, if they are one. -/
abbrev Installation := Bytes → Option Program

end PipelineShell
