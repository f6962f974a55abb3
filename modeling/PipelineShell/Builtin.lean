import PipelineShell.Command
import PipelineShell.Text.Integer

/-!
# Builtins

What the builtins write and how they end. A builtin hands its two texts back as a reply, and
whoever runs it decides where they go.
-/

namespace PipelineShell

/-- What a builtin writes, and the status it ends with. -/
structure Reply where
  out : String
  err : String
  ending : Except Stop Nat

namespace Reply

/-- A reply that says nothing. -/
def silent (status : Nat) : Reply := ⟨"", "", .ok status⟩

/-- A reply that writes to the output stream and succeeds. -/
def say (text : String) : Reply := ⟨text, "", .ok 0⟩

/-- A reply that writes to the error stream and fails. -/
def complain (text : String) : Reply := ⟨"", text, .ok 1⟩

end Reply

namespace Builtin

/-- `echo`: the arguments with a space between each two. -/
def echoReply (args : List String) : Reply := .say (" ".intercalate args ++ "\n")

/-- `exit`: without an argument 0, with a number its value modulo 256, with anything else 2. -/
def exitReply (args : List String) : Reply :=
  match args with
  | [] => ⟨"", "", .error (.leave 0)⟩
  | arg :: _ =>
    match Text.Integer.ofText? arg with
    | some n => ⟨"", "", .error (.leave (n % 256).toNat)⟩
    | none => ⟨"", "exit: " ++ arg ++ ": numeric argument required\n", .error (.leave 2)⟩

end Builtin

namespace Session

/-- `cd`: to the argument, or home. -/
def moveTo (host : Host) (s : Session) (args : List String) : Session × Reply :=
  match args with
  | _ :: _ :: _ => (s, .complain "cd: too many arguments\n")
  | args =>
    let path := match args with
      | [] => s.home
      | arg :: _ => s.expandHome arg
    if path = "" then (s, .complain "cd: HOME not set\n")
    else
      match s.changeDirectory host path with
      | (s, some e) => (s, .complain ("cd: " ++ path ++ ": " ++ e.reason ++ "\n"))
      | (s, none) => (s.note host (.moved s.directory), .silent 0)

/-- What `type` says about a name. -/
def describe (name : String) : Command → String
  | .builtin _ => name ++ " is a shell builtin\n"
  | .program path => name ++ " is " ++ path ++ "\n"
  | .unknown => name ++ " not found\n"

/-- `type`: a line for each name; the status is 1 if one of them stands for nothing. -/
def describeAll (host : Host) (s : Session) : List String → Session × Reply
  | [] => (s, .silent 0)
  | name :: rest =>
    match s.findCommand host name with
    | (s, .error r) => (s, ⟨"", "", .error (.refused r)⟩)
    | (s, .ok command) =>
      let (s, reply) := describeAll host s rest
      (s, { reply with
        out := describe name command ++ reply.out
        ending := reply.ending.map fun status => if command = .unknown then 1 else status })

/-- Carry out a builtin. -/
def perform (host : Host) (s : Session) (b : Builtin) (args : List String) : Session × Reply :=
  let s := s.note host (.builtin b.name args)
  match b with
  | .echo => (s, Builtin.echoReply args)
  | .pwd => (s, .say (s.directory ++ "\n"))
  | .cd => s.moveTo host args
  | .type => s.describeAll host args
  | .exit => (s, Builtin.exitReply args)

end Session

end PipelineShell
