import PipelineShell.Program.Basic

/-!
# Stock programs

Four small programs on bytes: `cat` copies its input, `upper` copies it with the letters a to z
made capital, `wc` counts it, and `emit` does what its arguments say, one after the other.
-/

namespace PipelineShell.Stock

/-- A program that takes all its input and writes one text. -/
def filter (f : Bytes → Bytes) : Program := fun i =>
  ⟨[(.out, f i.input)], 0, i.input.length⟩

/-- A letter from a to z made capital. -/
def capital (byte : UInt8) : UInt8 := if 97 ≤ byte ∧ byte ≤ 122 then byte - 32 else byte

/-- The value of an octal digit. -/
def octal? (byte : UInt8) : Option Nat :=
  if 48 ≤ byte ∧ byte ≤ 55 then some (byte.toNat - 48) else none

/-- A text in which a backslash and three octal digits are one byte. -/
def octalBytes : Bytes → Bytes
  | [] => []
  | 92 :: a :: b :: c :: rest =>
    match octal? a, octal? b, octal? c with
    | some x, some y, some z => UInt8.ofNat (64 * x + 8 * y + z) :: octalBytes rest
    | _, _, _ => 92 :: octalBytes (a :: b :: c :: rest)
  | byte :: rest => byte :: octalBytes rest

/-- What one argument of `emit` asks for. -/
inductive Request
  | write (sink : Sink) (bytes : Bytes)
  /-- Copy the rest of the input. -/
  | copy
  /-- Write the working directory. -/
  | directory
  /-- Write the value of a variable. -/
  | variable (name : String)
  /-- Exit with a status. -/
  | leave (status : Int)
  /-- End by a signal. -/
  | die (signal : Int)

/-- The number that some digits spell, a minus sign before them allowed. -/
def number? (digits : Bytes) : Option Int := (Text.decode digits).toInt?

/-- The request of a letter with a text after it. -/
def Request.ofLetter? (letter : Char) (text : Bytes) : Option Request :=
  match letter with
  | 'o' => some (.write .out (text ++ [10]))
  | 'O' => some (.write .out text)
  | 'e' => some (.write .err (text ++ [10]))
  | 'b' => some (.write .out (octalBytes text))
  | 'v' => some (.variable (Text.decodeNul text))
  | 'x' => some (.leave ((number? text).getD 2 % 256))
  | 'k' => some (.die ((number? text).getD 0))
  | _ => none

/-- The request that an argument spells: a letter and a colon before its text, a letter alone, or
anything else, which is written in square brackets. -/
def Request.ofArgument (argument : Bytes) : Request :=
  let plain := Request.write .out (91 :: argument ++ [93, 10])
  match argument with
  | letter :: 58 :: text => (Request.ofLetter? (Char.ofNat letter.toNat) text).getD plain
  | [99] => .copy
  | [112] => .directory
  | _ => plain

/-- Carry out requests with the given rest of the input. -/
def carryOut (i : Invocation) : Bytes → List Request → Performance
  | rest, [] => ⟨[], 0, i.input.length - rest.length⟩
  | rest, .leave status :: _ => ⟨[], status, i.input.length - rest.length⟩
  | rest, .die signal :: _ => ⟨[], -signal, i.input.length - rest.length⟩
  | rest, .write sink bytes :: others =>
    let p := carryOut i rest others
    { p with writes := (sink, bytes) :: p.writes }
  | rest, .copy :: others =>
    let p := carryOut i [] others
    { p with writes := (.out, rest) :: p.writes }
  | rest, .directory :: others =>
    let p := carryOut i rest others
    { p with writes := (.out, Text.encode (i.directory ++ "\n")) :: p.writes }
  | rest, .variable name :: others =>
    let p := carryOut i rest others
    let value := (i.environment.find? name).getD "(unset)"
    { p with writes := (.out, Text.encode (value ++ "\n")) :: p.writes }

/-- `cat`: its input as it is. -/
def cat : Program := filter id

/-- `upper`: its input with small letters made capital. -/
def upper : Program := filter fun input => input.map capital

/-- `wc`: the number of bytes of its input. It measures the input and takes nothing of it. -/
def wc : Program := fun i => ⟨[(.out, Text.encode (toString i.input.length ++ "\n"))], 0, 0⟩

/-- `emit`: what its arguments ask for. -/
def emit : Program := fun i => carryOut i i.input (i.argv.tail.map Request.ofArgument)

/-- The stock programs by name. -/
def programs : List (String × Program) :=
  [("cat", cat), ("upper", upper), ("wc", wc), ("emit", emit)]

/-- The bytes of the file of a stock program. -/
def image (name : String) : Bytes := Text.encode ("#!stock\n" ++ name ++ "\n")

/-- The name of the stock program that a file's bytes are. -/
def nameOf? (content : Bytes) : Option String :=
  (programs.find? fun p => image p.1 = content).map Prod.fst

/-- The stock programs are the programs there are. -/
def installation : Installation := fun content =>
  (programs.find? fun p => image p.1 = content).map Prod.snd

end PipelineShell.Stock
