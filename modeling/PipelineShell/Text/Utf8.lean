/-!
# UTF-8

Text as bytes and bytes as text. Decoding is total: each longest start of a character that the
next byte cannot continue, and each byte that starts none, becomes one replacement character.
-/

namespace PipelineShell

/-- What files hold and programs read and write. -/
abbrev Bytes := List UInt8

namespace Text

/-- The bytes of a text. -/
def encode (text : String) : Bytes := text.toList.flatMap String.utf8EncodeChar

/-- The character that stands for bytes that are no character. -/
def replacement : Char := '\uFFFD'

/-- A part of some bytes: a character, or bytes that are none. -/
inductive Part
  | char (c : Char)
  | stray (bytes : Bytes)
  deriving DecidableEq, Repr

/-- The character that a part is. -/
def Part.char? : Part → Option Char
  | .char c => some c
  | .stray _ => none

/-- A character of which some bytes have been read. -/
structure Fragment where
  /-- The bytes read. -/
  bytes : Bytes
  /-- The bytes still owed, less one. -/
  owed : Nat
  /-- The least next byte. -/
  low : Nat
  /-- The greatest next byte. -/
  high : Nat
  /-- The bits read. -/
  bits : Nat
  deriving DecidableEq, Repr

/-- The first byte of a character: what it completes, and what it leaves open. -/
def lead (byte : UInt8) : List Part × Option Fragment :=
  let n := byte.toNat
  if n < 0x80 then ([.char (Char.ofNat n)], none)
  else if 0xC2 ≤ n ∧ n ≤ 0xDF then ([], some ⟨[byte], 0, 0x80, 0xBF, n - 0xC0⟩)
  else if n = 0xE0 then ([], some ⟨[byte], 1, 0xA0, 0xBF, 0⟩)
  else if n = 0xED then ([], some ⟨[byte], 1, 0x80, 0x9F, 0xD⟩)
  else if 0xE1 ≤ n ∧ n ≤ 0xEF then ([], some ⟨[byte], 1, 0x80, 0xBF, n - 0xE0⟩)
  else if n = 0xF0 then ([], some ⟨[byte], 2, 0x90, 0xBF, 0⟩)
  else if 0xF1 ≤ n ∧ n ≤ 0xF3 then ([], some ⟨[byte], 2, 0x80, 0xBF, n - 0xF0⟩)
  else if n = 0xF4 then ([], some ⟨[byte], 2, 0x80, 0x8F, 4⟩)
  else ([.stray [byte]], none)

/-- One more byte: the parts it completes, and what it leaves open. A byte that cannot continue the
open character gives it up and starts the next. -/
def feed : Option Fragment → UInt8 → List Part × Option Fragment
  | none, byte => lead byte
  | some f, byte =>
    if f.low ≤ byte.toNat ∧ byte.toNat ≤ f.high then
      let bits := 64 * f.bits + (byte.toNat - 0x80)
      match f.owed with
      | 0 => ([.char (Char.ofNat bits)], none)
      | owed + 1 => ([], some ⟨f.bytes ++ [byte], owed, 0x80, 0xBF, bits⟩)
    else
      let (done, rest) := lead byte
      (.stray f.bytes :: done, rest)

/-- The parts of `bytes` after the open character, and the character that is open at the end. -/
def partsFrom : Option Fragment → Bytes → List Part × Option Fragment
  | open_, [] => ([], open_)
  | open_, byte :: rest =>
    let (done, open_) := feed open_ byte
    let (parts, last) := partsFrom open_ rest
    (done ++ parts, last)

/-- The parts of `bytes`; a character that is open at the end is none. -/
def parts (bytes : Bytes) : List Part :=
  match partsFrom none bytes with
  | (parts, none) => parts
  | (parts, some f) => parts ++ [.stray f.bytes]

/-- The text of `bytes`. -/
def decode (bytes : Bytes) : String :=
  String.ofList ((parts bytes).map fun part => part.char?.getD replacement)

/-- The text of `bytes` with one NUL for each byte that belongs to no character. -/
def decodeNul (bytes : Bytes) : String :=
  String.ofList ((parts bytes).flatMap fun
    | .char c => [c]
    | .stray bytes => bytes.map fun _ => '\x00')

/-- The text of `bytes` that are valid throughout. -/
def decode? (bytes : Bytes) : Option String :=
  let text := decode bytes
  if encode text = bytes then some text else none

/-- The characters of a piece of a text, and the bytes at its end that start a character, of which
the rest is to come. -/
def decodePiece? (bytes : Bytes) : Option (List Char × Bytes) :=
  let (parts, last) := partsFrom none bytes
  (parts.mapM Part.char?).map fun chars => (chars, (last.map Fragment.bytes).getD [])

end Text

end PipelineShell
