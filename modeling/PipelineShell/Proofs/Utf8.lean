import PipelineShell.Execution

/-!
# Text through bytes

A text that is encoded is decoded to itself (`decode_encode`), also in pieces: the start of an encoded
text is decoded to the first characters and the bytes of the character in which it stops
(`decodePiece?_take`). So bytes that are the encoding of a text are copied to the terminal as they are,
and others show the same text after they have been copied.
-/

namespace PipelineShell

namespace Text

/-! ## One character -/

/-- The bytes that an open character has. -/
def held (open_ : Option Fragment) : Bytes := (open_.map Fragment.bytes).getD []

/-- Bytes that complete the character `c`, where some of its bytes have been read. -/
inductive Completes (c : Char) : Option Fragment → Bytes → Prop
  | last {open_ : Option Fragment} {byte : UInt8} (h : feed open_ byte = ([.char c], none)) :
    Completes c open_ [byte]
  | more {open_ : Option Fragment} {byte : UInt8} {f : Fragment} {rest : Bytes}
    (h : feed open_ byte = ([], some f)) (hbytes : f.bytes = held open_ ++ [byte])
    (hrest : Completes c (some f) rest) : Completes c open_ (byte :: rest)

variable {c : Char} {open_ : Option Fragment} {bytes : Bytes}

/-- A byte in its bounds that is the last one owed. -/
theorem feed_last {f : Fragment} {byte : UInt8} (howed : f.owed = 0) (hlow : f.low ≤ byte.toNat)
    (hhigh : byte.toNat ≤ f.high) (hbits : 64 * f.bits + (byte.toNat - 0x80) = c.toNat) :
    feed (some f) byte = ([.char c], none) := by
  simp only [feed, if_pos (And.intro hlow hhigh), howed, hbits, Char.ofNat_toNat]

/-- A byte in its bounds after which others are owed. -/
theorem feed_more {f : Fragment} {byte : UInt8} {owed : Nat} (howed : f.owed = owed + 1)
    (hlow : f.low ≤ byte.toNat) (hhigh : byte.toNat ≤ f.high) :
    feed (some f) byte =
      ([], some ⟨f.bytes ++ [byte], owed, 0x80, 0xBF, 64 * f.bits + (byte.toNat - 0x80)⟩) := by
  simp only [feed, if_pos (And.intro hlow hhigh), howed]

/-- The first byte of a character of two bytes. -/
theorem lead_two {byte : UInt8} {n : Nat} (hlow : 0x80 ≤ n) (hhigh : n ≤ 0x7FF)
    (hbyte : byte.toNat = n / 64 % 32 + 192) :
    lead byte = ([], some ⟨[byte], 0, 0x80, 0xBF, n / 64⟩) := by
  have hbits : n / 64 % 32 + 192 - 0xC0 = n / 64 := by omega
  unfold lead
  simp only [hbyte, hbits]
  rw [if_neg (by omega), if_pos (by omega)]

/-- The first byte of a character of three bytes, with the bounds of the second one. -/
theorem lead_three {byte : UInt8} {n : Nat} (hlow : 0x800 ≤ n) (hhigh : n ≤ 0xFFFF)
    (hvalid : n < 0xD800 ∨ 0xDFFF < n) (hbyte : byte.toNat = n / 4096 % 16 + 224) :
    ∃ low high, lead byte = ([], some ⟨[byte], 1, low, high, n / 4096⟩) ∧
      low ≤ n / 64 % 64 + 128 ∧ n / 64 % 64 + 128 ≤ high := by
  have hbits : n / 4096 % 16 + 224 - 0xE0 = n / 4096 := by omega
  unfold lead
  simp only [hbyte, hbits]
  rw [if_neg (by omega), if_neg (by omega)]
  split
  · have hzero : n / 4096 = 0 := by omega
    rw [hzero]
    exact ⟨0xA0, 0xBF, rfl, by omega, by omega⟩
  · split
    · have hlast : n / 4096 = 0xD := by omega
      rw [hlast]
      exact ⟨0x80, 0x9F, rfl, by omega, by omega⟩
    · rw [if_pos (by omega)]
      exact ⟨0x80, 0xBF, rfl, by omega, by omega⟩

/-- The first byte of a character of four bytes, with the bounds of the second one. -/
theorem lead_four {byte : UInt8} {n : Nat} (hlow : 0x10000 ≤ n) (hhigh : n < 0x110000)
    (hbyte : byte.toNat = n / 262144 % 8 + 240) :
    ∃ low high, lead byte = ([], some ⟨[byte], 2, low, high, n / 262144⟩) ∧
      low ≤ n / 4096 % 64 + 128 ∧ n / 4096 % 64 + 128 ≤ high := by
  have hbits : n / 262144 % 8 + 240 - 0xF0 = n / 262144 := by omega
  unfold lead
  simp only [hbyte, hbits]
  rw [if_neg (by omega), if_neg (by omega), if_neg (by omega), if_neg (by omega), if_neg (by omega)]
  split
  · have hzero : n / 262144 = 0 := by omega
    rw [hzero]
    exact ⟨0x90, 0xBF, rfl, by omega, by omega⟩
  · split
    · exact ⟨0x80, 0xBF, rfl, by omega, by omega⟩
    · have hlast : n / 262144 = 4 := by omega
      rw [if_pos (by omega), hlast]
      exact ⟨0x80, 0x8F, rfl, by omega, by omega⟩

/-- The bytes of a character complete it. -/
theorem completes_encodeChar (c : Char) : Completes c none (String.utf8EncodeChar c) := by
  have hvalid : c.toNat < 0xD800 ∨ 0xDFFF < c.toNat ∧ c.toNat < 0x110000 := c.valid
  have hbyte : ∀ n, n < 256 → (UInt8.ofNat n).toNat = n := fun n hn => UInt8.toNat_ofNat_of_lt hn
  unfold String.utf8EncodeChar
  change Completes c none (if c.toNat ≤ 127 then _ else _)
  simp only [show c.val.toNat = c.toNat from rfl]
  split
  · next hone =>
    refine .last ?_
    have hlead := hbyte c.toNat (by omega)
    simp only [feed, lead, hlead, if_pos (Nat.lt_succ_of_le hone), Char.ofNat_toNat]
  · split
    · have hlead := hbyte (c.toNat / 64 % 32 + 192) (by omega)
      have htail := hbyte (c.toNat % 64 + 128) (by omega)
      refine .more (lead_two (by omega) (by omega) hlead) rfl (.last (feed_last rfl ?_ ?_ ?_))
      all_goals simp only [htail]
      all_goals omega
    · split
      · have hlead := hbyte (c.toNat / 4096 % 16 + 224) (by omega)
        have hsecond := hbyte (c.toNat / 64 % 64 + 128) (by omega)
        have htail := hbyte (c.toNat % 64 + 128) (by omega)
        obtain ⟨low, high, hfirst, hlow, hhigh⟩ :=
          lead_three (n := c.toNat) (by omega) (by omega) (by omega) hlead
        rw [← hsecond] at hlow hhigh
        refine .more hfirst rfl (.more (feed_more rfl hlow hhigh) rfl (.last (feed_last rfl ?_ ?_ ?_)))
        all_goals simp only [hsecond, htail]
        all_goals omega
      · have hlead := hbyte (c.toNat / 262144 % 8 + 240) (by omega)
        have hsecond := hbyte (c.toNat / 4096 % 64 + 128) (by omega)
        have hthird := hbyte (c.toNat / 64 % 64 + 128) (by omega)
        have htail := hbyte (c.toNat % 64 + 128) (by omega)
        obtain ⟨low, high, hfirst, hlow, hhigh⟩ :=
          lead_four (n := c.toNat) (by omega) (by omega) hlead
        rw [← hsecond] at hlow hhigh
        refine .more hfirst rfl (.more (feed_more rfl hlow hhigh) rfl
          (.more (feed_more rfl ?_ ?_) rfl (.last (feed_last rfl ?_ ?_ ?_))))
        all_goals simp only [hsecond, hthird, htail]
        all_goals omega

/-! ## Texts -/

theorem partsFrom_append (open_ : Option Fragment) (a b : Bytes) :
    partsFrom open_ (a ++ b) =
      ((partsFrom open_ a).1 ++ (partsFrom (partsFrom open_ a).2 b).1,
        (partsFrom (partsFrom open_ a).2 b).2) := by
  induction a generalizing open_ with
  | nil => rfl
  | cons byte rest ih => simp only [List.cons_append, partsFrom, ih, List.append_assoc]

theorem Completes.partsFrom (h : Completes c open_ bytes) :
    partsFrom open_ bytes = ([.char c], none) := by
  induction h with
  | last h => simp only [Text.partsFrom, h, List.append_nil]
  | more h hbytes hrest ih => simp only [Text.partsFrom, h, ih, List.nil_append]

/-- As long as bytes are missing the character stays open, and all its bytes so far are held. -/
theorem Completes.partsFrom_take (h : Completes c open_ bytes) {k : Nat} (hk : k < bytes.length) :
    ∃ last, Text.partsFrom open_ (bytes.take k) = ([], last) ∧
      held last = held open_ ++ bytes.take k := by
  induction h generalizing k with
  | @last open_ byte h =>
    obtain rfl : k = 0 := by simpa using hk
    exact ⟨open_, rfl, (List.append_nil _).symm⟩
  | @more open_ byte f rest h hbytes hrest ih =>
    cases k with
    | zero => exact ⟨open_, rfl, (List.append_nil _).symm⟩
    | succ k =>
      obtain ⟨last, hparts, hheld⟩ := ih (Nat.lt_of_succ_lt_succ hk)
      refine ⟨last, ?_, ?_⟩
      · simp only [List.take_succ_cons, Text.partsFrom, h, hparts, List.nil_append]
      · have hopen : held (some f) = held open_ ++ [byte] := hbytes
        rw [hheld, hopen, List.take_succ_cons, List.append_assoc, List.singleton_append]

/-- The bytes of some characters. -/
def encodeChars (text : List Char) : Bytes := text.flatMap String.utf8EncodeChar

theorem encode_eq (text : String) : encode text = encodeChars text.toList := rfl

theorem encodeChars_cons (c : Char) (text : List Char) :
    encodeChars (c :: text) = String.utf8EncodeChar c ++ encodeChars text := rfl

theorem partsFrom_encodeChars (text : List Char) :
    partsFrom none (encodeChars text) = (text.map .char, none) := by
  induction text with
  | nil => rfl
  | cons c rest ih =>
    rw [encodeChars_cons, partsFrom_append, (completes_encodeChar c).partsFrom, ih]
    rfl

theorem decode_encode (text : String) : decode (encode text) = text := by
  have hchars : (fun part : Part => part.char?.getD replacement) ∘ Part.char = id := rfl
  rw [encode_eq, decode, parts, partsFrom_encodeChars]
  simp only [List.map_map, hchars, List.map_id, String.ofList_toList]

/-- The start of an encoded text is decoded to its first characters, and the bytes of a character in
which it stops are left over. What is left over is not all that there is. -/
theorem decodePiece?_take (text : List Char) (k : Nat) :
    ∃ j tail, decodePiece? ((encodeChars text).take k) = some (text.take j, tail) ∧
      tail ++ (encodeChars text).drop k = encodeChars (text.drop j) ∧
      (tail ≠ [] → (encodeChars text).drop k ≠ []) := by
  suffices h : ∃ j last, partsFrom none ((encodeChars text).take k) =
      ((text.take j).map .char, last) ∧
      held last ++ (encodeChars text).drop k = encodeChars (text.drop j) ∧
      (held last ≠ [] → (encodeChars text).drop k ≠ []) by
    obtain ⟨j, last, hparts, hrest, hleft⟩ := h
    have hchars : ∀ chars : List Char, (chars.map Part.char).mapM Part.char? = some chars := by
      intro chars
      induction chars with
      | nil => rfl
      | cons c rest ih => simp [List.mapM_cons, ih, Part.char?]
    refine ⟨j, held last, ?_, hrest, hleft⟩
    simp only [decodePiece?, hparts, hchars, Option.map_some]
    rfl
  induction text generalizing k with
  | nil => exact ⟨0, none, by simp [encodeChars, partsFrom], by simp [encodeChars, held], by simp [held]⟩
  | cons c rest ih =>
    have hc := completes_encodeChar c
    rw [encodeChars_cons]
    by_cases hk : k < (String.utf8EncodeChar c).length
    · obtain ⟨last, hparts, hheld⟩ := hc.partsFrom_take hk
      refine ⟨0, last, ?_, ?_, ?_⟩
      · rw [List.take_append_of_le_length (Nat.le_of_lt hk), hparts]
        rfl
      · rw [hheld, List.drop_append_of_le_length (Nat.le_of_lt hk), ← List.append_assoc]
        simp [held, encodeChars_cons]
      · intro _ hdrop
        have hlength := congrArg List.length hdrop
        simp only [List.length_drop, List.length_append, List.length_nil] at hlength
        omega
    · obtain ⟨m, rfl⟩ := Nat.exists_eq_add_of_le (Nat.le_of_not_lt hk)
      obtain ⟨j, last, hparts, hrest, hleft⟩ := ih m
      have hdrop : (String.utf8EncodeChar c ++ encodeChars rest).drop
          ((String.utf8EncodeChar c).length + m) = (encodeChars rest).drop m := by
        rw [List.drop_length_add_append]
      refine ⟨j + 1, last, ?_, ?_, ?_⟩
      · rw [List.take_length_add_append, partsFrom_append, hc.partsFrom, hparts]
        rfl
      · rw [hdrop]
        exact hrest
      · rw [hdrop]
        exact hleft

/-! ## Bytes on the terminal -/

/-- Bytes are the encoding of a text. -/
def Encoded (bytes : Bytes) : Prop := ∃ text, bytes = encode text

end Text

namespace Session

theorem copied_of_encoded {bytes : Bytes} (h : Text.Encoded bytes) : copied bytes = bytes := by
  obtain ⟨text, rfl⟩ := h
  rw [copied, Text.decode_encode]

/-- What has been copied shows the same text. -/
theorem decode_copied (bytes : Bytes) : Text.decode (copied bytes) = Text.decode bytes :=
  Text.decode_encode _

end Session

end PipelineShell
