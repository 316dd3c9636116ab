import WorkflowEngine.Foundations.Text

/-!
# Reading bytes as UTF-8

Every list of bytes is read as a text.  Bytes that are not UTF-8 are replaced by U+FFFD.
-/

namespace Utf8

/-- What a decoder expects: so many more bytes of a character with these first bits, the
next one in these bounds. -/
structure Decoder where
  needed : ℕ
  code : ℕ
  lower : ℕ
  upper : ℕ

/-- Between two characters. -/
def Decoder.idle : Decoder := ⟨0, 0, 0x80, 0xBF⟩

def replacement : CodeUnit := 0xFFFD

/-- The code units of a code point. -/
def unitsOf (point : ℕ) : Text :=
  if point < 0x10000 then [point.toUInt16]
  else
    [(0xD800 + (point - 0x10000) / 0x400).toUInt16, (0xDC00 + (point - 0x10000) % 0x400).toUInt16]

/-- The first byte of a character. -/
def begin (byte : ℕ) : Decoder × Text :=
  if byte < 0x80 then (.idle, [byte.toUInt16])
  else if 0xC2 ≤ byte ∧ byte ≤ 0xDF then (⟨1, byte - 0xC0, 0x80, 0xBF⟩, [])
  else if 0xE0 ≤ byte ∧ byte ≤ 0xEF then
    (⟨2, byte - 0xE0, if byte = 0xE0 then 0xA0 else 0x80, if byte = 0xED then 0x9F else 0xBF⟩, [])
  else if 0xF0 ≤ byte ∧ byte ≤ 0xF4 then
    (⟨3, byte - 0xF0, if byte = 0xF0 then 0x90 else 0x80, if byte = 0xF4 then 0x8F else 0xBF⟩, [])
  else (.idle, [replacement])

/-- A byte out of bounds ends the character and begins the next one. -/
def Decoder.next (decoder : Decoder) (byte : ℕ) : Decoder × Text :=
  if decoder.needed = 0 then begin byte
  else if byte < decoder.lower ∨ decoder.upper < byte then
    ((begin byte).1, replacement :: (begin byte).2)
  else if decoder.needed = 1 then (.idle, unitsOf (decoder.code * 64 + (byte - 0x80)))
  else (⟨decoder.needed - 1, decoder.code * 64 + (byte - 0x80), 0x80, 0xBF⟩, [])

def decodeFrom (decoder : Decoder) : List UInt8 → Text
  | [] => if decoder.needed = 0 then [] else [replacement]
  | byte :: rest =>
      (decoder.next byte.toNat).2 ++ decodeFrom (decoder.next byte.toNat).1 rest

/-- `buffer.toString()` -/
def decode (bytes : List UInt8) : Text := decodeFrom .idle bytes

example : decode [0x61, 0xE2, 0x82, 0xAC, 0xFF, 0xF0, 0x9F, 0x98, 0x80, 0xE2, 0x82] =
    [0x61, 0x20AC, 0xFFFD, 0xD83D, 0xDE00, 0xFFFD] := by decide

end Utf8
