import LoxLang.Text.CharClass

/-!
# Decoding UTF-8

Source files are UTF-8. The first byte of a character says which bytes may follow it, so a
sequence that no text can start with is found at its first bad byte. A fault holds the place of
the bytes that cannot be decoded and the reason.
-/

namespace LoxLang
namespace Text

/-- Why some bytes are not UTF-8. -/
inductive Utf8Reason
  | invalidStart
  | invalidContinuation
  | unexpectedEnd

/-- Bytes that are not UTF-8: `length` of them from offset `start` on, the first being `byte`. -/
structure Utf8Fault where
  start : Nat
  length : Nat
  byte : UInt8
  reason : Utf8Reason

namespace Utf8Fault

/-- The wording of a fault. -/
def message (fault : Utf8Fault) : String :=
  let place :=
    if fault.length == 1 then
      "byte 0x" ++ String.ofList (hexDigits fault.byte) ++ " in position " ++ toString fault.start
    else
      "bytes in position " ++ toString fault.start ++ "-" ++
        toString (fault.start + fault.length - 1)
  let reason :=
    match fault.reason with
    | .invalidStart => "invalid start byte"
    | .invalidContinuation => "invalid continuation byte"
    | .unexpectedEnd => "unexpected end of data"
  "'utf-8' codec can't decode " ++ place ++ ": " ++ reason
where
  /-- The two hexadecimal digits of a byte. -/
  hexDigits (byte : UInt8) : List Char :=
    [Nat.digitChar (byte.toNat / 16), Nat.digitChar (byte.toNat % 16)]

end Utf8Fault

/-- The bytes that may continue a character. -/
def anyTail : CodeRange := ⟨0x80, 0xbf⟩

/-- What the first byte of a character announces: its part of the code point and the ranges of the
bytes that have to follow. -/
def announced? (byte : UInt8) : Option (Nat × List CodeRange) :=
  let code := byte.toNat
  if code < 0x80 then some (code, [])
  else if code < 0xc2 then none
  else if code < 0xe0 then some (code - 0xc0, [anyTail])
  else if code == 0xe0 then some (0, [⟨0xa0, 0xbf⟩, anyTail])
  else if code == 0xed then some (0xd, [⟨0x80, 0x9f⟩, anyTail])
  else if code < 0xf0 then some (code - 0xe0, [anyTail, anyTail])
  else if code == 0xf0 then some (0, [⟨0x90, 0xbf⟩, anyTail, anyTail])
  else if code < 0xf4 then some (code - 0xf0, [anyTail, anyTail, anyTail])
  else if code == 0xf4 then some (4, [⟨0x80, 0x8f⟩, anyTail, anyTail])
  else none

/-- Decodes the bytes from offset `start + length` on. Of the current character, which began at
offset `start` with `first`, `length` bytes have been read, they give `code`, and bytes in the
ranges `owed` have to follow; `decoded` holds the characters before it, reversed. -/
def decodeUtf8From (start length : Nat) (first : UInt8) (code : Nat) (owed : List CodeRange)
    (decoded : List Char) : List UInt8 → Except Utf8Fault (List Char)
  | [] =>
      if owed.isEmpty then .ok decoded.reverse
      else .error ⟨start, length, first, .unexpectedEnd⟩
  | byte :: rest =>
      match owed with
      | range :: owed =>
          if range.first ≤ byte.toNat && byte.toNat ≤ range.last then
            let code := code * 64 + (byte.toNat - 0x80)
            let decoded := if owed.isEmpty then Char.ofNat code :: decoded else decoded
            decodeUtf8From start (length + 1) first code owed decoded rest
          else .error ⟨start, length, first, .invalidContinuation⟩
      | [] =>
          match announced? byte with
          | none => .error ⟨start + length, 1, byte, .invalidStart⟩
          | some (code, owed) =>
              let decoded := if owed.isEmpty then Char.ofNat code :: decoded else decoded
              decodeUtf8From (start + length) 1 byte code owed decoded rest

/-- The characters that some bytes encode. -/
def decodeUtf8 (bytes : List UInt8) : Except Utf8Fault (List Char) :=
  decodeUtf8From 0 0 0 0 [] [] bytes

end Text
end LoxLang
