import EquationText.Text.Quoted

/-! # Encoded text

Documents are stored as UTF-8, and their lines may end in any of the usual ways. Decoding refuses
bytes that are not the shortest encoding of a character; the fault names the bytes and what is wrong
with them.
-/

namespace EquationText

/-- What is wrong with bytes that encode no character. -/
inductive EncodingProblem
  | startByte
  | continuationByte
  | endOfData
deriving DecidableEq

def EncodingProblem.message : EncodingProblem → String
  | startByte => "invalid start byte"
  | continuationByte => "invalid continuation byte"
  | endOfData => "unexpected end of data"

/-- Bytes that encode no character, with the position of the first of them. -/
structure EncodingFault where
  problem : EncodingProblem
  position : Nat
  bytes : List UInt8
deriving DecidableEq

/-- The text of an encoding fault. -/
def EncodingFault.message (fault : EncodingFault) : String :=
  let place :=
    match fault.bytes with
    | [byte] =>
      let digits := String.ofList (hexDigits 2 byte.toNat)
      s!"byte 0x{digits} in position {fault.position}"
    | bytes => s!"bytes in position {fault.position}-{fault.position + bytes.length - 1}"
  "'utf-8' codec can't decode " ++ place ++ ": " ++ fault.problem.message

/-- A character of which some bytes have been read, the last one first. -/
structure PartialCharacter where
  /-- The code point so far. -/
  value : Nat
  /-- The number of bytes that are still to come. -/
  missing : Nat
  /-- The bounds of the next byte. -/
  low : Nat
  high : Nat
  bytesRead : List UInt8

namespace PartialCharacter

/-- What the first byte of a character of several bytes says. The bounds of the second byte leave
out longer encodings than needed, surrogates, and what lies beyond Unicode. -/
def ofStart? (byte : UInt8) : Option PartialCharacter :=
  let start := byte.toNat
  if 0xc2 ≤ start && start ≤ 0xdf then some ⟨start - 0xc0, 1, 0x80, 0xbf, [byte]⟩
  else if 0xe0 ≤ start && start ≤ 0xef then
    some ⟨start - 0xe0, 2, if start = 0xe0 then 0xa0 else 0x80,
      if start = 0xed then 0x9f else 0xbf, [byte]⟩
  else if 0xf0 ≤ start && start ≤ 0xf4 then
    some ⟨start - 0xf0, 3, if start = 0xf0 then 0x90 else 0x80,
      if start = 0xf4 then 0x8f else 0xbf, [byte]⟩
  else none

/-- The character with its next byte, unless the byte is out of bounds. -/
def extend? (pending : PartialCharacter) (byte : UInt8) : Option PartialCharacter :=
  let next := byte.toNat
  if pending.low ≤ next && next ≤ pending.high then
    some ⟨64 * pending.value + (next - 0x80), pending.missing - 1, 0x80, 0xbf,
      byte :: pending.bytesRead⟩
  else none

/-- The fault of a character that ends before `position`. -/
def fault (pending : PartialCharacter) (problem : EncodingProblem) (position : Nat) :
    EncodingFault :=
  ⟨problem, position - pending.bytesRead.length, pending.bytesRead.reverse⟩

end PartialCharacter

/-- The characters of bytes that start at `position`; `found` holds the characters before them, the
last one first. -/
def decodeFrom (pending : Option PartialCharacter) (position : Nat) (found : List Char) :
    List UInt8 → Except EncodingFault (List Char)
  | [] =>
    match pending with
    | none => .ok found.reverse
    | some begun => .error (begun.fault .endOfData position)
  | byte :: rest =>
    match pending with
    | none =>
      if byte < 0x80 then decodeFrom none (position + 1) (Char.ofNat byte.toNat :: found) rest
      else
        match PartialCharacter.ofStart? byte with
        | some begun => decodeFrom (some begun) (position + 1) found rest
        | none => .error ⟨.startByte, position, [byte]⟩
    | some begun =>
      match begun.extend? byte with
      | none => .error (begun.fault .continuationByte position)
      | some extended =>
        if extended.missing = 0 then
          decodeFrom none (position + 1) (Char.ofNat extended.value :: found) rest
        else decodeFrom (some extended) (position + 1) found rest

/-- The characters that bytes encode. -/
def decode (bytes : List UInt8) : Except EncodingFault (List Char) := decodeFrom none 0 [] bytes

/-- The text with every end of a line written as a line feed. -/
def unifyLineEnds : List Char → List Char
  | [] => []
  | '\r' :: '\n' :: rest => '\n' :: unifyLineEnds rest
  | '\r' :: rest => '\n' :: unifyLineEnds rest
  | c :: rest => c :: unifyLineEnds rest

/-- The text of a stored document. -/
def decodeText (bytes : ByteArray) : Except EncodingFault String :=
  (decode bytes.data.toList).map fun cs => String.ofList (unifyLineEnds cs)

end EquationText
