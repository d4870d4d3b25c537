/-!
# Reading UTF-8

Bytes are read from the front. What stands there is either the encoding of a character or a fault, and a
fault is as long as the longest start of an encoding that it holds, and at least one byte.
-/

namespace PyBundle.Text.Utf8

/-- What stands at the front of some bytes: a character or a fault, and how many bytes it takes. -/
structure Front where
  char? : Option Char
  length : Nat
  deriving Repr, DecidableEq

/-- Whether a byte lies between two others. -/
def within (low high b : UInt8) : Bool := low ≤ b && b ≤ high

/-- **What a first byte demands of the bytes that follow:** the range of each. None demands nothing, and
`none` means that no encoding starts with the byte. -/
def followers? (b : UInt8) : Option (List (UInt8 × UInt8)) :=
  if b < 0x80 then some []
  else if within 0xC2 0xDF b then some [(0x80, 0xBF)]
  else if b == 0xE0 then some [(0xA0, 0xBF), (0x80, 0xBF)]
  else if b == 0xED then some [(0x80, 0x9F), (0x80, 0xBF)]
  else if within 0xE1 0xEF b then some [(0x80, 0xBF), (0x80, 0xBF)]
  else if b == 0xF0 then some [(0x90, 0xBF), (0x80, 0xBF), (0x80, 0xBF)]
  else if within 0xF1 0xF3 b then some [(0x80, 0xBF), (0x80, 0xBF), (0x80, 0xBF)]
  else if b == 0xF4 then some [(0x80, 0x8F), (0x80, 0xBF), (0x80, 0xBF)]
  else none

/-- The bits of a first byte that belong to the character. -/
def leadBits (b : UInt8) (followers : Nat) : Nat :=
  match followers with
  | 0 => b.toNat
  | 1 => b.toNat % 32
  | 2 => b.toNat % 16
  | _ => b.toNat % 8

/-- Reads the bytes that follow, as far as they are as demanded. -/
def readFollowers (bits taken : Nat) : List (UInt8 × UInt8) → List UInt8 → Front
  | [], _ => ⟨some (Char.ofNat bits), taken⟩
  | (low, high) :: demands, b :: bytes =>
    if within low high b then readFollowers (bits * 64 + b.toNat % 64) (taken + 1) demands bytes
    else ⟨none, taken⟩
  | _ :: _, [] => ⟨none, taken⟩

/-- **What stands at the front,** where a first byte is followed by others. -/
def front (b : UInt8) (bytes : List UInt8) : Front :=
  match followers? b with
  | none => ⟨none, 1⟩
  | some demands => readFollowers (leadBits b demands.length) 1 demands bytes

/-- The characters and faults of some bytes in order. A fault is `none`. -/
def charsAux : Nat → List UInt8 → List (Option Char)
  | _, [] => []
  | 0, b :: bytes =>
    let f := front b bytes
    f.char? :: charsAux (f.length - 1) bytes
  | skip + 1, _ :: bytes => charsAux skip bytes

/-- **The characters and faults of some bytes.** -/
def chars (bytes : List UInt8) : List (Option Char) := charsAux 0 bytes

/-- **The text that some bytes encode,** where a replacement character stands for each fault. -/
def decodeLossy (bytes : ByteArray) : String :=
  String.ofList ((chars bytes.toList).map (·.getD '\uFFFD'))

end PyBundle.Text.Utf8
