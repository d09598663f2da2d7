import DatasetCatalog.Text.Quoted

/-! # Digests

  What the two digests share: messages are padded to whole blocks of 64 bytes, words have 32 bits,
  and a digest is shown in lower-case hexadecimal.
-/

namespace DatasetCatalog.Digest

/-- The words of a block, or a state. -/
abbrev Words := List UInt32

/-- The word at a position. -/
def word (ws : Words) (i : Nat) : UInt32 := ws.getD i 0

/-- The low `count` bytes of a number, the least significant first. -/
def lowBytes : Nat → Nat → List UInt8
  | 0, _ => []
  | count + 1, n => UInt8.ofNat n :: lowBytes count (n / 256)

/-- The message with a one bit, zeros, and room for eight bytes more. -/
def padded (bytes : List UInt8) : List UInt8 :=
  let length := bytes.length + 1
  bytes ++ 0x80 :: List.replicate ((120 - length % 64) % 64) 0

/-- Pieces of `size` elements; a last piece may be shorter. -/
def pieces {α : Type} (size : Nat) : Nat → List α → List (List α)
  | 0, _ => []
  | _, [] => []
  | fuel + 1, xs => xs.take size :: pieces size fuel (xs.drop size)

/-- A word of bytes, the most significant first. -/
def bigEndian (bytes : List UInt8) : UInt32 :=
  bytes.foldl (fun w b => w * 256 + b.toUInt32) 0

/-- The words of a message in blocks of sixteen. -/
def blocks (ofBytes : List UInt8 → UInt32) (message : List UInt8) : List Words :=
  pieces 16 message.length ((pieces 4 message.length message).map ofBytes)

/-- Rotates a word to the left. -/
def rotateLeft (w : UInt32) (n : UInt32) : UInt32 := (w <<< n) ||| (w >>> (32 - n))

/-- Rotates a word to the right. -/
def rotateRight (w : UInt32) (n : UInt32) : UInt32 := (w >>> n) ||| (w <<< (32 - n))

/-- Bytes in hexadecimal. -/
def hexText (bytes : List UInt8) : String :=
  String.ofList (bytes.flatMap fun b => Text.hex 2 b.toNat)

end DatasetCatalog.Digest
