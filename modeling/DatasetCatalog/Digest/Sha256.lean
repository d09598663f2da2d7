import DatasetCatalog.Digest.Basic

/-! # SHA-256 -/

namespace DatasetCatalog.Digest.Sha256

/-- The round constants. -/
def constants : Words :=
  [0x428A2F98, 0x71374491, 0xB5C0FBCF, 0xE9B5DBA5, 0x3956C25B, 0x59F111F1,
   0x923F82A4, 0xAB1C5ED5, 0xD807AA98, 0x12835B01, 0x243185BE, 0x550C7DC3,
   0x72BE5D74, 0x80DEB1FE, 0x9BDC06A7, 0xC19BF174, 0xE49B69C1, 0xEFBE4786,
   0x0FC19DC6, 0x240CA1CC, 0x2DE92C6F, 0x4A7484AA, 0x5CB0A9DC, 0x76F988DA,
   0x983E5152, 0xA831C66D, 0xB00327C8, 0xBF597FC7, 0xC6E00BF3, 0xD5A79147,
   0x06CA6351, 0x14292967, 0x27B70A85, 0x2E1B2138, 0x4D2C6DFC, 0x53380D13,
   0x650A7354, 0x766A0ABB, 0x81C2C92E, 0x92722C85, 0xA2BFE8A1, 0xA81A664B,
   0xC24B8B70, 0xC76C51A3, 0xD192E819, 0xD6990624, 0xF40E3585, 0x106AA070,
   0x19A4C116, 0x1E376C08, 0x2748774C, 0x34B0BCB5, 0x391C0CB3, 0x4ED8AA4A,
   0x5B9CCA4F, 0x682E6FF3, 0x748F82EE, 0x78A5636F, 0x84C87814, 0x8CC70208,
   0x90BEFFFA, 0xA4506CEB, 0xBEF9A3F7, 0xC67178F2]

/-- The state in front of the first block. -/
def initial : Words :=
  [0x6A09E667, 0xBB67AE85, 0x3C6EF372, 0xA54FF53A, 0x510E527F, 0x9B05688C, 0x1F83D9AB, 0x5BE0CD19]

/-- The next word of a schedule whose last sixteen words are given, the last one first. -/
def nextWord (recent : Words) : UInt32 :=
  let a := word recent 14
  let b := word recent 1
  let s0 := rotateRight a 7 ^^^ rotateRight a 18 ^^^ (a >>> 3)
  let s1 := rotateRight b 17 ^^^ rotateRight b 19 ^^^ (b >>> 10)
  word recent 15 + s0 + word recent 6 + s1

/-- Extends a schedule, the last word first, by `count` words. -/
def extend : Nat → Words → Words
  | 0, ws => ws
  | count + 1, ws => extend count (nextWord ws :: ws)

/-- The 64 words of the schedule of a block. -/
def schedule (block : Words) : Words := (extend 48 block.reverse).reverse

/-- One round. -/
def round : Words → UInt32 × UInt32 → Words
  | [a, b, c, d, e, f, g, h], (k, w) =>
    let s1 := rotateRight e 6 ^^^ rotateRight e 11 ^^^ rotateRight e 25
    let choice := (e &&& f) ^^^ (~~~e &&& g)
    let t1 := h + s1 + choice + k + w
    let s0 := rotateRight a 2 ^^^ rotateRight a 13 ^^^ rotateRight a 22
    let majority := (a &&& b) ^^^ (a &&& c) ^^^ (b &&& c)
    [t1 + s0 + majority, a, b, c, d + t1, e, f, g]
  | state, _ => state

/-- Takes in a block. -/
def absorb (state block : Words) : Words :=
  let mixed := (constants.zip (schedule block)).foldl round state
  List.zipWith (· + ·) state mixed

/-- The digest of a message. -/
def digest (bytes : ByteArray) : List UInt8 :=
  let message := padded bytes.toList ++ (lowBytes 8 (8 * bytes.size)).reverse
  let state := (blocks bigEndian message).foldl absorb initial
  state.flatMap fun w => (lowBytes 4 w.toNat).reverse

end Sha256

/-- The SHA-256 digest of bytes in hexadecimal. -/
def sha256 (bytes : ByteArray) : String := hexText (Sha256.digest bytes)

end DatasetCatalog.Digest
