import DatasetCatalog.Digest.Basic

/-! # MD5 -/

namespace DatasetCatalog.Digest.Md5

/-- The round constants. -/
def constants : Words :=
  [0xD76AA478, 0xE8C7B756, 0x242070DB, 0xC1BDCEEE, 0xF57C0FAF, 0x4787C62A,
   0xA8304613, 0xFD469501, 0x698098D8, 0x8B44F7AF, 0xFFFF5BB1, 0x895CD7BE,
   0x6B901122, 0xFD987193, 0xA679438E, 0x49B40821, 0xF61E2562, 0xC040B340,
   0x265E5A51, 0xE9B6C7AA, 0xD62F105D, 0x02441453, 0xD8A1E681, 0xE7D3FBC8,
   0x21E1CDE6, 0xC33707D6, 0xF4D50D87, 0x455A14ED, 0xA9E3E905, 0xFCEFA3F8,
   0x676F02D9, 0x8D2A4C8A, 0xFFFA3942, 0x8771F681, 0x6D9D6122, 0xFDE5380C,
   0xA4BEEA44, 0x4BDECFA9, 0xF6BB4B60, 0xBEBFBC70, 0x289B7EC6, 0xEAA127FA,
   0xD4EF3085, 0x04881D05, 0xD9D4D039, 0xE6DB99E5, 0x1FA27CF8, 0xC4AC5665,
   0xF4292244, 0x432AFF97, 0xAB9423A7, 0xFC93A039, 0x655B59C3, 0x8F0CCC92,
   0xFFEFF47D, 0x85845DD1, 0x6FA87E4F, 0xFE2CE6E0, 0xA3014314, 0x4E0811A1,
   0xF7537E82, 0xBD3AF235, 0x2AD7D2BB, 0xEB86D391]

/-- The rotations of the four passes, which repeat every four rounds. -/
def rotations : List (List UInt32) := [[7, 12, 17, 22], [5, 9, 14, 20], [4, 11, 16, 23], [6, 10, 15, 21]]

/-- The state in front of the first block. -/
def initial : Words := [0x67452301, 0xEFCDAB89, 0x98BADCFE, 0x10325476]

/-- What a round mixes in, and the position of the word it takes. -/
def mix (i : Nat) (b c d : UInt32) : UInt32 × Nat :=
  if i < 16 then ((b &&& c) ||| (~~~b &&& d), i)
  else if i < 32 then ((d &&& b) ||| (~~~d &&& c), (5 * i + 1) % 16)
  else if i < 48 then (b ^^^ c ^^^ d, (3 * i + 5) % 16)
  else (c ^^^ (b ||| ~~~d), (7 * i) % 16)

/-- Round number `i` of a block. -/
def round (block : Words) (state : Words) (i : Nat) : Words :=
  match state with
  | [a, b, c, d] =>
    let (f, position) := mix i b c d
    let sum := a + f + word constants i + word block position
    [d, b + rotateLeft sum (word (rotations.getD (i / 16) []) (i % 4)), b, c]
  | _ => state

/-- Takes in a block. -/
def absorb (state block : Words) : Words :=
  List.zipWith (· + ·) state ((List.range 64).foldl (round block) state)

/-- A word of bytes, the least significant first. -/
def littleEndian (bytes : List UInt8) : UInt32 := bigEndian bytes.reverse

/-- The digest of a message. -/
def digest (bytes : ByteArray) : List UInt8 :=
  let message := padded bytes.toList ++ lowBytes 8 (8 * bytes.size)
  let state := (blocks littleEndian message).foldl absorb initial
  state.flatMap fun w => lowBytes 4 w.toNat

end Md5

/-- The MD5 digest of bytes in hexadecimal. -/
def md5 (bytes : ByteArray) : String := hexText (Md5.digest bytes)

end DatasetCatalog.Digest
