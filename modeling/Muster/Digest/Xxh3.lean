import Muster.Powers

/-!
# Digest/Xxh3 — the 64-bit XXH3 digest with seed zero

XXH3 mixes an input of bytes with a fixed secret. Short inputs have a formula per range of
lengths; an input beyond 240 bytes is folded into eight lanes, one stripe of 64 bytes at a time.
Words are little endian. A byte outside the input reads as zero, which no formula asks for.
-/

namespace Muster.Digest.Xxh3

/-! ## Constants -/

def prime32a : UInt64 := 0x9E3779B1
def prime32b : UInt64 := 0x85EBCA77
def prime32c : UInt64 := 0xC2B2AE3D
def prime64a : UInt64 := 0x9E3779B185EBCA87
def prime64b : UInt64 := 0xC2B2AE3D27D4EB4F
def prime64c : UInt64 := 0x165667B19E3779F9
def prime64d : UInt64 := 0x85EBCA77C2B2AE63
def prime64e : UInt64 := 0x27D4EB2F165667C5

/-- **The secret**, 192 bytes. -/
def secret : ByteArray := .mk #[
  0xb8, 0xfe, 0x6c, 0x39, 0x23, 0xa4, 0x4b, 0xbe, 0x7c, 0x01, 0x81, 0x2c, 0xf7, 0x21, 0xad, 0x1c,
  0xde, 0xd4, 0x6d, 0xe9, 0x83, 0x90, 0x97, 0xdb, 0x72, 0x40, 0xa4, 0xa4, 0xb7, 0xb3, 0x67, 0x1f,
  0xcb, 0x79, 0xe6, 0x4e, 0xcc, 0xc0, 0xe5, 0x78, 0x82, 0x5a, 0xd0, 0x7d, 0xcc, 0xff, 0x72, 0x21,
  0xb8, 0x08, 0x46, 0x74, 0xf7, 0x43, 0x24, 0x8e, 0xe0, 0x35, 0x90, 0xe6, 0x81, 0x3a, 0x26, 0x4c,
  0x3c, 0x28, 0x52, 0xbb, 0x91, 0xc3, 0x00, 0xcb, 0x88, 0xd0, 0x65, 0x8b, 0x1b, 0x53, 0x2e, 0xa3,
  0x71, 0x64, 0x48, 0x97, 0xa2, 0x0d, 0xf9, 0x4e, 0x38, 0x19, 0xef, 0x46, 0xa9, 0xde, 0xac, 0xd8,
  0xa8, 0xfa, 0x76, 0x3f, 0xe3, 0x9c, 0x34, 0x3f, 0xf9, 0xdc, 0xbb, 0xc7, 0xc7, 0x0b, 0x4f, 0x1d,
  0x8a, 0x51, 0xe0, 0x4b, 0xcd, 0xb4, 0x59, 0x31, 0xc8, 0x9f, 0x7e, 0xc9, 0xd9, 0x78, 0x73, 0x64,
  0xea, 0xc5, 0xac, 0x83, 0x34, 0xd3, 0xeb, 0xc3, 0xc5, 0x81, 0xa0, 0xff, 0xfa, 0x13, 0x63, 0xeb,
  0x17, 0x0d, 0xdd, 0x51, 0xb7, 0xf0, 0xda, 0x49, 0xd3, 0x16, 0x55, 0x26, 0x29, 0xd4, 0x68, 0x9e,
  0x2b, 0x16, 0xbe, 0x58, 0x7d, 0x47, 0xa1, 0xfc, 0x8f, 0xf8, 0xb8, 0xd1, 0x7a, 0xd0, 0x31, 0xce,
  0x45, 0xcb, 0x3a, 0x8f, 0x95, 0x16, 0x04, 0x28, 0xaf, 0xd7, 0xfb, 0xca, 0xbb, 0x4b, 0x40, 0x7e]

/-! ## Words -/

/-- The byte at a position. -/
def byteAt (b : ByteArray) (i : Nat) : UInt8 := if h : i < b.size then b[i] else 0

/-- The word of `n` bytes at a position, the first byte lowest. -/
def wordAt (b : ByteArray) : (n i : Nat) → UInt64
  | 0, _ => 0
  | n + 1, i => (byteAt b i).toUInt64 ||| wordAt b n (i + 1) <<< 8

def word64 (b : ByteArray) (i : Nat) : UInt64 := wordAt b 8 i

def word32 (b : ByteArray) (i : Nat) : UInt64 := wordAt b 4 i

/-- The bytes of a word in opposite order. -/
def swapBytes (w : UInt64) : UInt64 :=
  (List.range 8).foldl (fun acc i => acc <<< 8 ||| (w >>> (8 * i).toUInt64 &&& 0xff)) 0

def rotate (w k : UInt64) : UInt64 := w <<< k ||| w >>> (64 - k)

/-- **The product of two words folded into one**: its high half exclusive-or its low half. -/
def foldMul (a b : UInt64) : UInt64 :=
  let p := a.toNat * b.toNat
  UInt64.ofNat (p / 2 ^ 64) ^^^ UInt64.ofNat p

/-! ## Final mixing -/

/-- The final mixing of inputs of up to three bytes. -/
def avalancheTiny (h : UInt64) : UInt64 :=
  let h := (h ^^^ h >>> 33) * prime64b
  let h := (h ^^^ h >>> 29) * prime64c
  h ^^^ h >>> 32

/-- The final mixing of most inputs. -/
def avalanche (h : UInt64) : UInt64 :=
  let h := (h ^^^ h >>> 37) * 0x165667919E3779F9
  h ^^^ h >>> 32

/-- The final mixing of inputs of four to eight bytes. -/
def avalancheShort (h len : UInt64) : UInt64 :=
  let h := (h ^^^ rotate h 49 ^^^ rotate h 24) * 0x9FB21C651E98DF25
  let h := (h ^^^ (h >>> 35) + len) * 0x9FB21C651E98DF25
  h ^^^ h >>> 28

/-! ## Inputs of up to 240 bytes -/

def digestEmpty : UInt64 := avalancheTiny (word64 secret 56 ^^^ word64 secret 64)

def digestTo3 (b : ByteArray) (len : Nat) : UInt64 :=
  let first := (byteAt b 0).toUInt64
  let middle := (byteAt b (len / 2)).toUInt64
  let last := (byteAt b (len - 1)).toUInt64
  let combined := first <<< 16 ||| middle <<< 24 ||| last ||| len.toUInt64 <<< 8
  avalancheTiny (combined ^^^ (word32 secret 0 ^^^ word32 secret 4))

def digestTo8 (b : ByteArray) (len : Nat) : UInt64 :=
  let input := word32 b (len - 4) + word32 b 0 <<< 32
  avalancheShort (input ^^^ (word64 secret 8 ^^^ word64 secret 16)) len.toUInt64

def digestTo16 (b : ByteArray) (len : Nat) : UInt64 :=
  let low := word64 b 0 ^^^ (word64 secret 24 ^^^ word64 secret 32)
  let high := word64 b (len - 8) ^^^ (word64 secret 40 ^^^ word64 secret 48)
  avalanche (len.toUInt64 + swapBytes low + high + foldMul low high)

/-- Sixteen bytes of the input mixed with sixteen of the secret. -/
def mix16 (b : ByteArray) (i s : Nat) : UInt64 :=
  foldMul (word64 b i ^^^ word64 secret s) (word64 b (i + 8) ^^^ word64 secret (s + 8))

/-- Pairs of sixteen bytes from both ends of the input, as many as its length asks for. -/
def digestTo128 (b : ByteArray) (len : Nat) : UInt64 :=
  avalanche <| (List.range ((len - 1) / 32 + 1)).foldl
    (fun acc i => acc + mix16 b (16 * i) (32 * i) + mix16 b (len - 16 * (i + 1)) (32 * i + 16))
    (len.toUInt64 * prime64a)

def digestTo240 (b : ByteArray) (len : Nat) : UInt64 :=
  let head := (List.range 8).foldl (fun acc i => acc + mix16 b (16 * i) (16 * i))
    (len.toUInt64 * prime64a)
  let body := (List.range (len / 16 - 8)).foldl
    (fun acc i => acc + mix16 b (16 * (i + 8)) (16 * i + 3)) (avalanche head)
  avalanche (body + mix16 b (len - 16) (136 - 17))

/-! ## Longer inputs -/

/-- The lanes before any stripe. -/
def startLanes : Vector UInt64 8 :=
  #v[prime32c, prime64a, prime64b, prime64c, prime64d, prime32b, prime64e, prime32a]

/-- **One stripe** of 64 bytes at `i`, with the secret from `s`: each word is added to the neighbour
lane, and the product of its keyed halves to its own. -/
def addStripe (b : ByteArray) (lanes : Vector UInt64 8) (i s : Nat) : Vector UInt64 8 :=
  let word (k : Nat) := word64 b (i + 8 * k)
  let keyed (k : Nat) := word k ^^^ word64 secret (s + 8 * k)
  lanes.mapFinIdx fun k lane _ =>
    lane + word (k ^^^ 1) + (keyed k &&& (0xFFFFFFFF : UInt64)) * (keyed k >>> 32)

/-- The lanes scrambled between blocks. -/
def scramble (lanes : Vector UInt64 8) : Vector UInt64 8 :=
  lanes.mapFinIdx fun k lane _ =>
    (lane ^^^ lane >>> 47 ^^^ word64 secret (128 + 8 * k)) * prime32a

/-- The first `n` stripes of the block at `i`. -/
def addStripes (b : ByteArray) (lanes : Vector UInt64 8) (i n : Nat) : Vector UInt64 8 :=
  (List.range n).foldl (fun lanes k => addStripe b lanes (i + 64 * k) (8 * k)) lanes

/-- The lanes folded into one word. -/
def mergeLanes (lanes : Vector UInt64 8) (start : UInt64) : UInt64 :=
  avalanche <| start
    + foldMul (lanes[0] ^^^ word64 secret 11) (lanes[1] ^^^ word64 secret 19)
    + foldMul (lanes[2] ^^^ word64 secret 27) (lanes[3] ^^^ word64 secret 35)
    + foldMul (lanes[4] ^^^ word64 secret 43) (lanes[5] ^^^ word64 secret 51)
    + foldMul (lanes[6] ^^^ word64 secret 59) (lanes[7] ^^^ word64 secret 67)

/-- **Blocks of sixteen stripes**, the rest of whole stripes, and the last 64 bytes once more. -/
def digestLong (b : ByteArray) (len : Nat) : UInt64 :=
  let blocks := (len - 1) / 1024
  let lanes := (List.range blocks).foldl
    (fun lanes k => scramble (addStripes b lanes (1024 * k) 16)) startLanes
  let lanes := addStripes b lanes (1024 * blocks) ((len - 1 - 1024 * blocks) / 64)
  mergeLanes (addStripe b lanes (len - 64) 121) (len.toUInt64 * prime64a)

/-- **The digest of a sequence of bytes.** -/
def digest (b : ByteArray) : UInt64 :=
  let len := b.size
  if len = 0 then digestEmpty
  else if len ≤ 3 then digestTo3 b len
  else if len ≤ 8 then digestTo8 b len
  else if len ≤ 16 then digestTo16 b len
  else if len ≤ 128 then digestTo128 b len
  else if len ≤ 240 then digestTo240 b len
  else digestLong b len

end Muster.Digest.Xxh3
