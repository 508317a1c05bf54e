import Precompiled.Bytes

/-! The digest behind class fingerprints: SHA-256 over a byte string, as the
fold of a compression step over the 64-byte blocks of the padded message. -/
namespace Precompiled.Digest

/-- The eight chaining words. -/
structure Chain where
  a : UInt32
  b : UInt32
  c : UInt32
  d : UInt32
  e : UInt32
  f : UInt32
  g : UInt32
  h : UInt32
  deriving DecidableEq, Repr

/-- Fractional parts of the square roots of the first eight primes. -/
def initial : Chain :=
  ⟨0x6a09e667, 0xbb67ae85, 0x3c6ef372, 0xa54ff53a, 0x510e527f, 0x9b05688c, 0x1f83d9ab, 0x5be0cd19⟩

/-- Fractional parts of the cube roots of the first sixty-four primes. -/
def roundConstants : List UInt32 :=
  [0x428a2f98, 0x71374491, 0xb5c0fbcf, 0xe9b5dba5, 0x3956c25b, 0x59f111f1, 0x923f82a4, 0xab1c5ed5,
   0xd807aa98, 0x12835b01, 0x243185be, 0x550c7dc3, 0x72be5d74, 0x80deb1fe, 0x9bdc06a7, 0xc19bf174,
   0xe49b69c1, 0xefbe4786, 0x0fc19dc6, 0x240ca1cc, 0x2de92c6f, 0x4a7484aa, 0x5cb0a9dc, 0x76f988da,
   0x983e5152, 0xa831c66d, 0xb00327c8, 0xbf597fc7, 0xc6e00bf3, 0xd5a79147, 0x06ca6351, 0x14292967,
   0x27b70a85, 0x2e1b2138, 0x4d2c6dfc, 0x53380d13, 0x650a7354, 0x766a0abb, 0x81c2c92e, 0x92722c85,
   0xa2bfe8a1, 0xa81a664b, 0xc24b8b70, 0xc76c51a3, 0xd192e819, 0xd6990624, 0xf40e3585, 0x106aa070,
   0x19a4c116, 0x1e376c08, 0x2748774c, 0x34b0bcb5, 0x391c0cb3, 0x4ed8aa4a, 0x5b9cca4f, 0x682e6ff3,
   0x748f82ee, 0x78a5636f, 0x84c87814, 0x8cc70208, 0x90befffa, 0xa4506ceb, 0xbef9a3f7, 0xc67178f2]

/-- Rotates a word right by `count` bits, `0 < count < 32`. -/
def rotate (word count : UInt32) : UInt32 :=
  (word >>> count) ||| (word <<< (32 - count))

/-- A 64-bit length, most significant byte first. -/
def lengthBytes (bits : Nat) : Bytes :=
  (littleEndian 8 bits).reverse

/-- The message followed by a one bit, zeros and its length in bits, a whole
number of 64-byte blocks. -/
def padded (message : Bytes) : Bytes :=
  let zeros := (119 - message.length % 64) % 64
  message ++ 0x80 :: List.replicate zeros 0 ++ lengthBytes (message.length * 8)

/-- The big-endian words of a block. -/
def blockWords : Bytes → List UInt32
  | b0 :: b1 :: b2 :: b3 :: rest =>
    UInt32.ofNat (ofLittleEndian [b3, b2, b1, b0]) :: blockWords rest
  | _ => []

/-- The word that follows sixteen scheduled ones, oldest first. -/
def nextWord (window : List UInt32) : UInt32 :=
  match window with
  | [w0, w1, _, _, _, _, _, _, _, w9, _, _, _, _, w14, _] =>
    let s0 := rotate w1 7 ^^^ rotate w1 18 ^^^ (w1 >>> 3)
    let s1 := rotate w14 17 ^^^ rotate w14 19 ^^^ (w14 >>> 10)
    w0 + s0 + w9 + s1
  | _ => 0

/-- One round: mixes a schedule word and a round constant into the chain. -/
def mix (chain : Chain) (word constant : UInt32) : Chain :=
  let s1 := rotate chain.e 6 ^^^ rotate chain.e 11 ^^^ rotate chain.e 25
  let choice := (chain.e &&& chain.f) ^^^ (~~~chain.e &&& chain.g)
  let t1 := chain.h + s1 + choice + constant + word
  let s0 := rotate chain.a 2 ^^^ rotate chain.a 13 ^^^ rotate chain.a 22
  let majority := (chain.a &&& chain.b) ^^^ (chain.a &&& chain.c) ^^^ (chain.b &&& chain.c)
  ⟨t1 + s0 + majority, chain.a, chain.b, chain.c, chain.d + t1, chain.e, chain.f, chain.g⟩

/-- The rounds of one block, sliding a window of sixteen schedule words. -/
def rounds : List UInt32 → List UInt32 → Chain → Chain
  | [], _, chain => chain
  | constant :: constants, window, chain =>
    rounds constants (window.drop 1 ++ [nextWord window]) (mix chain (window.headD 0) constant)

/-- Takes one 64-byte block into the chain. -/
def compress (chain : Chain) (block : Bytes) : Chain :=
  let after := rounds roundConstants (blockWords block) chain
  ⟨chain.a + after.a, chain.b + after.b, chain.c + after.c, chain.d + after.d,
   chain.e + after.e, chain.f + after.f, chain.g + after.g, chain.h + after.h⟩

/-- Compresses the first `count` blocks of `bytes`. -/
def compressBlocks : Nat → Bytes → Chain → Chain
  | 0, _, chain => chain
  | count + 1, bytes, chain => compressBlocks count (bytes.drop 64) (compress chain (bytes.take 64))

/-- The SHA-256 digest of a message, 32 bytes. -/
def sha256 (message : Bytes) : Bytes :=
  let blocks := padded message
  let chain := compressBlocks (blocks.length / 64) blocks initial
  [chain.a, chain.b, chain.c, chain.d, chain.e, chain.f, chain.g, chain.h].flatMap
    fun word => (littleEndian 4 word.toNat).reverse

example :
    (sha256 [0x61, 0x62, 0x63]).take 8 = [0xba, 0x78, 0x16, 0xbf, 0x8f, 0x01, 0xcf, 0xea] := by
  decide +kernel

end Precompiled.Digest
