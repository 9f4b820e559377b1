import SealedEnvelope.Bytes.Endian

/-!
# SHA-256 (SPEC_FULL §2)

The hash over blocks of sixteen words, with a schedule of sixty-four and a chaining value of eight.
-/

set_option autoImplicit false

namespace SealedEnvelope

namespace Sha256

/-- The eight words that are carried from block to block. -/
structure Chain where
  a : UInt32
  b : UInt32
  c : UInt32
  d : UInt32
  e : UInt32
  f : UInt32
  g : UInt32
  h : UInt32
  deriving DecidableEq, Repr, Inhabited

/-- The chaining value before the first block: the fractional parts of the square roots of the
first eight primes. -/
def initial : Chain :=
  ⟨0x6a09e667, 0xbb67ae85, 0x3c6ef372, 0xa54ff53a,
    0x510e527f, 0x9b05688c, 0x1f83d9ab, 0x5be0cd19⟩

/-- The constants of the rounds: the fractional parts of the cube roots of the first sixty-four
primes. -/
def roundConstants : List UInt32 :=
  [0x428a2f98, 0x71374491, 0xb5c0fbcf, 0xe9b5dba5, 0x3956c25b, 0x59f111f1, 0x923f82a4, 0xab1c5ed5,
   0xd807aa98, 0x12835b01, 0x243185be, 0x550c7dc3, 0x72be5d74, 0x80deb1fe, 0x9bdc06a7, 0xc19bf174,
   0xe49b69c1, 0xefbe4786, 0x0fc19dc6, 0x240ca1cc, 0x2de92c6f, 0x4a7484aa, 0x5cb0a9dc, 0x76f988da,
   0x983e5152, 0xa831c66d, 0xb00327c8, 0xbf597fc7, 0xc6e00bf3, 0xd5a79147, 0x06ca6351, 0x14292967,
   0x27b70a85, 0x2e1b2138, 0x4d2c6dfc, 0x53380d13, 0x650a7354, 0x766a0abb, 0x81c2c92e, 0x92722c85,
   0xa2bfe8a1, 0xa81a664b, 0xc24b8b70, 0xc76c51a3, 0xd192e819, 0xd6990624, 0xf40e3585, 0x106aa070,
   0x19a4c116, 0x1e376c08, 0x2748774c, 0x34b0bcb5, 0x391c0cb3, 0x4ed8aa4a, 0x5b9cca4f, 0x682e6ff3,
   0x748f82ee, 0x78a5636f, 0x84c87814, 0x8cc70208, 0x90befffa, 0xa4506ceb, 0xbef9a3f7, 0xc67178f2]

/-- The mixing of a schedule word fifteen steps back. -/
def smallSigma0 (w : UInt32) : UInt32 :=
  Word.rotateRight w 7 ^^^ Word.rotateRight w 18 ^^^ (w >>> 3)

/-- The mixing of a schedule word two steps back. -/
def smallSigma1 (w : UInt32) : UInt32 :=
  Word.rotateRight w 17 ^^^ Word.rotateRight w 19 ^^^ (w >>> 10)

/-- The mixing of the word `a` in a round. -/
def bigSigma0 (w : UInt32) : UInt32 :=
  Word.rotateRight w 2 ^^^ Word.rotateRight w 13 ^^^ Word.rotateRight w 22

/-- The mixing of the word `e` in a round. -/
def bigSigma1 (w : UInt32) : UInt32 :=
  Word.rotateRight w 6 ^^^ Word.rotateRight w 11 ^^^ Word.rotateRight w 25

/-- A schedule, latest word first, made longer by `count` words. -/
def extend : Nat → List UInt32 → List UInt32
  | 0, latest => latest
  | count + 1, latest =>
    let next := smallSigma1 (latest.getD 1 0) + latest.getD 6 0 + smallSigma0 (latest.getD 14 0)
      + latest.getD 15 0
    extend count (next :: latest)

/-- The sixty-four words of the schedule of a block. -/
def schedule (block : Bytes) : List UInt32 :=
  (extend 48 (Word.listOfBigEndian block).reverse).reverse

/-- One round, with its constant and its schedule word. -/
def round (s : Chain) (constant word : UInt32) : Chain :=
  let choice := (s.e &&& s.f) ^^^ (~~~s.e &&& s.g)
  let majority := (s.a &&& s.b) ^^^ (s.a &&& s.c) ^^^ (s.b &&& s.c)
  let first := s.h + bigSigma1 s.e + choice + constant + word
  let second := bigSigma0 s.a + majority
  ⟨first + second, s.a, s.b, s.c, s.d + first, s.e, s.f, s.g⟩

/-- The rounds of a block. -/
def rounds (s : Chain) : List UInt32 → List UInt32 → Chain
  | constant :: constants, word :: words => rounds (round s constant word) constants words
  | _, _ => s

/-- The chaining value after a block. -/
def compress (s : Chain) (block : Bytes) : Chain :=
  let t := rounds s roundConstants (schedule block)
  ⟨s.a + t.a, s.b + t.b, s.c + t.c, s.d + t.d, s.e + t.e, s.f + t.f, s.g + t.g, s.h + t.h⟩

/-- The message followed by a one bit, the fewest zero bits that fill the last block, and the
length of the message in bits. -/
def padded (message : Bytes) : Bytes :=
  message ++ 0x80 :: Bytes.zeros ((119 - message.length % 64) % 64)
    ++ Bytes.ofNatBigEndian 8 (8 * message.length)

/-- The bytes of a chaining value. -/
def Chain.toBytes (s : Chain) : Bytes :=
  [s.a, s.b, s.c, s.d, s.e, s.f, s.g, s.h].flatMap Word.toBigEndian

/-- The thirty-two bytes of the hash of a message. -/
def hash (message : Bytes) : Bytes :=
  ((Bytes.groups 64 (padded message)).foldl compress initial).toBytes

@[simp] theorem length_hash (message : Bytes) : (hash message).length = 32 := by
  simp [hash, Chain.toBytes]

end Sha256

end SealedEnvelope
