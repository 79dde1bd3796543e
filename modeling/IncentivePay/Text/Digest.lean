/-!
# SHA-256 digests of texts

The digest of a text is the SHA-256 digest of its UTF-8 bytes: the bytes are
padded to whole blocks of sixty-four, each block is spread into sixty-four
words, and the words are folded one after the other into a state of eight
words.  `Digest.hex` writes the eight words as sixty-four hexadecimal digits.
-/

namespace IncentivePay

/-- A SHA-256 digest: eight words of thirty-two bits. -/
structure Digest where
  a : UInt32
  b : UInt32
  c : UInt32
  d : UInt32
  e : UInt32
  f : UInt32
  g : UInt32
  h : UInt32
deriving DecidableEq, Repr

namespace Digest

/-- The state before the first block: roots of the first eight primes. -/
def initial : Digest :=
  ⟨0x6a09e667, 0xbb67ae85, 0x3c6ef372, 0xa54ff53a,
    0x510e527f, 0x9b05688c, 0x1f83d9ab, 0x5be0cd19⟩

/-- The constant of each round: cube roots of the first sixty-four primes. -/
def roundConstants : List UInt32 :=
  [
    0x428a2f98, 0x71374491, 0xb5c0fbcf, 0xe9b5dba5, 0x3956c25b, 0x59f111f1,
    0x923f82a4, 0xab1c5ed5, 0xd807aa98, 0x12835b01, 0x243185be, 0x550c7dc3,
    0x72be5d74, 0x80deb1fe, 0x9bdc06a7, 0xc19bf174, 0xe49b69c1, 0xefbe4786,
    0x0fc19dc6, 0x240ca1cc, 0x2de92c6f, 0x4a7484aa, 0x5cb0a9dc, 0x76f988da,
    0x983e5152, 0xa831c66d, 0xb00327c8, 0xbf597fc7, 0xc6e00bf3, 0xd5a79147,
    0x06ca6351, 0x14292967, 0x27b70a85, 0x2e1b2138, 0x4d2c6dfc, 0x53380d13,
    0x650a7354, 0x766a0abb, 0x81c2c92e, 0x92722c85, 0xa2bfe8a1, 0xa81a664b,
    0xc24b8b70, 0xc76c51a3, 0xd192e819, 0xd6990624, 0xf40e3585, 0x106aa070,
    0x19a4c116, 0x1e376c08, 0x2748774c, 0x34b0bcb5, 0x391c0cb3, 0x4ed8aa4a,
    0x5b9cca4f, 0x682e6ff3, 0x748f82ee, 0x78a5636f, 0x84c87814, 0x8cc70208,
    0x90befffa, 0xa4506ceb, 0xbef9a3f7, 0xc67178f2
  ]

/-- The word turned to the right by a number of bits below thirty-two. -/
def rotateRight
    (word amount : UInt32) :
    UInt32 :=
  (word >>> amount) ||| (word <<< (32 - amount))

/-- The number of zero bytes between the end mark and the length. -/
def zeroCount (size : Nat) : Nat :=
  (119 - size % 64) % 64

/-- The bytes of a number, most significant first, in a given count. -/
def bigEndian
    (count value : Nat) :
    List UInt8 :=
  (List.range count).map fun place =>
    UInt8.ofNat (value >>> (8 * (count - 1 - place)))

/-- The message with its end mark, its zeros and its length in bits. -/
def pad (bytes : List UInt8) : List UInt8 :=
  bytes ++
    0x80 :: List.replicate (zeroCount bytes.length) 0 ++
      bigEndian 8 (8 * bytes.length)

/-- The words of a list of bytes, four bytes to a word. -/
def words : List UInt8 → List UInt32
  | first :: second :: third :: fourth :: rest =>
      ((first.toUInt32 <<< 24) ||| (second.toUInt32 <<< 16) |||
        (third.toUInt32 <<< 8) ||| fourth.toUInt32) :: words rest
  | _ => []

/-- The next word of a schedule that is kept with its newest word first. -/
def nextWord (schedule : List UInt32) : UInt32 :=
  let two := schedule.getD 1 0
  let seven := schedule.getD 6 0
  let fifteen := schedule.getD 14 0
  let sixteen := schedule.getD 15 0
  let low :=
    rotateRight fifteen 7 ^^^ rotateRight fifteen 18 ^^^ (fifteen >>> 3)
  let high := rotateRight two 17 ^^^ rotateRight two 19 ^^^ (two >>> 10)
  sixteen + low + seven + high

/-- The schedule after so many more words, with its newest word first. -/
def extendSchedule :
    (count : Nat) →
    (schedule : List UInt32) →
    List UInt32
  | 0, schedule => schedule
  | count + 1, schedule =>
      extendSchedule count (nextWord schedule :: schedule)

/-- The sixty-four words of a block of sixteen words. -/
def schedule (block : List UInt32) : List UInt32 :=
  (extendSchedule 48 block.reverse).reverse

/-- One round with the sum of its constant and its word. -/
def round
    (state : Digest)
    (input : UInt32) :
    Digest :=
  let high :=
    rotateRight state.e 6 ^^^ rotateRight state.e 11 ^^^ rotateRight state.e 25
  let chosen := (state.e &&& state.f) ^^^ (~~~state.e &&& state.g)
  let first := state.h + high + chosen + input
  let low :=
    rotateRight state.a 2 ^^^ rotateRight state.a 13 ^^^ rotateRight state.a 22
  let major :=
    (state.a &&& state.b) ^^^ (state.a &&& state.c) ^^^ (state.b &&& state.c)
  { a := first + (low + major)
    b := state.a
    c := state.b
    d := state.c
    e := state.d + first
    f := state.e
    g := state.f
    h := state.g }

/-- The word-wise sum of two states. -/
def sum (left right : Digest) : Digest :=
  { a := left.a + right.a
    b := left.b + right.b
    c := left.c + right.c
    d := left.d + right.d
    e := left.e + right.e
    f := left.f + right.f
    g := left.g + right.g
    h := left.h + right.h }

/-- The state after a block of sixteen words. -/
def absorb
    (state : Digest)
    (block : List UInt32) :
    Digest :=
  let inputs := List.zipWith (· + ·) roundConstants (schedule block)
  sum state (inputs.foldl round state)

/-- The state after all the words, sixteen at a time. -/
def absorbAll
    (state : Digest)
    (message : List UInt32) :
    Digest :=
  match message with
  | [] => state
  | word :: rest =>
      absorbAll
        (absorb state ((word :: rest).take 16))
        (rest.drop 15)
termination_by message.length
decreasing_by simp only [List.length_drop, List.length_cons]; omega

/-- The digest of a list of bytes. -/
def ofBytes (bytes : List UInt8) : Digest :=
  absorbAll initial (words (pad bytes))

/-- The digest of the UTF-8 bytes of a text. -/
def ofText (text : String) : Digest :=
  ofBytes text.toUTF8.toList

/-- The hexadecimal digits of a word, most significant first. -/
def wordHex (word : UInt32) : List Char :=
  (List.range 8).map fun place =>
    Nat.digitChar ((word.toNat >>> (4 * (7 - place))) % 16)

/-- The sixty-four hexadecimal digits of a digest. -/
def hex (digest : Digest) : String :=
  String.ofList
    ([digest.a, digest.b, digest.c, digest.d, digest.e, digest.f, digest.g,
      digest.h].flatMap wordHex)

end Digest

end IncentivePay
