/-
# SHA-256

The hash of FIPS 180-4 over a list of bytes. A message is padded to blocks of
sixteen words; each block is stretched to sixty-four words, which take the eight
words of the state through as many rounds.
-/

namespace SparqlText.Sha256

/-- The eight words that are carried from block to block. -/
structure State where
  a : UInt32
  b : UInt32
  c : UInt32
  d : UInt32
  e : UInt32
  f : UInt32
  g : UInt32
  h : UInt32
  deriving DecidableEq, Repr

/-- The first state: the fractions of the square roots of the first eight primes. -/
def State.initial : State :=
  ⟨0x6a09e667, 0xbb67ae85, 0x3c6ef372, 0xa54ff53a,
    0x510e527f, 0x9b05688c, 0x1f83d9ab, 0x5be0cd19⟩

/-- One word per round: the fractions of the cube roots of the first sixty-four
primes. -/
def roundConstants : List UInt32 :=
  [0x428a2f98, 0x71374491, 0xb5c0fbcf, 0xe9b5dba5, 0x3956c25b, 0x59f111f1,
    0x923f82a4, 0xab1c5ed5, 0xd807aa98, 0x12835b01, 0x243185be, 0x550c7dc3,
    0x72be5d74, 0x80deb1fe, 0x9bdc06a7, 0xc19bf174, 0xe49b69c1, 0xefbe4786,
    0x0fc19dc6, 0x240ca1cc, 0x2de92c6f, 0x4a7484aa, 0x5cb0a9dc, 0x76f988da,
    0x983e5152, 0xa831c66d, 0xb00327c8, 0xbf597fc7, 0xc6e00bf3, 0xd5a79147,
    0x06ca6351, 0x14292967, 0x27b70a85, 0x2e1b2138, 0x4d2c6dfc, 0x53380d13,
    0x650a7354, 0x766a0abb, 0x81c2c92e, 0x92722c85, 0xa2bfe8a1, 0xa81a664b,
    0xc24b8b70, 0xc76c51a3, 0xd192e819, 0xd6990624, 0xf40e3585, 0x106aa070,
    0x19a4c116, 0x1e376c08, 0x2748774c, 0x34b0bcb5, 0x391c0cb3, 0x4ed8aa4a,
    0x5b9cca4f, 0x682e6ff3, 0x748f82ee, 0x78a5636f, 0x84c87814, 0x8cc70208,
    0x90befffa, 0xa4506ceb, 0xbef9a3f7, 0xc67178f2]

/-- A word turned right by a number of bits below 32. -/
def rotate (word : UInt32) (bits : UInt32) : UInt32 :=
  (word >>> bits) ||| (word <<< (32 - bits))

/-! ## One block -/

/-- The next word of a schedule whose words so far are given last first. -/
def nextWord (latestFirst : List UInt32) : UInt32 :=
  let early := latestFirst.getD 14 0
  let late := latestFirst.getD 1 0
  let first := rotate early 7 ^^^ rotate early 18 ^^^ (early >>> 3)
  let second := rotate late 17 ^^^ rotate late 19 ^^^ (late >>> 10)
  second + latestFirst.getD 6 0 + first + latestFirst.getD 15 0

/-- A schedule, last word first, continued by a number of words. -/
def extended : Nat → List UInt32 → List UInt32
  | 0, words => words
  | count + 1, words => extended count (nextWord words :: words)

/-- The sixty-four words of a block of sixteen. -/
def schedule (block : List UInt32) : List UInt32 :=
  (extended 48 block.reverse).reverse

/-- One round with its constant and its word of the schedule. -/
def round (state : State) (constantAndWord : UInt32 × UInt32) : State :=
  let choice := (state.e &&& state.f) ^^^ (~~~state.e &&& state.g)
  let majority := (state.a &&& state.b) ^^^ (state.a &&& state.c) ^^^ (state.b &&& state.c)
  let upper := rotate state.a 2 ^^^ rotate state.a 13 ^^^ rotate state.a 22
  let lower := rotate state.e 6 ^^^ rotate state.e 11 ^^^ rotate state.e 25
  let mixed := state.h + lower + choice + constantAndWord.1 + constantAndWord.2
  ⟨mixed + upper + majority, state.a, state.b, state.c,
    state.d + mixed, state.e, state.f, state.g⟩

/-- The state after a block: the rounds' result added to the state before them. -/
def absorb (state : State) (block : List UInt32) : State :=
  let mixed := (roundConstants.zip (schedule block)).foldl round state
  ⟨state.a + mixed.a, state.b + mixed.b, state.c + mixed.c, state.d + mixed.d,
    state.e + mixed.e, state.f + mixed.f, state.g + mixed.g, state.h + mixed.h⟩

/-! ## Messages -/

/-- The bytes of a number below 2^64, the highest first. -/
def eightBytes (value : Nat) : List UInt8 :=
  (List.range 8).map fun index => UInt8.ofNat (value / Nat.pow 256 (7 - index))

/-- A message with a one bit, the fewest zeros that complete a block, and the
message's length in bits. -/
def padded (message : List UInt8) : List UInt8 :=
  message ++ 0x80 :: List.replicate ((119 - message.length % 64) % 64) 0
    ++ eightBytes (8 * message.length)

/-- Bytes as words, the highest byte of each first. -/
def words : List UInt8 → List UInt32
  | first :: second :: third :: fourth :: rest =>
      ((first.toUInt32 <<< 24) ||| (second.toUInt32 <<< 16) ||| (third.toUInt32 <<< 8)
        ||| fourth.toUInt32) :: words rest
  | _ => []

/-- Words in blocks of sixteen. -/
def blocks (words : List UInt32) : List (List UInt32) :=
  (List.range (words.length / 16)).map fun index => (words.drop (16 * index)).take 16

/-- The bytes of a word, the highest first. -/
def fourBytes (word : UInt32) : List UInt8 :=
  [(word >>> 24).toUInt8, (word >>> 16).toUInt8, (word >>> 8).toUInt8, word.toUInt8]

/-- The thirty-two bytes of a message's hash. -/
def hash (message : List UInt8) : List UInt8 :=
  let state := (blocks (words (padded message))).foldl absorb State.initial
  [state.a, state.b, state.c, state.d, state.e, state.f, state.g, state.h].flatMap fourBytes

end SparqlText.Sha256
