import Chip8.Random.Source

namespace Chip8

/-! The Mersenne twister with 624 words of 32 bits and period 2^19937 - 1. Indices are taken modulo
    the number of words throughout. -/

structure Twister where
  words : Vector UInt32 624
  /-- How many of the words have been given out since the last renewal. -/
  taken : Nat := 624

namespace Twister

def wordAt (words : Vector UInt32 624) (index : Nat) : UInt32 :=
  words[Fin.ofNat 624 index]

def put (words : Vector UInt32 624) (index : Nat) (value : UInt32) : Vector UInt32 624 :=
  words.set (Fin.ofNat 624 index) value

def folded (word : UInt32) : UInt32 :=
  word ^^^ (word >>> 30)

/-- Every word from the one before it. -/
def expand (seed : UInt32) : Vector UInt32 624 :=
  (List.range 623).foldl
    (fun words k =>
      put words (k + 1) (1812433253 * folded (wordAt words k) + UInt32.ofNat (k + 1)))
    (Vector.replicate 624 seed)

/-- The words are gone through in a circle that leaves out word zero, which takes on the value of
    the last word whenever the circle closes. -/
def stir (update : (round index : Nat) → (word before : UInt32) → UInt32) (start rounds : Nat)
    (words : Vector UInt32 624) : Vector UInt32 624 :=
  (List.range rounds).foldl
    (fun words round =>
      let index := (start + round) % 623 + 1
      let before := folded (wordAt words (index - 1))
      let stirred := put words index (update round index (wordAt words index) before)
      if index = 623 then put stirred 0 (wordAt stirred 623) else stirred)
    words

/-- A twister from a key of one or more words. -/
def ofKey (key : List UInt32) : Twister :=
  let key := key.toArray
  let rounds := max 624 key.size
  let mixed :=
    stir (fun round _ word before =>
        let position := round % key.size
        (word ^^^ (before * 1664525)) + key.getD position 0 + UInt32.ofNat position)
      0 rounds (expand 19650218)
  let settled :=
    stir (fun _ index word before => (word ^^^ (before * 1566083941)) - UInt32.ofNat index)
      rounds 623 mixed
  ⟨put settled 0 0x80000000, 624⟩

/-- The 32-bit words of a number, least significant first. -/
def wordsOf (number : Nat) : List UInt32 :=
  if number < 0x100000000 then [UInt32.ofNat number]
  else UInt32.ofNat (number % 0x100000000) :: wordsOf (number / 0x100000000)
termination_by number
decreasing_by exact Nat.div_lt_self (by omega) (by omega)

/-- A seed and its negative give the same twister. -/
def ofSeed (seed : Int) : Twister :=
  ofKey (wordsOf seed.natAbs)

def renew (words : Vector UInt32 624) : Vector UInt32 624 :=
  (List.range 624).foldl
    (fun words k =>
      let joined := (wordAt words k &&& 0x80000000) ||| (wordAt words (k + 1) &&& 0x7FFFFFFF)
      let twist : UInt32 := if joined &&& 1 = 1 then 0x9908B0DF else 0
      put words k (wordAt words (k + 397) ^^^ (joined >>> 1) ^^^ twist))
    words

def temper (word : UInt32) : UInt32 :=
  let word := word ^^^ (word >>> 11)
  let word := word ^^^ ((word <<< 7) &&& 0x9D2C5680)
  let word := word ^^^ ((word <<< 15) &&& 0xEFC60000)
  word ^^^ (word >>> 18)

def next (twister : Twister) : UInt32 × Twister :=
  if twister.taken < 624 then
    (temper (wordAt twister.words twister.taken), { twister with taken := twister.taken + 1 })
  else
    let words := renew twister.words
    (temper (wordAt words 0), ⟨words, 1⟩)

/-- Nine bits are taken until they make a number below 256. Each attempt has an even chance, so
    the bound on their number does not come into play. -/
def drawWithin : Nat → Twister → UInt8 × Twister
  | 0, twister => (0, twister)
  | attempts + 1, twister =>
      let (word, rest) := twister.next
      let value := word >>> 23
      if value < 256 then (value.toUInt8, rest) else drawWithin attempts rest

def draw (twister : Twister) : UInt8 × Twister :=
  drawWithin 65536 twister

instance : ByteSource Twister := ⟨draw⟩

end Twister

end Chip8
