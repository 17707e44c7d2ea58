/-! The Mersenne Twister MT19937, seeded by an integer of any size. -/

namespace Chip8

/-- The 624 words of the recurrence, and the place of the word that is renewed next. -/
structure Twister where
  words : Vector UInt32 624
  cursor : Fin 624
  deriving DecidableEq

namespace Twister

/-- The place a number of words further on in the ring. -/
def ahead (place : Fin 624) (count : Nat) : Fin 624 :=
  ⟨(place.val + count) % 624, by omega⟩

/-- The linear step that fills the ring: the word after another, before a constant is added. -/
def stir (factor word : UInt32) : UInt32 :=
  (word ^^^ (word >>> 30)) * factor

/-- The ring filled from one word. -/
def filled (seed : UInt32) : Vector UInt32 624 :=
  (List.range 623).foldl
    (fun words index =>
      let place : Fin 624 := Fin.ofNat 624 (index + 1)
      let before : Fin 624 := Fin.ofNat 624 index
      words.set place (stir 1812433253 words[before] + UInt32.ofNat (index + 1)))
    (Vector.replicate 624 seed)

/-- A ring under mixing, and the place of the word that is mixed next. -/
abbrev Mixing := Vector UInt32 624 × Fin 624

/-- Stores the mixed word at the place, and passes over the first word, which copies the last. -/
def store (state : Mixing) (word : UInt32) : Mixing :=
  let (words, place) := state
  if place.val < 623 then (words.set place word, ahead place 1)
  else ((words.set place word).set 0 word, 1)

/-- The word at the place, mixed with the word before it. -/
def blend (factor : UInt32) (state : Mixing) : UInt32 :=
  let (words, place) := state
  words[place] ^^^ stir factor words[ahead place 623]

/-- Mixes a key word and its index into the ring. -/
def mixKey (state : Mixing) (index : Nat) (key : UInt32) : Mixing :=
  store state (blend 1664525 state + key + UInt32.ofNat index)

/-- Takes the place away from the word at it. -/
def mixPlace (state : Mixing) : Mixing :=
  store state (blend 1566083941 state - UInt32.ofNat state.2.val)

/-- The ring filled from a list of key words, each of which is used in turn. -/
def filledFrom (keys : List UInt32) : Vector UInt32 624 :=
  let rounds := max 624 keys.length
  let start : Mixing := (filled 19650218, 1)
  let keyed := (List.range rounds).foldl
    (fun state round =>
      let index := round % keys.length
      mixKey state index (keys.getD index 0))
    start
  let mixed := (List.range 623).foldl (fun state _ => mixPlace state) keyed
  -- The top bit of the first word keeps the ring from being all zeros.
  mixed.1.set 0 0x80000000

/-- The words of a number to the base 2³², low word first, with at least one word. -/
def limbs (number : Nat) : List UInt32 :=
  (List.range (number.log2 / 32 + 1)).map fun index => UInt32.ofNat (number >>> (32 * index))

/-- The generator seeded by the absolute value of an integer. -/
def seeded (seed : Int) : Twister :=
  ⟨filledFrom (limbs seed.natAbs), 0⟩

/-- The bit mixing that every word undergoes on its way out. -/
def temper (word : UInt32) : UInt32 :=
  let word := word ^^^ (word >>> 11)
  let word := word ^^^ ((word <<< 7) &&& 0x9D2C5680)
  let word := word ^^^ ((word <<< 15) &&& 0xEFC60000)
  word ^^^ (word >>> 18)

/-- Renews the word at the cursor and puts it out tempered. -/
def next (twister : Twister) : UInt32 × Twister :=
  let ⟨words, cursor⟩ := twister
  let joined := (words[cursor] &&& 0x80000000) ||| (words[ahead cursor 1] &&& 0x7FFFFFFF)
  let twist : UInt32 := if joined &&& 1 = 0 then 0 else 0x9908B0DF
  let renewed := words[ahead cursor 397] ^^^ (joined >>> 1) ^^^ twist
  (temper renewed, ⟨words.set cursor renewed, ahead cursor 1⟩)

end Twister

end Chip8
