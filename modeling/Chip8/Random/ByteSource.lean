import Chip8.Random.Twister
import Chip8.Word

/-! The source of random bytes: a seeded generator, or a script of given bytes. -/

namespace Chip8

/-- Where random bytes come from. -/
inductive ByteSource where
  /-- The high bytes of a generator's words. -/
  | twister (generator : Twister)
  /-- The given bytes in order, and zeros after them. -/
  | script (bytes : List Byte)
  deriving DecidableEq

namespace ByteSource

/-- The source that a seed stands for. -/
def seeded (seed : Int) : ByteSource :=
  .twister (.seeded seed)

/-- The next byte, and the source after it. -/
def draw : ByteSource → Byte × ByteSource
  | .twister generator =>
    let (word, rest) := generator.next
    (Byte.ofInt (word >>> 24).toNat, .twister rest)
  | .script [] => (0, .script [])
  | .script (byte :: rest) => (byte, .script rest)

end ByteSource

end Chip8
