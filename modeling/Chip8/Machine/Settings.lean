namespace Chip8

/-! The points on which interpreters for this machine disagree. -/

structure Settings where
  /-- Sprites end at the right and bottom edge. Without it they go on at the opposite edge. -/
  clipSprites : Bool := true
  /-- A left shift leaves the lost bit in the flag as zero or one, and not as zero or 128. -/
  normalizeShiftFlag : Bool := true
  /-- Storing and loading registers moves the index past the last cell. -/
  incrementIndex : Bool := false
  stackDepth : Int := 16
  deriving DecidableEq, Repr

namespace Settings

/-- The fields that an update leaves open keep their values. -/
structure Update where
  clipSprites : Option Bool := none
  normalizeShiftFlag : Option Bool := none
  incrementIndex : Option Bool := none
  stackDepth : Option Int := none
  deriving DecidableEq, Repr

def update (settings : Settings) (change : Update) : Settings where
  clipSprites := change.clipSprites.getD settings.clipSprites
  normalizeShiftFlag := change.normalizeShiftFlag.getD settings.normalizeShiftFlag
  incrementIndex := change.incrementIndex.getD settings.incrementIndex
  stackDepth := change.stackDepth.getD settings.stackDepth

end Settings

end Chip8
