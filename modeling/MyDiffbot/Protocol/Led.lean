import MyDiffbot.Protocol.Crc16
import MyDiffbot.Numeric.Double

/-!
# The LED commands

`ResolveLed` of `binary_protocol.hpp`. Blink and alternate are flipped on the host, so only off and
solid frames reach the firmware. The number of half periods is converted to an `int64_t` as it is,
and where it does not fit one `ResolveLed` is undefined.
-/

namespace MyDiffbot.Protocol

open Numeric

def kLedOff : ℤ := 0

def kLedSolid : ℤ := 1

def kLedBlink : ℤ := 2

def kLedAlternate : ℤ := 3

structure LedOutput where
  r : Byte
  g : Byte
  b : Byte
  fwMode : Byte
  deriving DecidableEq, Repr

/-- The argument of the conversion that counts half periods. -/
def ledPhase (periodMs tSec : ℚ) : ℚ := tSec * 1000 / periodMs

/-- Whether the half period at time `tSec` is an odd one; `none` where the count of half periods
does not fit. -/
def oddHalf (periodMs tSec : ℚ) : Option Bool :=
  ((Double.finite (ledPhase periodMs tSec)).castTo int64).map fun count ↦ decide (count.tmod 2 = 1)

/-- The solid frame of a color. -/
def solidFrame (color : ℕ) : LedOutput :=
  ⟨BitVec.ofNat 8 (color / 2 ^ 16), BitVec.ofNat 8 (color / 2 ^ 8), BitVec.ofNat 8 color,
    BitVec.ofInt 8 kLedSolid⟩

/-- `ResolveLed`: one frame for the led commands at time `tSec`, if the mode is a known one; `none`
where it is undefined. -/
def resolveLed (mode : ℤ) (color colorAlt : ℕ) (periodMs tSec : ℚ) : Option (Option LedOutput) :=
  if mode = kLedOff then some (some ⟨0, 0, 0, BitVec.ofInt 8 kLedOff⟩)
  else if mode < kLedOff ∨ kLedAlternate < mode then some none
  else
    let colorAlt := if mode = kLedBlink then 0 else colorAlt
    let flipped? := if mode ≠ kLedSolid ∧ 0 < periodMs then oddHalf periodMs tSec else some false
    flipped?.map fun flipped ↦ some (solidFrame (if flipped then colorAlt else color))

end MyDiffbot.Protocol
