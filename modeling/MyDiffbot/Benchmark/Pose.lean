import Mathlib.Algebra.Order.Field.Basic
import Mathlib.Algebra.Order.Floor.Ring

/-!
# Planar poses

The pose algebra of `bench.py`, in exact arithmetic over an ordered field, and what `analyze.py` has
of it. The functions of `math` are taken as they are: nothing is assumed of them here.
-/

namespace MyDiffbot.Benchmark

/-- What the tools take from `math`. -/
structure Trig (K : Type*) where
  pi : K
  cos : K → K
  sin : K → K
  atan2 : K → K → K
  hypot : K → K → K

/-- A pose in the plane: position and yaw. -/
structure Pose (K : Type*) where
  x : K
  y : K
  yaw : K
  deriving DecidableEq

/-- An orientation in space. -/
structure Orientation (K : Type*) where
  x : K
  y : K
  z : K
  w : K
  deriving DecidableEq

variable {K : Type*} [Field K]

/-- The `yaw_of` an orientation. -/
def yawOf (trig : Trig K) (q : Orientation K) : K :=
  trig.atan2 (2 * (q.w * q.z + q.x * q.y)) (1 - 2 * (q.y * q.y + q.z * q.z))

def inverse (trig : Trig K) (a : Pose K) : Pose K :=
  let c := trig.cos a.yaw
  let s := trig.sin a.yaw
  ⟨-c * a.x - s * a.y, s * a.x - c * a.y, -a.yaw⟩

/-- `tf_pts`: some points in the frame that `T` is a pose of, from the frame of `T`. -/
def tfPts (trig : Trig K) (p : List (K × K)) (T : Pose K) : List (K × K) :=
  let c := trig.cos T.yaw
  let s := trig.sin T.yaw
  p.map fun point ↦ (point.1 * c + point.2 * -s + T.x, point.1 * s + point.2 * c + T.y)

variable [LinearOrder K] [FloorRing K]

/-- `%` of floats: the remainder has the sign of the divisor. -/
def floorMod (a b : K) : K := a - b * ⌊a / b⌋

def wrap (trig : Trig K) (a : K) : K := floorMod (a + trig.pi) (2 * trig.pi) - trig.pi

def compose (trig : Trig K) (a b : Pose K) : Pose K :=
  let c := trig.cos a.yaw
  let s := trig.sin a.yaw
  ⟨a.x + c * b.x - s * b.y, a.y + s * b.x + c * b.y, wrap trig (a.yaw + b.yaw)⟩

/-- The pose `b` in the frame of `a`. -/
def rel (trig : Trig K) (a b : Pose K) : Pose K := compose trig (inverse trig a) b

namespace Analyze

def wrap (trig : Trig K) (a : K) : K := floorMod (a + trig.pi) (2 * trig.pi) - trig.pi

/-- Pose `b` expressed in the frame of pose `a`. -/
def rel (trig : Trig K) (a b : Pose K) : Pose K :=
  let dx := b.x - a.x
  let dy := b.y - a.y
  let c := trig.cos a.yaw
  let s := trig.sin a.yaw
  ⟨c * dx + s * dy, -s * dx + c * dy, wrap trig (b.yaw - a.yaw)⟩

end Analyze

end MyDiffbot.Benchmark
