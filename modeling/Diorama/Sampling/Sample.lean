/-
  Samples.

  A sample is one visible sprite at one time, with nothing left to look up: where it is on the
  plane, how opaque, which outline it has and how much of it is drawn, and its colours.  The list of
  samples of a scene is its picture; two scenes with equal samples at every time look the same.

  An expression has no value that could be sampled.  It is listed as what it drives and its text.
-/
import Diorama.Object.Content

namespace Diorama

/-- An outline with nothing left to look up. -/
inductive OutlineSample (K : Type) where
  | none
  | ellipse (center radius : Vec2 K)
  | rectangle (offset size : Vec2 K)
  | roundedRectangle (offset size cornerRadius : Vec2 K)
  | path (fillMode : FillMode) (figures : List (Figure K))
deriving BEq

/-- Which part of an outline is drawn. -/
structure TrimSample (K : Type) where
  start : K
  stop : K
  offset : K
deriving BEq

/-- One visible sprite at one time. -/
structure Sample (K : Type) where
  transform : Matrix3x2 K
  opacity : K
  geometry : OutlineSample K
  trim : TrimSample K
  fill : Option Color
  stroke : Option Color
  strokeThickness : K
  expressions : List String

/-- Near in transform and opacity, and equal in everything else. -/
def Sample.isNear {K : Type} [Scalar K] (a b : Sample K) (tolerance : K) : Bool :=
  a.transform.isNear b.transform tolerance
    && decide (Scalar.magnitude (a.opacity - b.opacity) ≤ tolerance)
    && a.geometry == b.geometry
    && a.trim == b.trim
    && a.fill == b.fill
    && a.stroke == b.stroke
    && a.strokeThickness == b.strokeThickness
    && a.expressions == b.expressions

end Diorama
