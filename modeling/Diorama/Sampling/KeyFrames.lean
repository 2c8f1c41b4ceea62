/-
  Values between key frames.

  The progress of an animation runs from 0 to 1 over its duration, again and again.  At a point of
  it the value is that of the first or last key frame if the point is not after the first or not
  before the last one, and otherwise lies between the two key frames around it, a fraction of the
  way (`Span`).  The fraction is eased by the key frame that is approached, and the two values are
  interpolated.

    * `Span.find`      the key frames around a point
    * `bezierEase`     easing along a curve, by bisection
    * `interpolate?`   the value a fraction of the way between two values
-/
import Diorama.Object.Content

namespace Diorama

variable {K : Type} [Scalar K]

/-! ## Spans -/

/-- Two neighbouring key frames by index, or one twice, and how far a point is between them. -/
structure Span (K : Type) where
  lo : Nat
  hi : Nat
  fraction : K

namespace Span

/-- A key frame and the one after it, the first two with the point between them; `i` counts the key
frames before. -/
def between? (u : K) : Nat → List K → Option (Span K)
  | i, p :: q :: rest =>
    if p ≤ u ∧ u ≤ q then
      some ⟨i, i + 1, Scalar.clamp ((u - p) / Scalar.atLeast (q - p) Scalar.epsilon) 0 1⟩
    else between? u (i + 1) (q :: rest)
  | _, _ => none

/-- The key frames around a point, given where each key frame lies. -/
def find (u : K) : List K → Span K
  | first :: second :: rest =>
    let last := rest.length + 1
    if u ≤ first then ⟨0, 0, 0⟩
    else if (second :: rest).getLast (by simp) ≤ u then ⟨last, last, 0⟩
    else (between? u 0 (first :: second :: rest)).getD ⟨last, last, 0⟩
  | _ => ⟨0, 0, 0⟩

end Span

/-! ## Easing -/

/-- The cubic curve from 0 to 1 with two control values. -/
def bezier (p1 p2 t : K) : K :=
  let three := Scalar.ofInt 3
  let u := 1 - t
  three * u * u * t * p1 + three * u * t * t * p2 + t * t * t

/-- Halves the interval from `lo` to `hi` around `mid` until the curve is near `t` there, or as many
times as given. -/
def bisect (curve : K → K) (t : K) : Nat → K → K → K → K
  | 0, _, _, mid => mid
  | n + 1, lo, hi, mid =>
    let x := curve mid
    if Scalar.magnitude (x - t) < Scalar.tolerance then mid
    else if x < t then bisect curve t n mid hi (Scalar.half * (mid + hi))
    else bisect curve t n lo mid (Scalar.half * (lo + mid))

/-- The height of a curve where it has come the distance `t`. -/
def bezierEase (control1 control2 : Vec2 K) (t : K) : K :=
  let t := Scalar.clamp t 0 1
  bezier control1.y control2.y (bisect (bezier control1.x control2.x) t 24 0 1 t)

/-- The largest whole step that a fraction has reached. -/
def stepEase (steps : Int32) (t : K) : K :=
  let n := Scalar.ofInt (max steps.toInt 1)
  Scalar.floor (t * n) / n

/-- A fraction as an easing bends it. -/
def Content.ease (easing : Content K) (t : K) : K :=
  match easing with
  | .cubicBezierEasing control1 control2 => bezierEase control1 control2 t
  | .stepEasing steps _ _ => stepEase (steps.getD 1) t
  | _ => t

/-! ## Values -/

/-- The value, unless it is an expression. -/
def KeyFrameValue.literal? : KeyFrameValue K → Option (KeyFrameValue K)
  | .expression _ => none
  | value => some value

/-- The value a fraction of the way from one to another.  Flags and paths hold until the end, and
expressions have no value of their own. -/
def KeyFrameValue.interpolate? (a b : KeyFrameValue K) (t : K) : Option (KeyFrameValue K) :=
  match a, b with
  | .scalar x, .scalar y => some (.scalar (Scalar.lerp x y t))
  | .vector2 v, .vector2 w => some (.vector2 (v.lerp w t))
  | .vector3 v, .vector3 w => some (.vector3 (v.lerp w t))
  | .vector4 v, .vector4 w => some (.vector4 (v.lerp w t))
  | .color c, .color d => some (.color (c.mix d t))
  | .expression _, _ => none
  | _, .expression _ => none
  | held, next => some (if t < 1 then held else next)

/-- How far an animation has come; it starts again after its duration. -/
def KeyFrameAnimation.progress (a : KeyFrameAnimation K) (time : Int64) : K :=
  if 0 < a.duration then
    Scalar.ofInt (time.toInt % a.duration.toInt) / Scalar.ofInt a.duration.toInt
  else 0

end Diorama
