/-
  The kinds of objects.

  Each kind has a tag, under which scenes are stored and merges are counted, and a label, under
  which messages and generated names speak of it.
-/

namespace Diorama

/-- The kinds of objects in a scene. -/
inductive Kind where
  | containerVisual
  | shapeVisual
  | containerShape
  | spriteShape
  | ellipseGeometry
  | rectangleGeometry
  | roundedRectangleGeometry
  | pathGeometry
  | path
  | geometry
  | colorBrush
  | insetClip
  | geometricClip
  | linearEasing
  | cubicBezierEasing
  | stepEasing
  | keyFrameAnimation
  | expressionAnimation
  | animationController
  | propertySet
  | external
deriving DecidableEq

namespace Kind

/-- Every kind, in the order in which counts are listed. -/
def all : List Kind :=
  [.containerVisual, .shapeVisual, .containerShape, .spriteShape, .ellipseGeometry,
    .rectangleGeometry, .roundedRectangleGeometry, .pathGeometry, .path, .geometry, .colorBrush,
    .insetClip, .geometricClip, .linearEasing, .cubicBezierEasing, .stepEasing,
    .keyFrameAnimation, .expressionAnimation, .animationController, .propertySet, .external]

/-- The name under which objects of the kind are stored. -/
def tag : Kind → String
  | .containerVisual => "ContainerVisual"
  | .shapeVisual => "ShapeVisual"
  | .containerShape => "ContainerShape"
  | .spriteShape => "SpriteShape"
  | .ellipseGeometry => "EllipseGeometry"
  | .rectangleGeometry => "RectangleGeometry"
  | .roundedRectangleGeometry => "RoundedRectangleGeometry"
  | .pathGeometry => "PathGeometry"
  | .path => "Path"
  | .geometry => "Geometry2d"
  | .colorBrush => "ColorBrush"
  | .insetClip => "InsetClip"
  | .geometricClip => "GeometricClip"
  | .linearEasing => "LinearEasing"
  | .cubicBezierEasing => "CubicBezierEasing"
  | .stepEasing => "StepEasing"
  | .keyFrameAnimation => "KeyFrameAnimation"
  | .expressionAnimation => "ExpressionAnimation"
  | .animationController => "AnimationController"
  | .propertySet => "PropertySet"
  | .external => "External"

/-- The name under which messages and generated code speak of the kind. -/
def label : Kind → String
  | .geometry => "Geometry"
  | .linearEasing => "LinearEasingFunction"
  | .cubicBezierEasing => "CubicBezierEasingFunction"
  | .stepEasing => "StepEasingFunction"
  | kind => kind.tag

end Kind
end Diorama
