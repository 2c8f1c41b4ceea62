/-
  A gallery of scenes to try things on.

  Each scene is kept as the text of its file, line by line, with a name and, mostly, a description.
-/
import Diorama.Scene.Json

namespace Diorama

/-- A scene of the gallery. -/
structure Exhibit where
  name : String
  description : Option String := none
  lines : List String

namespace Exhibit

/-- The text of the scene's file. -/
def text (e : Exhibit) : String := String.join (e.lines.map (· ++ "\n"))

/-- The scene itself. -/
def load (e : Exhibit) : Except JsonFault (Scene Float32) := Scene.ofText e.text

end Exhibit

namespace Gallery

/-- Something of everything. -/
def animatedScene : Exhibit where
  name := "animated-scene"
  description := some "Rotating container, animated brushes, path geometry and an expression."
  lines :=
    ["\x7b",
      "  \"root\": 0,",
      "  \"objects\": [",
      "    \x7b \"type\": \"ShapeVisual\", \"visual\": \x7b \"size\": [100.0, 100.0] \x7d, \"shapes\": [1, 9] \x7d,",
      "    \x7b",
      "      \"type\": \"ContainerShape\",",
      "      \"meta\": \x7b",
      "        \"comment\": \"spinner\",",
      "        \"animators\": [\x7b \"target\": \"RotationAngleInDegrees\", \"animation\": 2, \"controller\": 3 \x7d]",
      "      \x7d,",
      "      \"shape\": \x7b \"center_point\": [50.0, 50.0], \"offset\": [0.0, 10.0] \x7d,",
      "      \"shapes\": [4]",
      "    \x7d,",
      "    \x7b",
      "      \"type\": \"KeyFrameAnimation\",",
      "      \"kind\": \"Scalar\",",
      "      \"duration_ticks\": 20000000,",
      "      \"key_frames\": [",
      "        \x7b \"progress\": 0.0, \"value\": \x7b \"type\": \"Scalar\", \"data\": 0.0 \x7d \x7d,",
      "        \x7b \"progress\": 1.0, \"value\": \x7b \"type\": \"Scalar\", \"data\": 360.0 \x7d, \"easing\": 5 \x7d",
      "      ]",
      "    \x7d,",
      "    \x7b \"type\": \"AnimationController\", \"paused\": true \x7d,",
      "    \x7b \"type\": \"SpriteShape\", \"geometry\": 6, \"fill_brush\": 7 \x7d,",
      "    \x7b \"type\": \"CubicBezierEasing\", \"control_point1\": [0.42, 0.0], \"control_point2\": [0.58, 1.0] \x7d,",
      "    \x7b \"type\": \"PathGeometry\", \"trim\": \x7b \"trim_end\": 0.75 \x7d, \"path\": 10 \x7d,",
      "    \x7b",
      "      \"type\": \"ColorBrush\",",
      "      \"meta\": \x7b \"animators\": [\x7b \"target\": \"Color\", \"animation\": 8 \x7d] \x7d,",
      "      \"color\": \x7b \"a\": 255, \"r\": 255, \"g\": 0, \"b\": 0 \x7d",
      "    \x7d,",
      "    \x7b",
      "      \"type\": \"KeyFrameAnimation\",",
      "      \"kind\": \"Color\",",
      "      \"duration_ticks\": 10000000,",
      "      \"key_frames\": [",
      "        \x7b \"progress\": 0.0, \"value\": \x7b \"type\": \"Color\", \"data\": \x7b \"a\": 255, \"r\": 255, \"g\": 0, \"b\": 0 \x7d \x7d \x7d,",
      "        \x7b \"progress\": 1.0, \"value\": \x7b \"type\": \"Color\", \"data\": \x7b \"a\": 255, \"r\": 0, \"g\": 0, \"b\": 255 \x7d \x7d, \"easing\": 13 \x7d",
      "      ]",
      "    \x7d,",
      "    \x7b",
      "      \"type\": \"SpriteShape\",",
      "      \"meta\": \x7b \"animators\": [\x7b \"target\": \"Offset\", \"animation\": 14 \x7d] \x7d,",
      "      \"geometry\": 11,",
      "      \"fill_brush\": 12",
      "    \x7d,",
      "    \x7b \"type\": \"Path\", \"source\": 15 \x7d,",
      "    \x7b \"type\": \"EllipseGeometry\", \"radius\": [8.0, 8.0], \"trim\": \x7b \"trim_end\": 0.5 \x7d \x7d,",
      "    \x7b",
      "      \"type\": \"ColorBrush\",",
      "      \"meta\": \x7b \"animators\": [\x7b \"target\": \"Color\", \"animation\": 16 \x7d] \x7d,",
      "      \"color\": \x7b \"a\": 255, \"r\": 255, \"g\": 0, \"b\": 0 \x7d",
      "    \x7d,",
      "    \x7b \"type\": \"LinearEasing\" \x7d,",
      "    \x7b",
      "      \"type\": \"ExpressionAnimation\",",
      "      \"expression\": \"Vector2(props.Progress * 100, 0)\",",
      "      \"reference_parameters\": [\x7b \"name\": \"props\", \"object\": 18 \x7d]",
      "    \x7d,",
      "    \x7b \"type\": \"Geometry2d\", \"content\": \x7b \"type\": \"Group\", \"geometries\": [17, 19] \x7d \x7d,",
      "    \x7b",
      "      \"type\": \"KeyFrameAnimation\",",
      "      \"kind\": \"Color\",",
      "      \"duration_ticks\": 10000000,",
      "      \"key_frames\": [",
      "        \x7b \"progress\": 0.0, \"value\": \x7b \"type\": \"Color\", \"data\": \x7b \"a\": 255, \"r\": 255, \"g\": 0, \"b\": 0 \x7d \x7d \x7d,",
      "        \x7b \"progress\": 1.0, \"value\": \x7b \"type\": \"Color\", \"data\": \x7b \"a\": 255, \"r\": 0, \"g\": 0, \"b\": 255 \x7d \x7d, \"easing\": 20 \x7d",
      "      ]",
      "    \x7d,",
      "    \x7b",
      "      \"type\": \"Geometry2d\",",
      "      \"content\": \x7b",
      "        \"type\": \"Path\",",
      "        \"figures\": [",
      "          \x7b",
      "            \"start\": [0.0, 0.0],",
      "            \"segments\": [",
      "              \x7b \"type\": \"Line\", \"to\": [10.0, 0.0] \x7d,",
      "              \x7b \"type\": \"Cubic\", \"control1\": [10.0, 5.0], \"control2\": [5.0, 10.0], \"to\": [0.0, 10.0] \x7d",
      "            ],",
      "            \"closed\": true",
      "          \x7d",
      "        ]",
      "      \x7d",
      "    \x7d,",
      "    \x7b \"type\": \"PropertySet\", \"meta\": \x7b \"properties\": \x7b \"Progress\": \x7b \"type\": \"Scalar\", \"data\": 0.25 \x7d \x7d \x7d \x7d,",
      "    \x7b",
      "      \"type\": \"Geometry2d\",",
      "      \"content\": \x7b \"type\": \"Transformed\", \"source\": 17, \"matrix\": [1.0, 0.0, 0.0, 1.0, 20.0, 0.0] \x7d",
      "    \x7d,",
      "    \x7b \"type\": \"LinearEasing\" \x7d",
      "  ]",
      "\x7d"]

/-- Properties that are set to their default values. -/
def defaultsOnly : Exhibit where
  name := "defaults-only"
  lines :=
    ["\x7b",
      "  \"root\": 0,",
      "  \"objects\": [",
      "    \x7b",
      "      \"type\": \"ShapeVisual\",",
      "      \"visual\": \x7b \"offset\": [0.0, 0.0, 0.0], \"scale\": [1.0, 1.0, 1.0], \"opacity\": 1.0, \"is_visible\": true \x7d,",
      "      \"shapes\": [1]",
      "    \x7d,",
      "    \x7b",
      "      \"type\": \"SpriteShape\",",
      "      \"shape\": \x7b \"offset\": [0.0, 0.0], \"scale\": [1.0, 1.0], \"rotation_angle_degrees\": 0.0 \x7d,",
      "      \"geometry\": 2,",
      "      \"stroke\": \x7b \"thickness\": 1.0, \"miter_limit\": 1.0, \"start_cap\": \"Flat\", \"line_join\": \"Miter\" \x7d",
      "    \x7d,",
      "    \x7b",
      "      \"type\": \"EllipseGeometry\",",
      "      \"center\": [0.0, 0.0],",
      "      \"radius\": [0.0, 0.0],",
      "      \"trim\": \x7b \"trim_start\": 0.0, \"trim_end\": 1.0, \"trim_offset\": 0.0 \x7d",
      "    \x7d",
      "  ]",
      "\x7d"]

/-- Containers that can be dropped, folded or spliced. -/
def nestedContainers : Exhibit where
  name := "nested-containers"
  description := some "Dead, empty and transform-only containers around three sprites."
  lines :=
    ["\x7b",
      "  \"root\": 0,",
      "  \"objects\": [",
      "    \x7b \"type\": \"ContainerVisual\", \"children\": [1] \x7d,",
      "    \x7b \"type\": \"ContainerVisual\", \"children\": [2] \x7d,",
      "    \x7b \"type\": \"ShapeVisual\", \"visual\": \x7b \"size\": [64.0, 64.0] \x7d, \"shapes\": [3, 5, 8] \x7d,",
      "    \x7b \"type\": \"ContainerShape\", \"shapes\": [4] \x7d,",
      "    \x7b \"type\": \"ContainerShape\", \"shapes\": [] \x7d,",
      "    \x7b \"type\": \"ContainerShape\", \"shape\": \x7b \"offset\": [5.0, 5.0] \x7d, \"shapes\": [6, 7] \x7d,",
      "    \x7b \"type\": \"SpriteShape\", \"geometry\": 9, \"fill_brush\": 10 \x7d,",
      "    \x7b \"type\": \"SpriteShape\", \"geometry\": 9, \"stroke_brush\": 10, \"stroke\": \x7b \"thickness\": 2.0 \x7d \x7d,",
      "    \x7b",
      "      \"type\": \"SpriteShape\",",
      "      \"shape\": \x7b \"center_point\": [5.0, 5.0], \"scale\": [2.0, 2.0] \x7d,",
      "      \"geometry\": 11,",
      "      \"fill_brush\": 10",
      "    \x7d,",
      "    \x7b \"type\": \"RectangleGeometry\", \"size\": [10.0, 10.0] \x7d,",
      "    \x7b \"type\": \"ColorBrush\", \"color\": \x7b \"a\": 255, \"r\": 0, \"g\": 0, \"b\": 255 \x7d \x7d,",
      "    \x7b \"type\": \"RoundedRectangleGeometry\", \"size\": [4.0, 4.0], \"corner_radius\": [1.0, 1.0] \x7d",
      "  ]",
      "\x7d"]

/-- Sprites that can share what they are drawn with. -/
def sharedBrushes : Exhibit where
  name := "shared-brushes"
  description := some "Three sprites drawing equal ellipses with equal red brushes."
  lines :=
    ["\x7b",
      "  \"root\": 0,",
      "  \"objects\": [",
      "    \x7b \"type\": \"ShapeVisual\", \"visual\": \x7b \"size\": [100.0, 100.0] \x7d, \"shapes\": [1, 4, 7] \x7d,",
      "    \x7b \"type\": \"SpriteShape\", \"geometry\": 2, \"fill_brush\": 3 \x7d,",
      "    \x7b \"type\": \"EllipseGeometry\", \"radius\": [10.0, 10.0] \x7d,",
      "    \x7b \"type\": \"ColorBrush\", \"color\": \x7b \"a\": 255, \"r\": 255, \"g\": 0, \"b\": 0 \x7d \x7d,",
      "    \x7b \"type\": \"SpriteShape\", \"shape\": \x7b \"offset\": [20.0, 0.0] \x7d, \"geometry\": 5, \"fill_brush\": 3 \x7d,",
      "    \x7b \"type\": \"EllipseGeometry\", \"radius\": [10.0, 10.0] \x7d,",
      "    \x7b \"type\": \"ColorBrush\", \"color\": \x7b \"a\": 255, \"r\": 255, \"g\": 0, \"b\": 0 \x7d \x7d,",
      "    \x7b \"type\": \"SpriteShape\", \"shape\": \x7b \"offset\": [40.0, 0.0] \x7d, \"geometry\": 2, \"fill_brush\": 6 \x7d",
      "  ]",
      "\x7d"]

/-- All scenes of the gallery, by name. -/
def all : List Exhibit := [animatedScene, defaultsOnly, nestedContainers, sharedBrushes]

/-- The names of all scenes. -/
def names : List String := all.map (·.name)

/-- The scene of a name. -/
def find? (name : String) : Option Exhibit := all.find? fun e => e.name = name

/-- The answer to a name that the gallery does not have. -/
def unknownMessage (name : String) : String := "unknown scene fixture '" ++ name ++ "'"

end Gallery
end Diorama
