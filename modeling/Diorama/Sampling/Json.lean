/-
  Samples as JSON.

  An outline is its name with its parts, or the bare name if there is none.
-/
import Diorama.Object.Json
import Diorama.Sampling.Sample

namespace Diorama

def OutlineSample.toJson : OutlineSample Float32 → Json
  | .none => .text "None"
  | .ellipse center radius =>
    .object [("Ellipse", .object [("center", center.toJson), ("radius", radius.toJson)])]
  | .rectangle offset size =>
    .object [("Rectangle", .object [("offset", offset.toJson), ("size", size.toJson)])]
  | .roundedRectangle offset size cornerRadius =>
    .object [("RoundedRectangle", .object [("offset", offset.toJson), ("size", size.toJson),
      ("corner_radius", cornerRadius.toJson)])]
  | .path fillMode figures =>
    .object [("Path", .object [("fill_mode", .text fillMode.name),
      ("figures", Json.ofList Figure.toJson figures)])]

def TrimSample.toJson (t : TrimSample Float32) : Json :=
  Json.ofList Json.ofSingle [t.start, t.stop, t.offset]

def Sample.toJson (s : Sample Float32) : Json :=
  .object [("transform", s.transform.toJson), ("opacity", Json.ofSingle s.opacity),
    ("geometry", s.geometry.toJson), ("trim", s.trim.toJson),
    ("fill", Json.ofOption Color.toJson s.fill), ("stroke", Json.ofOption Color.toJson s.stroke),
    ("stroke_thickness", Json.ofSingle s.strokeThickness),
    ("expressions", Json.ofList Json.text s.expressions)]

end Diorama
