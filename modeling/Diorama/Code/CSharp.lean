/-
  C#.

  The instantiator stands inside the class that uses it and is disposed of there.
-/
import Diorama.Code.Language

namespace Diorama.Language

/-- A literal of single precision in C#. -/
def cSharpNumber (x : Float32) : String :=
  if x.isNaN then "float.NaN"
  else if x.isInf then
    if Decimal.isNegative x then "float.NegativeInfinity" else "float.PositiveInfinity"
  else digits .plain x ++ "F"

/-- A value made from numbers in C#. -/
def cSharpTuple (type : String) (xs : List Float32) : String :=
  applied ("new " ++ type) (xs.map cSharpNumber)

/-- The spellings of C#. -/
def cSharp : Language where
  name := "C#"
  extension := "cs"
  null := "null"
  number := cSharpNumber
  text := quoted ""
  timeSpan ticks := "TimeSpan.FromTicks(" ++ ticks.repr ++ ")"
  vector2Text v := cSharpTuple "Vector2" v.toList
  vector3Text v := cSharpTuple "Vector3" v.toList
  vector4Text v := cSharpTuple "Vector4" v.toList
  matrix3x2Text m := cSharpTuple "Matrix3x2" m.toList
  matrix4x4Text m := cSharpTuple "Matrix4x4" m.toList
  colorText c := applied "Color.FromArgb" (channels c)
  variableWord := "var"
  reference type := type
  newObject type args := applied ("new " ++ type) args
  newArray type items := "new " ++ type ++ "[] \x7b " ++ arguments items ++ " \x7d"
  memberMark := "."
  staticMark := "."
  addVerb := "Add"
  preamble :=
    ["using Microsoft.Graphics.Canvas.Geometry;",
      "using System;",
      "using System.Numerics;",
      "using Windows.UI;",
      "using Windows.UI.Composition;"]
  nestsInstantiator := true
  classDeclaration name
    | .entry => "public sealed class " ++ name
    | .instantiator => "sealed class " ++ name ++ " : IDisposable"
  classEnd := "\x7d"
  accessLabel _ := none
  accessWord
    | .everyone => "public "
    | .sameModule => "internal "
    | .sameClass => ""
  field type name once := (if once then "readonly " else "") ++ type ++ " " ++ name ++ ";"
  constructor type parameter := "internal " ++ type ++ "(" ++ parameter ++ ")"
  release _ := "public void Dispose()"
  entryBody compositor :=
    ["using (var instantiator = new Instantiator(" ++ compositor ++ "))",
      "\x7b",
      "    return instantiator.CreateRoot();",
      "\x7d"]

end Diorama.Language
