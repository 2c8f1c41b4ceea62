/-
  C++/CX.

  A path is made from an interface that a canvas geometry does not offer in this language, so every
  file carries an adapter class that passes the geometry on.  The instantiator stands before the
  class that uses it.
-/
import Diorama.Code.Language

namespace Diorama.Language

/-- The class that passes on the geometry below a canvas geometry, and the function that wraps
it. -/
def geometryAdapter : List String :=
  ["class GeoSource final :",
    "    public ABI::Windows::Graphics::IGeometrySource2D,",
    "    public ABI::Windows::Graphics::IGeometrySource2DInterop",
    "\x7b",
    "    ULONG _cRef;",
    "    Microsoft::WRL::ComPtr<ID2D1Geometry> _cpGeometry;",
    "",
    "public:",
    "    GeoSource(ID2D1Geometry* pGeometry)",
    "        : _cRef(1)",
    "        , _cpGeometry(pGeometry)",
    "    \x7b \x7d",
    "",
    "    IFACEMETHODIMP QueryInterface(REFIID iid, void** ppvObject) override",
    "    \x7b",
    "        if (iid == __uuidof(ABI::Windows::Graphics::IGeometrySource2DInterop))",
    "        \x7b",
    "            AddRef();",
    "            *ppvObject = (ABI::Windows::Graphics::IGeometrySource2DInterop*) this;",
    "            return S_OK;",
    "        \x7d",
    "        return E_NOINTERFACE;",
    "    \x7d",
    "",
    "    IFACEMETHODIMP_(ULONG) AddRef() override",
    "    \x7b",
    "        return (ULONG)InterlockedIncrement(&_cRef);",
    "    \x7d",
    "",
    "    IFACEMETHODIMP_(ULONG) Release() override",
    "    \x7b",
    "        ULONG cRef = (ULONG)InterlockedDecrement(&_cRef);",
    "        if (0 == cRef)",
    "        \x7b",
    "            delete this;",
    "        \x7d",
    "        return cRef;",
    "    \x7d",
    "",
    "    IFACEMETHODIMP GetIids(ULONG*, IID**) override",
    "    \x7b",
    "        return E_NOTIMPL;",
    "    \x7d",
    "",
    "    IFACEMETHODIMP GetRuntimeClassName(HSTRING*) override",
    "    \x7b",
    "        return E_NOTIMPL;",
    "    \x7d",
    "",
    "    IFACEMETHODIMP GetTrustLevel(TrustLevel*) override",
    "    \x7b",
    "        return E_NOTIMPL;",
    "    \x7d",
    "",
    "    IFACEMETHODIMP GetGeometry(ID2D1Geometry** value) override",
    "    \x7b",
    "        *value = _cpGeometry.Get();",
    "        (*value)->AddRef();",
    "        return S_OK;",
    "    \x7d",
    "",
    "    IFACEMETHODIMP TryGetGeometryUsingFactory(ID2D1Factory*, ID2D1Geometry**) override",
    "    \x7b",
    "        return E_NOTIMPL;",
    "    \x7d",
    "\x7d;",
    "",
    "static Windows::Graphics::IGeometrySource2D^ CanvasGeometryToIGeometrySource2D(CanvasGeometry^ geometry)",
    "\x7b",
    "    Microsoft::WRL::ComPtr<ID2D1Geometry> d2dGeometry;",
    "    Microsoft::WRL::ComPtr<ABI::Microsoft::Graphics::Canvas::ICanvasResourceWrapperNative> native;",
    "    reinterpret_cast<IInspectable*>(geometry)->QueryInterface(IID_PPV_ARGS(&native));",
    "    native->GetNativeResource(nullptr, 0.0F, IID_PPV_ARGS(&d2dGeometry));",
    "    return reinterpret_cast<Windows::Graphics::IGeometrySource2D^>(new GeoSource(d2dGeometry.Get()));",
    "\x7d"]

/-- A literal of single precision in C++/CX. -/
def cppCxNumber (x : Float32) : String :=
  if x.isNaN then "NAN"
  else if x.isInf then if Decimal.isNegative x then "-INFINITY" else "INFINITY"
  else digits { Decimal.Layout.plain with wholeEnd := ".0" } x ++ "F"

/-- A value made from numbers in C++/CX. -/
def cppCxTuple (type : String) (xs : List Float32) : String := applied type (xs.map cppCxNumber)

/-- The spellings of C++/CX. -/
def cppCx : Language where
  name := "C++/CX"
  extension := "cpp"
  null := "nullptr"
  number := cppCxNumber
  integer n :=
    if Int32.minValue.toInt ≤ n ∧ n ≤ Int32.maxValue.toInt then n.repr else n.repr ++ "LL"
  text := quoted "L"
  timeSpan ticks := "TimeSpan\x7b " ++ ticks.repr ++ "LL \x7d"
  vector2Text v := cppCxTuple "float2" v.toList
  vector3Text v := cppCxTuple "float3" v.toList
  vector4Text v := cppCxTuple "float4" v.toList
  matrix3x2Text m := cppCxTuple "float3x2" m.toList
  matrix4x4Text m := cppCxTuple "float4x4" m.toList
  colorText c := applied "ColorHelper::FromArgb" (channels c)
  variableWord := "auto"
  reference type := type ++ "^"
  newObject type args := applied ("ref new " ++ type) args
  newArray type items :=
    "ref new Platform::Array<" ++ type ++ "^>(\x7b " ++ arguments items ++ " \x7d)"
  memberMark := "->"
  staticMark := "::"
  addVerb := "Append"
  geometrySource geometry := "CanvasGeometryToIGeometrySource2D(" ++ geometry ++ ")"
  preamble :=
    ["#include \"pch.h\"",
      "#include <WindowsNumerics.h>",
      "#include <d2d1.h>",
      "#include <d2d1_1.h>",
      "#include <wrl.h>",
      "#include <Windows.Graphics.Interop.h>",
      "#include <Microsoft.Graphics.Canvas.native.h>",
      "",
      "using namespace Microsoft::Graphics::Canvas::Geometry;",
      "using namespace Windows::Foundation;",
      "using namespace Windows::Foundation::Numerics;",
      "using namespace Windows::UI;",
      "using namespace Windows::UI::Composition;",
      "using TimeSpan = ::Windows::Foundation::TimeSpan;"]
  adapter := some geometryAdapter
  nestsInstantiator := false
  classDeclaration name
    | .entry => "public ref class " ++ name ++ " sealed"
    | .instantiator => "class " ++ name ++ " final"
  classEnd := "\x7d;"
  accessLabel
    | .everyone | .sameModule => some "public:"
    | .sameClass => some "private:"
  accessWord _ := ""
  field type name _ := type ++ "^ " ++ name ++ "\x7b nullptr \x7d;"
  constructor type parameter := type ++ "(" ++ parameter ++ ")"
  release type := "~" ++ type ++ "()"
  entryBody compositor :=
    ["Instantiator instantiator(" ++ compositor ++ ");", "return instantiator.CreateRoot();"]

end Diorama.Language
