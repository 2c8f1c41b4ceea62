/-
  The text of a generated file.

  A file has a comment, the preamble of its language, and a namespace with two classes: the
  instantiator with a method for every object, and the class that hands out the visual.
-/
import Diorama.Code.Instantiator
import Diorama.Code.Page
import Diorama.Code.Settings
import Diorama.Optimizer.Optimize

namespace Diorama

/-! ## Methods in a language -/

/-- A method with its statements spelled in some language. -/
structure WrittenMethod where
  object : ObjectId
  name : String
  typeName : String
  isCached : Bool
  statements : List String
  description : Option String

/-- A method in a language. -/
def Method.write (lang : Language) (m : Method) : WrittenMethod where
  object := m.object
  name := m.name
  typeName := m.typeName
  isCached := m.isCached
  statements := m.statements.map lang.statement
  description := m.description

/-! ## Parts of a page -/

namespace Page

/-- Adds a text as comment lines. -/
def comments (page : Page) (lang : Language) (text : String) : Page :=
  page.addLines ((textLines text).map lang.commentLine)

/-- Adds a block in braces. -/
def block (page : Page) (lang : Language) (inside : Page → Page) : Page :=
  (inside (page.enter lang.opening)).leave lang.closing

/-- Adds the label of an access group where the language has such labels. -/
def accessLabel (page : Page) (lang : Language) (access : Access) : Page :=
  (lang.accessLabel access).elim page page.label

end Page

namespace Language

/-- The name of the class that makes the objects. -/
def instantiatorName : String := "Instantiator"

/-! ## The instantiator -/

/-- The lines that return an object that has been made already. -/
def returnCached (lang : Language) (m : Method) (page : Page) : Page :=
  m.field?.elim page fun field =>
    (page.line ("if (" ++ field ++ " != " ++ lang.null ++ ")")).block lang fun page =>
      page.line ("return " ++ field ++ ";")

/-- A method with its description. -/
def methodLines (lang : Language) (page : Page) (m : Method) : Page :=
  let described := m.description.elim page.blank (page.blank.comments lang)
  (described.line (lang.method m.typeName m.name)).block lang fun page =>
    ((lang.returnCached m page).addLines (m.write lang).statements).line
      ("return " ++ resultName ++ ";")

/-- The class that makes the objects. -/
def instantiatorLines (lang : Language) (i : Instantiator) (page : Page) : Page :=
  let cached := i.methods.filter (·.isCached)
  let page := page.line (lang.classDeclaration instantiatorName .instantiator)
    |>.enter lang.opening
    |>.line (lang.field "Compositor" compositorName true)
    |>.addLines (cached.map fun m => lang.field m.typeName (fieldName m.name) false)
    |>.blank
    |>.accessLabel lang .everyone
    |>.line (lang.constructor instantiatorName (lang.parameter "Compositor" "compositor"))
    |>.block lang (·.line (compositorName ++ " = compositor;"))
    |>.blank
    |>.line (lang.release instantiatorName)
    |>.block lang (·.addLines (cached.map fun m => fieldName m.name ++ " = " ++ lang.null ++ ";"))
    |>.blank
    |>.line (lang.accessWord .sameModule ++ lang.reference "Visual" ++ " CreateRoot()")
    |>.block lang (·.line ("return " ++ i.root ++ "();"))
  let page := if (lang.accessLabel .sameClass).isSome then page.blank else page
  (i.methods.foldl lang.methodLines (page.accessLabel lang .sameClass)).leave lang.classEnd

/-! ## The file -/

/-- The text of the file that makes a scene. -/
def source (lang : Language) (settings : CodeSettings) (i : Instantiator) : String :=
  let header := settings.headerComment.elim ({} : Page) fun text =>
    (Page.comments {} lang text).blank
  let page := header.addLines lang.preamble
    |>.blank
    |>.line (lang.namespaceHead settings.namespaceName)
    |>.enter lang.opening
  let page := lang.adapter.elim page fun lines => (page.addLines lines).blank
  let page := if lang.nestsInstantiator then page else (lang.instantiatorLines i page).blank
  let page := page.line (lang.classDeclaration settings.className .entry)
    |>.enter lang.opening
    |>.accessLabel lang .everyone
    |>.line (lang.accessWord .everyone ++ "static " ++ lang.reference "Visual" ++ " TryCreate(" ++
      lang.parameter "Compositor" "compositor" ++ ")")
    |>.block lang (·.addLines (lang.entryBody "compositor"))
  let page := if lang.nestsInstantiator then lang.instantiatorLines i page.blank else page
  ((page.leave lang.classEnd).leave lang.closing).text

end Language

/-! ## Generated code -/

/-- A generated file and the methods in it. -/
structure GeneratedCode where
  language : Language
  instantiator : Instantiator
  text : String

/-- The methods of generated code as they are written. -/
def GeneratedCode.written (code : GeneratedCode) : List WrittenMethod :=
  code.instantiator.methods.map (Method.write code.language)

/-- Code that makes a scene, with the given names. -/
def Scene.emit (s : Scene Float32) (names : Names) (settings : CodeSettings) (lang : Language) :
    Except SceneError GeneratedCode := do
  let i ← Instantiator.ofScene s names
  return ⟨lang, i, lang.source settings i⟩

/-- Code that makes an optimized scene. -/
def Scene.generate (s : Scene Float32) (optimizer : OptimizerSettings) (settings : CodeSettings)
    (lang : Language) : Except SceneError GeneratedCode := do
  let optimized ← s.optimize optimizer
  optimized.scene.emit (Names.ofScene optimized.scene) settings lang

end Diorama
