/-
  What can be read off statements.

  A statement is looked at from four sides: the calls in it and the names they go by
  (`Statement.named`), the words that the library itself puts there (`Statement.words`), the texts
  of the scene that it gives as literals (`Statement.texts`), and whether it creates the object
  (`Statement.isPlain`).

  Each side has its counterpart in the scene.  Calls go to what stands in the slots of an object,
  but for slots for controllers (`Object.callees`), and literals are the texts of an object that
  code has a use for (`Scene.literals`).
-/
import Mathlib
import Diorama.Code.Body
import Diorama.Proofs.Stillness

namespace Diorama

/-! ## Slots that are called -/

/-- Whether the method of an object calls what stands in a slot. -/
def Slot.isCalled : Slot → Bool
  | .controller _ => false
  | _ => true

namespace Reference

/-- What stands in the slots that are called. -/
def called (rs : List Reference) : List ObjectId :=
  (rs.filter (·.slot.isCalled)).map (·.target)

theorem called_append (rs rs' : List Reference) : called (rs ++ rs') = called rs ++ called rs' := by
  simp only [called, List.filter_append, List.map_append]

/-- A slot that may be empty. -/
theorem called_one {slot : Slot} (h : slot.isCalled = true) (id : Option ObjectId) :
    called (one slot id) = id.toList := by
  cases id with
  | none => rfl
  | some a => simp [called, one, h]

/-- A row of slots. -/
theorem called_many {slot : Nat → Slot} (h : ∀ i, (slot i).isCalled = true) (ids : List ObjectId) :
    called (many slot ids) = ids := by
  have hall : (many slot ids).filter (·.slot.isCalled) = many slot ids := by
    refine List.filter_eq_self.mpr fun r hr => ?_
    obtain ⟨⟨a, i⟩, -, rfl⟩ := List.mem_map.mp hr
    exact h i
  rw [called, hall, map_target_many]

/-- Numbering makes no difference to what is called. -/
theorem called_numbered {α : Type} (refs : α → Nat → List Reference) (ids : α → List ObjectId)
    (h : ∀ a i, called (refs a i) = ids a) (l : List α) (start : Nat) :
    called ((l.zipIdx start).flatMap fun (a, i) => refs a i) = l.flatMap ids := by
  induction l generalizing start with
  | nil => rfl
  | cons a l ih => rw [List.zipIdx_cons, List.flatMap_cons, called_append, h, ih, List.flatMap_cons]

end Reference

/-- The object that the value of a key frame refers to. -/
def KeyFrameValue.callees {K : Type} : KeyFrameValue K → List ObjectId
  | .path id => [id]
  | _ => []

/-- A key frame calls its value and its easing. -/
theorem Reference.called_ofKeyFrame {K : Type} (frame : KeyFrame K) (i : Nat) :
    called (ofKeyFrame frame i) = frame.value.callees ++ frame.easing.toList := by
  obtain ⟨progress, value, easing⟩ := frame
  rw [ofKeyFrame, called_append, called_one rfl]
  cases value <;> rfl

/-- The objects whose methods the method of an object calls, in order. -/
def Object.callees {K : Type} (o : Object K) : List ObjectId := Reference.called o.references

/-- The slots of the content come first, then the animations of the animators. -/
theorem Object.callees_eq {K : Type} (o : Object K) : o.callees =
    Reference.called o.content.references ++ o.attached.animators.map (·.animation) := by
  have hanimators : Reference.called o.animatorReferences =
      o.attached.animators.map (·.animation) := by
    rw [← List.flatMap_pure_eq_map]
    refine Reference.called_numbered Reference.ofAnimator (fun a => [a.animation]) ?_ _ 0
    rintro ⟨target, animation, controller⟩ i
    cases controller <;> rfl
  rw [callees, references, Reference.called_append, hanimators]

/-! ## Texts of a scene -/

/-- The text of a key frame whose value is an expression. -/
def KeyFrameValue.texts {K : Type} : KeyFrameValue K → List String
  | .expression text => [text]
  | _ => []

/-- The texts of a content that code gives as literals. -/
def Content.texts {K : Type} : Content K → List String
  | .keyFrameAnimation a => a.target.toList ++ a.frames.flatMap (·.value.texts)
  | .expressionAnimation a => a.expression :: a.target.toList ++ a.parameters.map (·.name)
  | _ => []

namespace Scene

/-- Whether an animator has a controller that is paused. -/
def isPaused {K : Type} (s : Scene K) (a : Animator) : Bool :=
  match a.controller.bind s.get? with
  | some ⟨_, .animationController paused⟩ => paused
  | _ => false

/-- The target of an animator, once more if its controller has to be found. -/
def cues {K : Type} (s : Scene K) (a : Animator) : List String :=
  a.target :: if s.isPaused a then [a.target] else []

/-- The texts of an object that code gives as literals. -/
def literals {K : Type} (s : Scene K) (o : Object K) : List String :=
  o.content.texts ++ (o.attached.comment.toList ++ o.attached.properties.entries.map (·.1) ++
    o.attached.animators.flatMap s.cues)

end Scene

/-! ## Names -/

namespace Names

/-- What an object is called; nothing if it has no name. -/
def nameOf (names : Names) (id : ObjectId) : String := (names.get? id).getD ""

/-- All of these objects have names. -/
def Covers (names : Names) (ids : List ObjectId) : Prop :=
  ∀ id ∈ ids, ∃ name, names.get? id = some name

theorem get?_of_name {names : Names} {id : ObjectId} {name : String}
    (h : names.name id = .ok name) : names.get? id = some name := by
  unfold Names.name at h
  split at h
  · rename_i hget
    cases h
    exact hget
  · cases h

namespace Covers

variable {names : Names} {ids ids' : List ObjectId} {id : ObjectId}

theorem of_append (h : names.Covers (ids ++ ids')) : names.Covers ids ∧ names.Covers ids' :=
  List.forall_mem_append.mp h

theorem append (h : names.Covers ids) (h' : names.Covers ids') : names.Covers (ids ++ ids') :=
  List.forall_mem_append.mpr ⟨h, h'⟩

/-- Covered objects have names that can be asked for. -/
theorem name (h : names.Covers ids) (hid : id ∈ ids) : names.name id = .ok (names.nameOf id) := by
  obtain ⟨name, hname⟩ := h id hid
  rw [Names.name, nameOf, hname]
  rfl

end Covers
end Names

/-! ## Calls under other names -/

/-- The call of the method that makes an object, under the names that objects have. -/
def Call.under (name : ObjectId → String) (id : ObjectId) : Call := ⟨id, name id⟩

/-- A call under the names that objects have now. -/
def Call.named (name : ObjectId → String) (c : Call) : Call := { c with method := name c.object }

/-- An argument with its call under the name given to the object. -/
def Argument.named (name : ObjectId → String) : Argument → Argument
  | .call c => .call (c.named name)
  | argument => argument

/-- A creation with its calls under the names given to the objects. -/
def Creation.named (name : ObjectId → String) : Creation → Creation
  | .compositor method args => .compositor method (args.map (·.named name))
  | .path source => .path (source.map (·.named name))
  | .built => .built
  | .group geometries fillMode => .group (geometries.map (·.named name)) fillMode
  | .transformed source matrix => .transformed (source.named name) matrix

/-- A statement with its calls under the names that objects have now. -/
def Statement.named (name : ObjectId → String) : Statement → Statement
  | .build method args => .build method (args.map (·.named name))
  | .create field creation => .create field (creation.named name)
  | .set property value => .set property (value.named name)
  | .append collection value => .append collection (value.named name)
  | .invoke part method args => .invoke part method (args.map (·.named name))
  | statement => statement

/-- A body with its calls under the names that objects have now. -/
def Body.named (name : ObjectId → String) (b : Body) : Body where
  typeName := b.typeName
  before := b.before.map (·.named name)
  creation := b.creation.named name
  after := b.after.map (·.named name)

/-- Only a call has a name in it. -/
theorem Argument.named_of_calls_nil {a : Argument} (h : a.calls = []) (name : ObjectId → String) :
    a.named name = a := by
  cases a with
  | call c => cases h
  | _ => rfl

/-- Arguments without calls stay as they are under new names. -/
theorem Argument.map_named_of_calls_nil {args : List Argument} (h : args.flatMap calls = [])
    (name : ObjectId → String) : args.map (·.named name) = args := by
  have hall : ∀ a ∈ args, a.named name = a := fun a ha =>
    named_of_calls_nil (List.flatMap_eq_nil_iff.mp h a ha) name
  exact (List.map_congr_left hall).trans (List.map_id' args)

/-- A creation without calls stays as it is under new names. -/
theorem Creation.named_of_calls_nil {creation : Creation} (h : creation.calls = [])
    (name : ObjectId → String) : creation.named name = creation := by
  cases creation with
  | compositor method args => exact congrArg _ (Argument.map_named_of_calls_nil h name)
  | path source =>
    cases source with
    | none => rfl
    | some c => cases h
  | built => rfl
  | group geometries fillMode =>
    obtain rfl : geometries = [] := h
    rfl
  | transformed source matrix => cases h

/-- A statement that calls nothing is the same under all names. -/
theorem Statement.named_of_calls_nil {line : Statement} (h : line.calls = [])
    (name : ObjectId → String) : line.named name = line := by
  cases line with
  | build method args => exact congrArg _ (Argument.map_named_of_calls_nil h name)
  | create field creation => exact congrArg _ (Creation.named_of_calls_nil h name)
  | set property value => exact congrArg _ (Argument.named_of_calls_nil h name)
  | append collection value => exact congrArg _ (Argument.named_of_calls_nil h name)
  | invoke part method args => exact congrArg _ (Argument.map_named_of_calls_nil h name)
  | _ => rfl

/-! ## Words -/

/-- Whether a character is printable and of the first block. -/
def isInk (c : Char) : Bool := ' ' ≤ c && c ≤ '~'

/-- Whether all characters of a text are printable and of the first block. -/
def isPrintable (text : String) : Bool := text.toList.all isInk

/-- The names in an argument that are not of objects. -/
def Argument.words : Argument → List String
  | .choice type member => [type, member]
  | _ => []

/-- The names in a creation that are not of objects. -/
def Creation.words : Creation → List String
  | .compositor method args => method :: args.flatMap Argument.words
  | _ => []

/-- The names of fields, properties, methods and choices in a statement. -/
def Statement.words : Statement → List String
  | .build method args => method :: args.flatMap Argument.words
  | .create field creation => field.toList ++ creation.words
  | .set property value => property :: value.words
  | .append collection value => collection :: value.words
  | .invoke part method args => part.toList ++ method :: args.flatMap Argument.words
  | _ => []

/-- Whether the words of a statement are printable. -/
def Statement.isLegible (line : Statement) : Bool := line.words.all isPrintable

/-! ## Literals -/

/-- The texts in an argument that are given as literals. -/
def Argument.texts : Argument → List String
  | .text s => [s]
  | _ => []

/-- The texts in a creation that are given as literals. -/
def Creation.texts : Creation → List String
  | .compositor _ args => args.flatMap Argument.texts
  | _ => []

/-- The texts in a statement that are given as literals. -/
def Statement.texts : Statement → List String
  | .build _ args => args.flatMap Argument.texts
  | .create _ creation => creation.texts
  | .set _ value => value.texts
  | .append _ value => value.texts
  | .invoke _ _ args => args.flatMap Argument.texts
  | .findController target => [target]
  | _ => []

/-- The texts in statements that are given as literals. -/
def Statement.quoted (lines : List Statement) : List String := lines.flatMap Statement.texts

/-- The texts in a body that are given as literals. -/
def Body.texts (b : Body) : List String :=
  Statement.quoted b.before ++ b.creation.texts ++ Statement.quoted b.after

/-! ## Creation -/

/-- Whether a statement does something other than create the object. -/
def Statement.isPlain : Statement → Bool
  | .create _ _ => false
  | _ => true

end Diorama
