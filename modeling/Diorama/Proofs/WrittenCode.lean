/-
  Code in different languages.

  A scribe (`Scribe`) puts every line together from the words of its language, so nothing in it says
  that two languages give methods of the same shape.  What says so is that each of its functions
  writes the lines of statements which the language has no part in (`Writing.Adds`): the statements
  of `Body` and `Method`.  This is shown function by function along the scribe, up to the methods of
  a whole scene (`Scene.writeMethods_eq`), errors included.

  Two scribes then spell the same statements or stop at the same error:
  `Scene.emit_in_any_language`.
-/
import Mathlib
import Diorama.Code.Scribe
import Diorama.Proofs.Outcome

namespace Diorama

/-! ## Writing spelled statements -/

namespace Writing

variable {α β γ δ : Type} {lang : Language} {sofar : List Statement}

/-- `w`, started after the lines of `sofar`, does what `x` says: it fails with the error of `x`, or
it gives the `value` of the result and leaves the `lines` of it, both spelled by the language. -/
def Follows (lang : Language) (sofar : List Statement) (w : Writing α) (x : Except SceneError β)
    (value : β → α) (lines : β → List Statement) : Prop :=
  ∀ out, w.run (out ++ sofar.map lang.statement) =
    x.map fun b => (value b, out ++ (lines b).map lang.statement)

/-- `w` adds the lines of `x`, or fails with its error. -/
def Adds (lang : Language) (w : Writing Unit) (x : Except SceneError β)
    (lines : β → List Statement) : Prop :=
  Follows lang [] w x (fun _ => ()) lines

namespace Follows

variable {value : β → α} {lines : β → List Statement}

/-- Nothing more is written, and the result is the value of what there is. -/
theorem done {a : α} {b : β} (hvalue : value b = a) (hlines : lines b = sofar) :
    Follows lang sofar (pure a) (.ok b) value lines := by
  subst hvalue hlines
  exact fun _ => rfl

/-- Both stop with the same error. -/
theorem fail (e : SceneError) : Follows lang sofar (throw e) (.error e) value lines := fun _ => rfl

/-- What is found out on the way, in words of the language, is what `y` finds out. -/
theorem lift {x : Except SceneError γ} {y : Except SceneError δ} {f : δ → γ} {k : γ → Writing α}
    {g : δ → Except SceneError β} (hx : x = y.map f)
    (h : ∀ d, Follows lang sofar (k (f d)) (g d) value lines) :
    Follows lang sofar (liftM x >>= k) (y >>= g) value lines := by
  subst hx
  cases y with
  | error e => exact fun _ => rfl
  | ok d => exact h d

/-- One piece of writing after another. -/
theorem bind {w : Writing γ} {x : Except SceneError δ} {k : γ → Writing α}
    {g : δ → Except SceneError β} {value' : δ → γ} {lines' : δ → List Statement}
    (hw : Follows lang sofar w x value' lines')
    (h : ∀ d, Follows lang (lines' d) (k (value' d)) (g d) value lines) :
    Follows lang sofar (w >>= k) (x >>= g) value lines := by
  intro out
  rw [StateT.run_bind, hw out]
  cases x with
  | error e => rfl
  | ok d => exact h d out

end Follows

namespace Adds

variable {w : Writing Unit} {part : γ → List Statement}

/-- The lines are added to whatever is there. -/
theorem after {x : Except SceneError γ} (hw : Adds lang w x part) (sofar : List Statement) :
    Follows lang sofar w x (fun _ => ()) fun c => sofar ++ part c := by
  intro out
  have hrun := hw (out ++ sofar.map lang.statement)
  rw [List.map_nil, List.append_nil] at hrun
  simp only [hrun, List.map_append, List.append_assoc]

/-- First the lines of `x`, then the rest. -/
theorem seq {x : Except SceneError γ} {rest : Writing α} {g : γ → Except SceneError β}
    {value : β → α} {lines : β → List Statement} (hw : Adds lang w x part)
    (h : ∀ c, Follows lang (sofar ++ part c) rest (g c) value lines) :
    Follows lang sofar (w >>= fun _ => rest) (x >>= g) value lines :=
  (hw.after sofar).bind h

/-- First some lines that cannot fail, then the rest. -/
theorem andThen {new : List Statement} {rest : Writing α} {x : Except SceneError β} {value : β → α}
    {lines : β → List Statement} (hw : Adds lang w (.ok new) id)
    (h : Follows lang (sofar ++ new) rest x value lines) :
    Follows lang sofar (w >>= fun _ => rest) x value lines := by
  intro out
  rw [StateT.run_bind, hw.after sofar out]
  exact h out

/-- The last lines. -/
theorem last {x : Except SceneError γ} {f : γ → β} {lines : β → List Statement}
    (hw : Adds lang w x part) (hlines : ∀ c, lines (f c) = sofar ++ part c) :
    Follows lang sofar w (x >>= fun c => .ok (f c)) (fun _ => ()) lines := by
  have h :
      Follows lang sofar (w >>= fun _ => pure ()) (x >>= fun c => .ok (f c)) (fun _ => ()) lines :=
    hw.seq fun c => .done rfl (hlines c)
  rwa [bind_pure] at h

/-- The last lines, which cannot fail. -/
theorem lastly {new : List Statement} {b : β} {lines : β → List Statement}
    (hw : Adds lang w (.ok new) id) (hlines : lines b = sofar ++ new) :
    Follows lang sofar w (.ok b) (fun _ => ()) lines := by
  have h : Follows lang sofar (w >>= fun _ => pure ()) (.ok b) (fun _ => ()) lines :=
    hw.andThen (.done rfl hlines)
  rwa [bind_pure] at h

/-- One line is written if it is the spelling of the statement. -/
theorem line {text : String} {st : Statement} (h : text = lang.statement st) :
    Adds lang (Scribe.line text) (.ok [st]) id := by
  subst h
  intro out
  show Except.ok ((), (out ++ []) ++ [lang.statement st]) =
    Except.ok ((), out ++ [lang.statement st])
  rw [List.append_nil]

/-- Nothing is written for no statement. -/
theorem nothing : Adds lang (pure ()) (.ok []) id := fun _ => rfl

/-- Going through a list spells what is said of its entries, one after the other. -/
theorem forM {f : α → Writing Unit} {g : α → Except SceneError γ}
    (h : ∀ a, Adds lang (f a) (g a) part) (as : List α) :
    Adds lang (as.forM f) (as.mapM g) (List.flatMap part) := by
  induction as with
  | nil => exact fun _ => rfl
  | cons a as ih =>
    rw [List.mapM_cons]
    exact (h a).seq fun c => ih.last fun cs => rfl

/-- One statement for every entry, each of which may fail. -/
theorem forM_each {f : α → Writing Unit} {g : α → Except SceneError Statement}
    (h : ∀ a, Adds lang (f a) (g a) fun st => [st]) (as : List α) :
    Adds lang (as.forM f) (as.mapM g) id := by
  have hall := forM h as
  have hid : List.flatMap (fun st : Statement => [st]) = id := funext List.flatMap_singleton'
  rwa [hid] at hall

/-- The statements of every entry, in order. -/
theorem forM_ok {f : α → Writing Unit} {g : α → List Statement}
    (h : ∀ a, Adds lang (f a) (.ok (g a)) id) (as : List α) :
    Adds lang (as.forM f) (.ok (as.flatMap g)) id := by
  induction as with
  | nil => exact nothing
  | cons a as ih => exact (h a).andThen (ih.lastly rfl)

/-- One statement for every entry. -/
theorem forM_each_ok {f : α → Writing Unit} {g : α → Statement}
    (h : ∀ a, Adds lang (f a) (.ok [g a]) id) (as : List α) :
    Adds lang (as.forM f) (.ok (as.map g)) id := by
  rw [List.map_eq_flatMap]
  exact forM_ok h as

end Adds
end Writing

/-! ## The scribe, function by function -/

/-- The part of a body that is not after the creation, spelled. -/
def Body.writtenHead (lang : Language) (b : Body) : WrittenHead where
  typeName := b.typeName
  before := b.before.map lang.statement
  creation := lang.creation b.creation

namespace Scribe

open Writing

variable (w : Scribe)

/-- A call is the name of an object with brackets behind it. -/
theorem call_eq (id : ObjectId) : w.call id = (w.names.call id).map Language.callText := by
  rw [call, Names.call]
  cases w.names.name id <;> rfl

theorem calls_eq (ids : List ObjectId) :
    w.calls ids = (ids.mapM w.names.call).map (List.map Language.callText) :=
  mapM_eq_map w.call_eq ids

/-- An argument that may be missing is a call or nothing. -/
theorem optionalCall_eq (id : Option ObjectId) :
    w.optionalCall id = (Body.optionalCall w.names id).map (List.map w.lang.argument) := by
  cases id with
  | none => rfl
  | some id =>
    rw [optionalCall, Body.optionalCall, call_eq]
    cases w.names.call id <;> rfl

/-! ### Lines -/

/-- A method of the result, or of a part of it, is called. -/
theorem adds_invoke (part : Option String) (method : String) (args : List Argument) :
    Adds w.lang
      (w.invoke (part.elim Language.resultName w.part) method (args.map w.lang.argument))
      (.ok [.invoke part method args]) id :=
  .line rfl

/-- A property of the result is set. -/
theorem adds_set (property : String) (value : Argument) :
    Adds w.lang (w.set property (w.lang.argument value)) (.ok [.set property value]) id :=
  .line rfl

/-- A property is set if it has a value, and left alone otherwise. -/
theorem adds_setSome {α : Type} (property : String) (spell : α → Argument) (value : Option α) :
    Adds w.lang (w.setSome property (fun v => w.lang.argument (spell v)) value)
      (.ok (Body.setSome property spell value)) id := by
  cases value with
  | none => exact .nothing
  | some v => exact w.adds_set property (spell v)

/-- A property is set to another object, if there is one. -/
theorem adds_setCall (property : String) (target : Option ObjectId) :
    Adds w.lang (w.setCall property target) (Body.setCall w.names property target) id := by
  cases target with
  | none => exact .nothing
  | some target =>
    exact .lift (w.call_eq target) fun c => (w.adds_set property (.call c)).lastly rfl

theorem adds_add (collection : String) (value : Argument) :
    Adds w.lang (w.add collection (w.lang.argument value)) (.ok [.append collection value]) id :=
  .line rfl

/-- Objects are added to a collection one after the other. -/
theorem adds_addCalls (collection : String) (ids : List ObjectId) :
    Adds w.lang (w.addCalls collection ids) (Body.appendCalls w.names collection ids) id :=
  .forM_each (fun child => .lift (w.call_eq child) fun c =>
    (w.adds_add collection (.call c)).lastly rfl) ids

/-- A method of the builder is called. -/
theorem adds_build (method : String) (args : List Argument) :
    Adds w.lang (w.invoke "builder" method (args.map w.lang.argument))
      (.ok [.build method args]) id :=
  .line rfl

/-! ### Properties -/

/-- The settings of a visual are written in the order in which they are stated. -/
theorem adds_visual (v : Visual Float32) :
    Adds w.lang (w.visual v) (Body.visualSettings w.names v) id := by
  refine (w.adds_setSome "CenterPoint" .vector3 v.centerPoint).andThen ?_
  refine (w.adds_setSome "Offset" .vector3 v.offset).andThen ?_
  refine (w.adds_setSome "Scale" .vector3 v.scale).andThen ?_
  refine (w.adds_setSome "RotationAngleInDegrees" .number v.rotation).andThen ?_
  refine (w.adds_setSome "TransformMatrix" .matrix4x4 v.matrix).andThen ?_
  refine (w.adds_setSome "Size" .vector2 v.size).andThen ?_
  refine (w.adds_setSome "Opacity" .number v.opacity).andThen ?_
  refine (w.adds_setSome "IsVisible" .flag v.isVisible).andThen ?_
  exact (w.adds_setCall "Clip" v.clip).last fun _ => rfl

theorem adds_shape (t : ShapeTransform Float32) :
    Adds w.lang (w.shape t) (.ok (Body.shapeSettings t)) id := by
  refine (w.adds_setSome "CenterPoint" .vector2 t.centerPoint).andThen ?_
  refine (w.adds_setSome "Offset" .vector2 t.offset).andThen ?_
  refine (w.adds_setSome "Scale" .vector2 t.scale).andThen ?_
  refine (w.adds_setSome "RotationAngleInDegrees" .number t.rotation).andThen ?_
  exact (w.adds_setSome "TransformMatrix" .matrix3x2 t.matrix).lastly rfl

/-- The settings of a stroke; the dashes are added one by one. -/
theorem adds_stroke (s : Stroke Float32) :
    Adds w.lang (w.stroke s) (.ok (Body.strokeSettings s)) id := by
  refine (w.adds_setSome "StrokeThickness" .number s.thickness).andThen ?_
  refine (w.adds_setSome "StrokeMiterLimit" .number s.miterLimit).andThen ?_
  refine (w.adds_setSome "StrokeStartCap" Body.capChoice s.startCap).andThen ?_
  refine (w.adds_setSome "StrokeEndCap" Body.capChoice s.endCap).andThen ?_
  refine (w.adds_setSome "StrokeDashCap" Body.capChoice s.dashCap).andThen ?_
  refine (w.adds_setSome "StrokeLineJoin"
    (fun j : LineJoin => .choice "CompositionStrokeLineJoin" j.name) s.lineJoin).andThen ?_
  refine (w.adds_setSome "StrokeDashOffset" .number s.dashOffset).andThen ?_
  refine (Adds.forM_each_ok (fun dash => w.adds_add "StrokeDashArray" (.number dash))
    s.dashArray).andThen ?_
  exact (w.adds_setSome "IsStrokeNonScaling" .flag s.isNonScaling).lastly rfl

theorem adds_trim (t : Trim Float32) :
    Adds w.lang (w.trim t) (.ok (Body.trimSettings t)) id := by
  refine (w.adds_setSome "TrimStart" .number t.start).andThen ?_
  refine (w.adds_setSome "TrimEnd" .number t.stop).andThen ?_
  exact (w.adds_setSome "TrimOffset" .number t.offset).lastly rfl

/-! ### Figures -/

/-- A piece of an outline is one call of the builder. -/
theorem adds_segment (s : Segment Float32) :
    Adds w.lang (w.segment s) (.ok [Body.segmentStatement s]) id := by
  cases s with
  | line dest => exact w.adds_build "AddLine" [.vector2 dest]
  | cubic control1 control2 dest =>
    exact w.adds_build "AddCubicBezier" [.vector2 control1, .vector2 control2, .vector2 dest]

/-- A figure is begun, its pieces are added, and it is ended open or closed. -/
theorem adds_figure (f : Figure Float32) :
    Adds w.lang (w.figure f) (.ok (Body.figureStatements f)) id := by
  refine (w.adds_build "BeginFigure" [.vector2 f.start]).andThen ?_
  refine (Adds.forM_each_ok w.adds_segment f.segments).andThen ?_
  exact (w.adds_build "EndFigure"
    [.choice "CanvasFigureLoop" (if f.closed then "Closed" else "Open")]).lastly rfl

/-- An outline is created by lines of its own, which stand before everything else. -/
theorem run_outline (o : Outline Float32) :
    (w.outline o).run [] = (Body.ofOutline w.names o).map fun b =>
      (w.lang.creation b.creation, b.before.map w.lang.statement) := by
  suffices h : Follows w.lang [] (w.outline o) (Body.ofOutline w.names o)
      (fun b => w.lang.creation b.creation) Body.before from h []
  cases o with
  | figures mode figures =>
    have hbuilder : Adds w.lang
        (line (w.lang.declare "builder" (w.lang.newObject "CanvasPathBuilder" [w.lang.null])))
        (.ok [.newBuilder]) id := .line rfl
    refine hbuilder.andThen ?_
    cases mode with
    | none => exact (Adds.forM_ok w.adds_figure figures).andThen (.done rfl rfl)
    | some m =>
      refine (w.adds_build "SetFilledRegionDetermination"
        [.choice "CanvasFilledRegionDetermination" m.name]).andThen ?_
      exact (Adds.forM_ok w.adds_figure figures).andThen (.done rfl rfl)
  | group mode geometries => exact .lift (w.calls_eq geometries) fun calls => .done rfl rfl
  | transformed source matrix => exact .lift (w.call_eq source) fun c => .done rfl rfl

/-- The geometry of a path is wrapped, or there is none. -/
theorem pathSource_eq (source : Option ObjectId) :
    w.pathSource source = (source.mapM w.names.call).map fun c =>
      c.elim w.lang.null fun c => w.lang.geometrySource (Language.callText c) := by
  cases source with
  | none => rfl
  | some id =>
    rw [pathSource, call_eq]
    show _ = (some <$> w.names.call id).map _
    cases w.names.call id <;> rfl

/-! ### Animations -/

/-- The value at a key frame comes with the method that inserts it. -/
theorem frameValue_eq (v : KeyFrameValue Float32) :
    w.frameValue v = (Body.frameValue w.names v).map fun p => (p.1, w.lang.argument p.2) := by
  cases v with
  | path id =>
    rw [frameValue, Body.frameValue, call_eq]
    cases w.names.call id <;> rfl
  | _ => rfl

/-- A key frame is inserted with its easing, if it has one. -/
theorem adds_frame (f : KeyFrame Float32) :
    Adds w.lang (w.frame f) (Body.frameStatement w.names f) fun st => [st] := by
  refine .lift (w.frameValue_eq f.value) ?_
  rintro ⟨method, value⟩
  exact .lift (w.optionalCall_eq f.easing) fun easing =>
    (w.adds_invoke none method (.number f.progress :: value :: easing)).lastly rfl

/-- A parameter refers to an object that an expression reads. -/
theorem adds_parameter (p : Parameter) :
    Adds w.lang (w.parameter p) (Body.parameterStatement w.names p) fun st => [st] :=
  .lift (w.call_eq p.object) fun c =>
    (w.adds_invoke none "SetReferenceParameter" [.text p.name, .call c]).lastly rfl

/-! ### Objects -/

/-- Nothing is written after the creation of an outline. -/
theorem follows_outline (o : Outline Float32) (id : ObjectId) :
    Follows w.lang [] (w.content id (.geometry o)) (Body.ofOutline w.names o)
      (Body.writtenHead w.lang) Body.after := by
  intro out
  rw [content, StateT.run_bind]
  show ((w.outline o).run [] >>= fun _ => _) >>= _ = _
  rw [run_outline]
  cases o with
  | figures mode figures => rfl
  | group mode geometries =>
    rw [Body.ofOutline]
    cases geometries.mapM w.names.call <;> rfl
  | transformed source matrix =>
    rw [Body.ofOutline]
    cases w.names.call source <;> rfl

/-- Every kind of object is written as its body says. -/
theorem follows_content (id : ObjectId) (c : Content Float32) :
    Follows w.lang [] (w.content id c) (Body.ofContent w.names id c) (Body.writtenHead w.lang)
      Body.after := by
  -- both runs visit the parts of a content in the same order, so they are stepped through together
  cases c with
  | containerVisual visual children =>
    refine (w.adds_visual visual).seq fun settings => ?_
    refine Adds.seq (Adds.forM_each (fun child => ?_) children) fun inserted => .done rfl rfl
    exact .lift (w.call_eq child) fun c =>
      (w.adds_invoke (some "Children") "InsertAtTop" [.call c]).lastly rfl
  | shapeVisual visual shapes =>
    refine (w.adds_visual visual).seq fun settings => ?_
    exact (w.adds_addCalls "Shapes" shapes).seq fun added => .done rfl rfl
  | containerShape transform shapes =>
    refine (w.adds_shape transform).andThen ?_
    exact (w.adds_addCalls "Shapes" shapes).seq fun added => .done rfl rfl
  | spriteShape sprite =>
    refine (w.adds_shape sprite.transform).andThen ?_
    refine (w.adds_setCall "Geometry" sprite.geometry).seq fun geometry => ?_
    refine (w.adds_setCall "FillBrush" sprite.fillBrush).seq fun fill => ?_
    refine (w.adds_setCall "StrokeBrush" sprite.strokeBrush).seq fun stroke => ?_
    exact (w.adds_stroke sprite.stroke).andThen (.done rfl rfl)
  | ellipseGeometry trim center radius =>
    refine (w.adds_setSome "Center" .vector2 center).andThen ?_
    refine (w.adds_setSome "Radius" .vector2 radius).andThen ?_
    exact (w.adds_trim trim).andThen (.done rfl rfl)
  | rectangleGeometry trim offset size =>
    refine (w.adds_setSome "Offset" .vector2 offset).andThen ?_
    refine (w.adds_setSome "Size" .vector2 size).andThen ?_
    exact (w.adds_trim trim).andThen (.done rfl rfl)
  | roundedRectangleGeometry trim offset size cornerRadius =>
    refine (w.adds_setSome "Offset" .vector2 offset).andThen ?_
    refine (w.adds_setSome "Size" .vector2 size).andThen ?_
    refine (w.adds_setSome "CornerRadius" .vector2 cornerRadius).andThen ?_
    exact (w.adds_trim trim).andThen (.done rfl rfl)
  | pathGeometry trim p =>
    refine (w.adds_trim trim).andThen ?_
    exact .lift (w.optionalCall_eq p) fun args => .done rfl rfl
  | path source => exact .lift (w.pathSource_eq source) fun geometry => .done rfl rfl
  | geometry outline => exact w.follows_outline outline id
  | colorBrush color => exact .done (by cases color <;> rfl) rfl
  | insetClip left top right bottom =>
    refine (w.adds_setSome "LeftInset" .number left).andThen ?_
    refine (w.adds_setSome "TopInset" .number top).andThen ?_
    refine (w.adds_setSome "RightInset" .number right).andThen ?_
    exact (w.adds_setSome "BottomInset" .number bottom).andThen (.done rfl rfl)
  | geometricClip g => exact .lift (w.optionalCall_eq g) fun args => .done rfl rfl
  | linearEasing => exact .done rfl rfl
  | cubicBezierEasing control1 control2 => exact .done rfl rfl
  | stepEasing steps initialSingle finalSingle =>
    refine (w.adds_setSome "StepCount" (fun n : Int32 => .integer n.toInt) steps).andThen ?_
    refine (w.adds_setSome "IsInitialStepSingleFrame" .flag initialSingle).andThen ?_
    exact (w.adds_setSome "IsFinalStepSingleFrame" .flag finalSingle).andThen (.done rfl rfl)
  | keyFrameAnimation a =>
    refine (w.adds_set "Duration" (.timeSpan a.duration.toInt)).andThen ?_
    refine (w.adds_setSome "Target" .text a.target).andThen ?_
    exact (Adds.forM_each w.adds_frame a.frames).seq fun frames => .done rfl rfl
  | expressionAnimation a =>
    refine (w.adds_setSome "Target" .text a.target).andThen ?_
    exact (Adds.forM_each w.adds_parameter a.parameters).seq fun parameters => .done rfl rfl
  | propertySet => exact .done rfl rfl
  | animationController paused => exact .fail _
  | external typeName => exact .fail _

/-! ### What is attached -/

theorem propertyValue_eq (v : PropertyValue Float32) :
    w.propertyValue v = ((Body.propertyValue v).1, w.lang.argument (Body.propertyValue v).2) := by
  cases v <;> rfl

/-- An entry of a property bag is inserted by a method for its type. -/
theorem adds_property (bag : Option String) (entry : String × PropertyValue Float32) :
    Adds w.lang (w.property (bag.elim Language.resultName w.part) entry)
      (.ok [.invoke bag (Body.propertyValue entry.2).1
        [.text entry.1, (Body.propertyValue entry.2).2]]) id := by
  rw [property, propertyValue_eq]
  exact w.adds_invoke bag _ [.text entry.1, (Body.propertyValue entry.2).2]

/-- A controller is paused in a scope of its own. -/
theorem adds_pause (target : String) :
    Adds w.lang (w.pause target)
      (.ok [.openScope, .findController target, .pauseController, .closeScope]) id := by
  have hopen : Adds w.lang (line w.lang.opening) (.ok [.openScope]) id := .line rfl
  have hfind : Adds w.lang
      (line ("    " ++ w.lang.declare "controller"
        (w.applied Language.resultName "TryGetAnimationController" [w.lang.text target])))
      (.ok [.findController target]) id := .line rfl
  have hpause : Adds w.lang (line ("    " ++ w.applied "controller" "Pause" [] ++ ";"))
      (.ok [.pauseController]) id := .line rfl
  have hclose : Adds w.lang (line w.lang.closing) (.ok [.closeScope]) id := .line rfl
  exact hopen.andThen (hfind.andThen (hpause.andThen (hclose.lastly rfl)))

/-- Only a controller that is paused is looked up, and it has to be a controller. -/
theorem adds_controller (target : String) (controller : ObjectId) :
    Adds w.lang (w.controller target controller)
      (Body.controllerStatements w.scene target controller) id := by
  rw [Scribe.controller, Body.controllerStatements]
  cases w.scene.get? controller with
  | none => exact .fail _
  | some o =>
    obtain ⟨attached, content⟩ := o
    cases content with
    | animationController paused =>
      cases paused with
      | true => exact w.adds_pause target
      | false => exact .nothing
    | _ => exact .fail _

/-- An animator starts its animation and then sees to its controller. -/
theorem adds_animator (a : Animator) :
    Adds w.lang (w.animator a) (Body.animatorStatements w.scene w.names a) id := by
  refine .lift (w.call_eq a.animation) fun c => ?_
  refine (w.adds_invoke none "StartAnimation" [.text a.target, .call c]).andThen ?_
  cases a.controller with
  | none => exact .done rfl rfl
  | some controller => exact (w.adds_controller a.target controller).last fun _ => rfl

/-- What is attached is written at the end: the comment, the bag, the animators. -/
theorem adds_attachments (o : Object Float32) :
    Adds w.lang (w.attachments o) (Body.attachmentStatements w.scene w.names o) id := by
  have hbag : (if o.kind = .propertySet then Language.resultName else w.part "Properties") =
      (if o.kind = .propertySet then none else some "Properties").elim Language.resultName
        w.part := by
    split <;> rfl
  refine (w.adds_setSome "Comment" .text o.attached.comment).andThen ?_
  rw [hbag]
  refine (Adds.forM_each_ok (w.adds_property _) o.attached.properties.entries).andThen ?_
  refine (Adds.forM w.adds_animator o.attached.animators).last fun animators => ?_
  rw [List.flatMap_id]
  rfl

/-! ### Methods -/

/-- **The body of a method is written as it is stated**, or both stop at the same error. -/
theorem follows_body (id : ObjectId) (o : Object Float32) :
    Follows w.lang [] (w.body id o) (Body.ofObject w.scene w.names id o) (Body.writtenHead w.lang)
      Body.after := by
  refine (w.follows_content id o.content).bind fun b => ?_
  split
  · exact (w.adds_attachments o).seq fun statements => .done rfl rfl
  · split
    · exact .done rfl rfl
    · exact .fail _

/-- A method is written as it stands, statement by statement. -/
theorem method_eq (uses : Nat) (id : ObjectId) (o : Object Float32) :
    w.method uses id o = (Method.ofObject w.scene w.names uses id o).map (Method.write w.lang) := by
  have hkeep (name : String) : (if 1 < uses then fieldName name ++ " = " else "") =
      (if 1 < uses then some (fieldName name) else none).elim "" fun f => f ++ " = " := by
    split <;> rfl
  rw [method, Method.ofObject, show (w.body id o).run [] = _ from w.follows_body id o []]
  cases w.names.name id with
  | error e => rfl
  | ok name =>
    cases Body.ofObject w.scene w.names id o with
    | error e => rfl
    | ok b =>
      have hlines : b.before.map w.lang.statement ++ w.lang.declare Language.resultName
            ((if 1 < uses then fieldName name ++ " = " else "") ++ w.lang.creation b.creation) ::
              b.after.map w.lang.statement =
          (b.before ++ .create (if 1 < uses then some (fieldName name) else none)
            b.creation :: b.after).map w.lang.statement := by
        rw [List.map_append, List.map_cons, hkeep]
        rfl
      exact congrArg (fun lines => Except.ok (WrittenMethod.mk id name b.typeName
        (decide (1 < uses)) lines
        (o.attached.longDescription.or o.attached.shortDescription))) hlines

end Scribe

/-! ## Methods of the same outline -/

/-- Two methods, each written in a language of its own, that differ in how their lines are spelled
only. -/
structure WrittenMethod.SameOutline (lang lang' : Language) (m m' : WrittenMethod) : Prop where
  object : m.object = m'.object
  name : m.name = m'.name
  typeName : m.typeName = m'.typeName
  isCached : m.isCached = m'.isCached
  description : m.description = m'.description
  length : m.statements.length = m'.statements.length
  /-- Line by line, both spell the same statement. -/
  lines : List.Forall₂ (fun line line' => ∃ s, line = lang.statement s ∧ line' = lang'.statement s)
    m.statements m'.statements

/-- Two spellings of one method differ in nothing but the words of their lines. -/
theorem Method.sameOutline_write (m : Method) (lang lang' : Language) :
    WrittenMethod.SameOutline lang lang' (m.write lang) (m.write lang') where
  object := rfl
  name := rfl
  typeName := rfl
  isCached := rfl
  description := rfl
  length := by
    show (m.statements.map lang.statement).length = (m.statements.map lang'.statement).length
    rw [List.length_map, List.length_map]
  lines := by
    show List.Forall₂ _ (m.statements.map lang.statement) (m.statements.map lang'.statement)
    rw [List.forall₂_map_left_iff, List.forall₂_map_right_iff, List.forall₂_same]
    intro s _
    exact ⟨s, rfl, rfl⟩

/-! ## Writing a scene in two languages -/

namespace Scene

/-- The methods of a scene are written as the instantiator has them. -/
theorem writeMethods_eq (s : Scene Float32) (names : Names) (lang : Language) :
    s.writeMethods names lang =
      (Instantiator.ofScene s names).map fun i => i.methods.map (Method.write lang) := by
  rw [writeMethods, Instantiator.ofScene]
  cases Index.build s with
  | error e => rfl
  | ok ix =>
    have hmethods := mapM_eq_map (fun p : ObjectId × Object Float32 =>
      Scribe.method_eq ⟨s, names, lang⟩ (s.slotTargets.count p.1) p.1 p.2) (Instantiator.made s ix)
    show (List.mapM _ _ >>= fun methods => names.name s.root >>= fun _ => Except.ok methods) = _
    rw [hmethods]
    show _ = Except.map _ (List.mapM _ _ >>= _)
    cases (Instantiator.made s ix).mapM fun p =>
        Method.ofObject s names (s.slotTargets.count p.1) p.1 p.2 with
    | error e => rfl
    | ok methods => cases names.name s.root <;> rfl

/-- **The outline of emitted code is the same in every language**: the methods are written as the
code has them, and in any two languages the scribe stops at the same error, or its methods agree one
by one in all but the spelling of their lines. -/
theorem emit_in_any_language (s : Scene Float32) (names : Names) (settings : CodeSettings)
    (lang lang' : Language) :
    (∃ e, s.writeMethods names lang = .error e ∧ s.writeMethods names lang' = .error e ∧
      s.emit names settings lang = .error e ∧ s.emit names settings lang' = .error e) ∨
    ∃ methods methods', s.writeMethods names lang = .ok methods ∧
      s.writeMethods names lang' = .ok methods' ∧
      (∃ code, s.emit names settings lang = .ok code ∧ code.written = methods) ∧
      (∃ code', s.emit names settings lang' = .ok code' ∧ code'.written = methods') ∧
      methods.length = methods'.length ∧
      List.Forall₂ (WrittenMethod.SameOutline lang lang') methods methods' := by
  rw [writeMethods_eq, writeMethods_eq, emit, emit]
  cases Instantiator.ofScene s names with
  | error e => exact .inl ⟨e, rfl, rfl, rfl, rfl⟩
  | ok i =>
    have hsame : List.Forall₂ (WrittenMethod.SameOutline lang lang')
        (i.methods.map (Method.write lang)) (i.methods.map (Method.write lang')) := by
      rw [List.forall₂_map_left_iff, List.forall₂_map_right_iff, List.forall₂_same]
      intro m _
      exact m.sameOutline_write lang lang'
    exact .inr ⟨_, _, rfl, rfl, ⟨_, rfl, rfl⟩, ⟨_, rfl, rfl⟩, hsame.length_eq, hsame⟩

end Scene
end Diorama
