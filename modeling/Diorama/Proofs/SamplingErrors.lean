/-
  Errors of sampling.

  Sampling fails where a reference leads nowhere, where references run in a circle, and where an
  object has no picture.  None of this has to do with the matrices of shapes: a scene fails to be
  sampled with the same error if these are taken out (`sampleAt_withoutMatrices`), and wherever an
  object is drawn (`visit_withoutMatrices`).

  Pushing down changes nothing but these matrices, also if it fails halfway.  So the scene that it
  leaves fails to be sampled when the scene before does, and with the same error
  (`failsAlike_pushDown`).
-/
import Mathlib
import Diorama.Proofs.Outcome
import Diorama.Proofs.StepOutcomes
import Diorama.Sampling.Evaluate

namespace Diorama

variable {K : Type}

/-! ## Runs that fail alike -/

/-- The runs fail with the same errors. -/
def FailsAlike {ε α β : Type} (x : Except ε α) (y : Except ε β) : Prop :=
  ∀ e, x = .error e ↔ y = .error e

namespace FailsAlike

variable {ε α β γ δ : Type} {x : Except ε α} {y : Except ε β}

theorem refl (x : Except ε α) : FailsAlike x x := fun _ => Iff.rfl

theorem symm (h : FailsAlike x y) : FailsAlike y x := fun e => (h e).symm

theorem trans {z : Except ε γ} (h : FailsAlike x y) (h' : FailsAlike y z) : FailsAlike x z :=
  fun e => (h e).trans (h' e)

/-- Two runs that succeed do not fail. -/
theorem pure (a : α) (b : β) : FailsAlike (Pure.pure a : Except ε α) (Pure.pure b : Except ε β) :=
  fun e => ⟨fun h => (by cases h), fun h => (by cases h)⟩

/-- Two runs that stop at one error. -/
theorem error (e : ε) : FailsAlike (.error e : Except ε α) (.error e : Except ε β) :=
  fun _ => by simp

/-- Runs that fail alike go on to runs that fail alike. -/
theorem bind {f : α → Except ε γ} {g : β → Except ε δ} (h : FailsAlike x y)
    (hfg : ∀ a b, FailsAlike (f a) (g b)) : FailsAlike (x >>= f) (y >>= g) := by
  cases x with
  | error e =>
    have hy : y = .error e := (h e).mp rfl
    rw [hy]
    exact error e
  | ok a =>
    cases y with
    | error e => cases (h e).mpr rfl
    | ok b => exact hfg a b

/-- A run may go on in two ways that fail alike. -/
theorem after {f : α → Except ε γ} {g : α → Except ε δ} (x : Except ε α)
    (hfg : ∀ a, FailsAlike (f a) (g a)) : FailsAlike (x >>= f) (x >>= g) := by
  cases x with
  | error e => exact error e
  | ok a => exact hfg a

/-- Runs over one list fail at the same entry. -/
theorem mapM {f : α → Except ε β} {g : α → Except ε γ} (as : List α)
    (h : ∀ a, FailsAlike (f a) (g a)) : FailsAlike (as.mapM f) (as.mapM g) := by
  induction as with
  | nil => exact pure _ _
  | cons a as ih =>
    rw [List.mapM_cons, List.mapM_cons]
    exact (h a).bind fun b c => ih.bind fun bs cs => pure _ _

end FailsAlike

/-! ## Scenes without matrices -/

/-- The content without its matrix, if it is that of a shape. -/
def Content.withoutMatrix : Content K → Content K
  | .containerShape transform shapes => .containerShape { transform with matrix := none } shapes
  | .spriteShape sprite =>
    .spriteShape { sprite with transform := { sprite.transform with matrix := none } }
  | content => content

/-- The object without its matrix, with everything that is attached to it. -/
def Object.withoutMatrix (o : Object K) : Object K := { o with content := o.content.withoutMatrix }

/-- The scene without the matrices of its shapes. -/
def Scene.withoutMatrices (s : Scene K) : Scene K :=
  { s with objects := s.objects.map Object.withoutMatrix }

/-- Every object is where it was, without its matrix. -/
theorem Scene.get?_withoutMatrices (s : Scene K) (id : ObjectId) :
    s.withoutMatrices.get? id = (s.get? id).map Object.withoutMatrix := by
  simp [withoutMatrices, get?]

/-- References lead to objects as before, or they lead nowhere as before. -/
theorem Scene.resolve_withoutMatrices (s : Scene K) (holder id : ObjectId) :
    s.withoutMatrices.resolve holder id = Object.withoutMatrix <$> s.resolve holder id := by
  unfold resolve
  rw [get?_withoutMatrices]
  cases s.get? id <;> rfl

theorem Scene.depthLimit_withoutMatrices (s : Scene K) :
    s.withoutMatrices.depthLimit = s.depthLimit := by
  simp [depthLimit, size, withoutMatrices]

theorem Object.attached_withoutMatrix (o : Object K) : o.withoutMatrix.attached = o.attached := rfl

/-- Putting an object in place of one that differs at most in its matrix. -/
theorem Scene.withoutMatrices_set {s : Scene K} {id : ObjectId} {o o' : Object K}
    (ho : s.get? id = some o) (h : o'.withoutMatrix = o.withoutMatrix) :
    (s.set id o').withoutMatrices = s.withoutMatrices := by
  unfold withoutMatrices
  congr 1
  refine Array.ext_getElem? fun i => ?_
  show ((s.set id o').objects.map Object.withoutMatrix)[i]? =
    (s.objects.map Object.withoutMatrix)[i]?
  by_cases hi : id.index = i
  · subst hi
    have hself := get?_set_self ho o'
    unfold get? at ho hself
    rw [Array.getElem?_map, Array.getElem?_map, ho, hself, Option.map_some, Option.map_some, h]
  · rw [Array.getElem?_map, Array.getElem?_map, set, Array.getElem?_setIfInBounds_ne hi]

/-! ## What does not depend on matrices -/

namespace Moment

variable [Scalar K] (s : Scene K) (time : Int64)

/-- Easings are no shapes. -/
theorem valueOf_withoutMatrices (id : ObjectId) (a : KeyFrameAnimation K) :
    valueOf ⟨s.withoutMatrices, time⟩ id a = valueOf ⟨s, time⟩ id a := by
  have hease : ∀ (o : Object K) (t : K), o.withoutMatrix.content.ease t = o.content.ease t := by
    rintro ⟨attached, c⟩ t
    cases c <;> rfl
  simp only [valueOf, Scene.resolve_withoutMatrices, bind_map_left, hease]

/-- An animated value comes from an animation, which has no matrix. -/
theorem animated_withoutMatrices (owner : ObjectId) (o : Object K) (property : String) :
    animated ⟨s.withoutMatrices, time⟩ owner o.withoutMatrix property =
      animated ⟨s, time⟩ owner o property := by
  unfold animated
  rw [o.attached_withoutMatrix]
  split
  · rfl
  · rw [Scene.resolve_withoutMatrices, bind_map_left]
    refine bind_congr ?_
    rintro ⟨attached, c⟩
    cases c with
    | keyFrameAnimation a => exact valueOf_withoutMatrices s time _ a
    | _ => rfl

omit [Scalar K] in
/-- Expressions are read off animations, which have no matrices. -/
theorem expressionsOf_withoutMatrices (owner : ObjectId) (o : Object K) :
    expressionsOf ⟨s.withoutMatrices, time⟩ owner o.withoutMatrix =
      expressionsOf ⟨s, time⟩ owner o := by
  unfold expressionsOf
  rw [o.attached_withoutMatrix]
  refine congrArg (· >>= _) (mapM_congr fun a _ => ?_)
  rw [Scene.resolve_withoutMatrices, bind_map_left]
  refine bind_congr ?_
  rintro ⟨attached, c⟩
  cases c <;> rfl

/-- Apart from what animates it, a scalar is given; likewise a vector and a rotation below. -/
theorem scalar_withoutMatrices (owner : ObjectId) (o : Object K) (property : String)
    (own : Option K) : scalar ⟨s.withoutMatrices, time⟩ owner o.withoutMatrix property own =
      scalar ⟨s, time⟩ owner o property own := by
  unfold scalar
  rw [animated_withoutMatrices]

theorem vector2_withoutMatrices (owner : ObjectId) (o : Object K) (property : String)
    (own : Option (Vec2 K)) : vector2 ⟨s.withoutMatrices, time⟩ owner o.withoutMatrix property own =
      vector2 ⟨s, time⟩ owner o property own := by
  unfold vector2
  rw [animated_withoutMatrices]

theorem vector3_withoutMatrices (owner : ObjectId) (o : Object K) (property : String)
    (own : Option (Vec3 K)) : vector3 ⟨s.withoutMatrices, time⟩ owner o.withoutMatrix property own =
      vector3 ⟨s, time⟩ owner o property own := by
  unfold vector3
  rw [animated_withoutMatrices]

theorem rotation_withoutMatrices (owner : ObjectId) (o : Object K) (own : Option K) :
    rotation ⟨s.withoutMatrices, time⟩ owner o.withoutMatrix own =
      rotation ⟨s, time⟩ owner o own := by
  simp only [rotation, scalar_withoutMatrices]

/-- A visual has a matrix of its own, which is left as it is. -/
theorem visualState_withoutMatrices (id : ObjectId) (o : Object K) (v : Visual K) :
    visualState ⟨s.withoutMatrices, time⟩ id o.withoutMatrix v =
      visualState ⟨s, time⟩ id o v := by
  simp only [visualState, vector3_withoutMatrices, rotation_withoutMatrices,
    scalar_withoutMatrices, animated_withoutMatrices]

theorem trim_withoutMatrices (id : ObjectId) (o : Object K) (t : Trim K) :
    trim ⟨s.withoutMatrices, time⟩ id o.withoutMatrix t = trim ⟨s, time⟩ id o t := by
  simp only [trim, scalar_withoutMatrices]

/-- A brush is no shape. -/
theorem brush_withoutMatrices (owner : ObjectId) (id : Option ObjectId) :
    brush ⟨s.withoutMatrices, time⟩ owner id = brush ⟨s, time⟩ owner id := by
  cases id with
  | none => rfl
  | some id =>
    simp only [brush, Scene.resolve_withoutMatrices, bind_map_left,
      expressionsOf_withoutMatrices, animated_withoutMatrices]
    refine bind_congr fun o => ?_
    obtain ⟨attached, c⟩ := o
    cases c <;> rfl

/-- An outline is followed through geometries, none of which is a shape. -/
theorem flatten_withoutMatrices (depth : Nat) (holder id : ObjectId) (m : Matrix3x2 K) :
    s.withoutMatrices.flatten depth holder id m = s.flatten depth holder id m := by
  induction depth generalizing holder id m with
  | zero => rfl
  | succ depth ih =>
    unfold Scene.flatten
    rw [Scene.resolve_withoutMatrices, bind_map_left]
    refine bind_congr ?_
    rintro ⟨attached, c⟩
    cases c with
    | geometry outline =>
      cases outline with
      | figures fillMode fs => rfl
      | group fillMode gs =>
        exact congrArg (· >>= _) (mapM_congr fun g _ => ih id g m)
      | transformed source own => exact ih id source (own.andThen m)
    | _ => rfl

/-- A path ends at an outline. -/
theorem path_withoutMatrices (holder : ObjectId) (id : Option ObjectId) :
    path ⟨s.withoutMatrices, time⟩ holder id = path ⟨s, time⟩ holder id := by
  cases id with
  | none => rfl
  | some id =>
    simp only [path, Scene.resolve_withoutMatrices, bind_map_left,
      s.depthLimit_withoutMatrices, flatten_withoutMatrices]
    refine bind_congr ?_
    rintro ⟨attached, c⟩
    cases c <;> rfl

/-- The outline of a geometry, the part of it that is drawn, and its expressions do not depend on
the matrices of shapes. -/
theorem geometry_withoutMatrices (holder : ObjectId) (id : Option ObjectId) :
    geometry ⟨s.withoutMatrices, time⟩ holder id = geometry ⟨s, time⟩ holder id := by
  cases id with
  | none => rfl
  | some id =>
    simp only [geometry, Scene.resolve_withoutMatrices, bind_map_left,
      expressionsOf_withoutMatrices, vector2_withoutMatrices, trim_withoutMatrices,
      animated_withoutMatrices, path_withoutMatrices]
    refine bind_congr ?_
    rintro ⟨attached, c⟩
    cases c <;> rfl

/-! ## Where sampling fails -/

/-- Whether the matrix of a shape is known does not depend on what it is. -/
theorem shapeMatrix_failsAlike (id : ObjectId) (o : Object K) (t : ShapeTransform K) :
    FailsAlike (shapeMatrix ⟨s.withoutMatrices, time⟩ id o.withoutMatrix { t with matrix := none })
      (shapeMatrix ⟨s, time⟩ id o t) := by
  simp only [shapeMatrix, vector2_withoutMatrices, rotation_withoutMatrices]
  refine .after _ fun _ => .after _ fun _ => .after _ fun _ => .after _ fun _ => ?_
  exact .pure _ _

/-- A sprite fails where its geometry, a brush or a driven setting does, wherever it is drawn. -/
theorem sprite_failsAlike (id : ObjectId) (o : Object K) (a : Sprite K)
    (around around' : Surroundings K) :
    FailsAlike (sprite ⟨s.withoutMatrices, time⟩ id o.withoutMatrix
        { a with transform := { a.transform with matrix := none } } around)
      (sprite ⟨s, time⟩ id o a around') := by
  simp only [sprite, geometry_withoutMatrices, brush_withoutMatrices, scalar_withoutMatrices]
  refine (shapeMatrix_failsAlike s time id o a.transform).bind fun _ _ => ?_
  refine .after _ fun _ => .after _ fun _ => .after _ fun _ => .after _ fun _ => ?_
  exact .pure _ _

/-- **An object fails to be drawn with the same error without the matrices, and wherever it is
drawn.** -/
theorem visit_withoutMatrices (depth : Nat) (holder id : ObjectId) (above above' : Surroundings K) :
    FailsAlike (visit ⟨s.withoutMatrices, time⟩ depth holder id above)
      (visit ⟨s, time⟩ depth holder id above') := by
  induction depth generalizing holder id above above' with
  | zero => exact .refl _
  | succ depth ih =>
    -- what an object holds may be drawn anywhere
    have hinside : ∀ (cs : List ObjectId) (a a' : Surroundings K), FailsAlike
        (do return (← cs.mapM fun c => visit ⟨s.withoutMatrices, time⟩ depth id c a).flatten)
        (do return (← cs.mapM fun c => visit ⟨s, time⟩ depth id c a').flatten) :=
      fun cs a a' => (FailsAlike.mapM cs fun c => ih id c a a').bind fun _ _ => .pure _ _
    have hvisual : ∀ (state : Matrix3x2 K × K × Bool) (cs : List ObjectId)
        (a a' : Surroundings K), FailsAlike
        (if state.2.2 then
          do return (← cs.mapM fun c => visit ⟨s.withoutMatrices, time⟩ depth id c a).flatten
        else return [])
        (if state.2.2 then
          do return (← cs.mapM fun c => visit ⟨s, time⟩ depth id c a').flatten
        else return []) := by
      intro state cs a a'
      split
      · exact hinside cs a a'
      · exact .pure _ _
    unfold visit
    rw [Scene.resolve_withoutMatrices, bind_map_left]
    refine .after _ fun o => ?_
    rw [expressionsOf_withoutMatrices]
    refine .after _ fun expressions => ?_
    simp only [visualState_withoutMatrices]
    obtain ⟨attached, c⟩ := o
    cases c with
    | containerVisual v cs => exact .after _ fun state => hvisual state cs _ _
    | shapeVisual v cs => exact .after _ fun state => hvisual state cs _ _
    | containerShape t cs =>
      exact (shapeMatrix_failsAlike s time id _ t).bind fun _ _ => hinside cs _ _
    | spriteShape a => exact (sprite_failsAlike s time id _ a _ _).bind fun _ _ => .pure _ _
    | _ => exact .refl _

end Moment

/-- **A scene fails to be sampled with the same error without the matrices of its shapes.** -/
theorem Scene.sampleAt_withoutMatrices [Scalar K] (s : Scene K) (time : Int64) :
    FailsAlike (s.withoutMatrices.sampleAt time) (s.sampleAt time) := by
  unfold sampleAt
  rw [s.depthLimit_withoutMatrices]
  exact Moment.visit_withoutMatrices s time _ _ _ _ _

/-! ## Pushing down -/

namespace Reduction

/-- A change of one matrix leaves the scene as it was but for matrices. -/
theorem keeps_change (s : Scene K) (id : ObjectId) {f : Content K → Content K}
    (hf : ∀ c, (f c).withoutMatrix = c.withoutMatrix) :
    Editing.Keeps (fun t => t.withoutMatrices = s.withoutMatrices)
      (Editing.change id fun o => { o with content := f o.content }) := by
  intro t ht
  rcases Editing.left_change id (fun o => { o with content := f o.content }) t with
    hleft | ⟨o, ho, -, hleft⟩
  · rwa [hleft]
  · have hsame : Object.withoutMatrix { o with content := f o.content } = o.withoutMatrix := by
      simp only [Object.withoutMatrix, hf]
    rw [hleft, Scene.withoutMatrices_set ho hsame, ht]

/-- What a shape takes over goes to its matrix. -/
theorem withoutMatrix_takeOver [Scalar K] (m : Matrix3x2 K) (c : Content K) :
    (takeOver m c).withoutMatrix = c.withoutMatrix := by
  cases c <;> rfl

/-- What a container drops is its matrix. -/
theorem withoutMatrix_dropMatrix (c : Content K) :
    (dropMatrix c).withoutMatrix = c.withoutMatrix := by
  cases c <;> rfl

variable [Scalar K]

/-- A pass changes matrices only, wherever it stops. -/
theorem withoutMatrices_pushDown (s : Scene K) :
    (pushDown.left s).withoutMatrices = s.withoutMatrices := by
  have hkeeps :
      Editing.Keeps (fun t => t.withoutMatrices = s.withoutMatrices) (pushDown (K := K)) :=
    .get_bind fun _ => .sumOver fun id _ => keeps_pushObject
      (fun m c _ => keeps_change s c (withoutMatrix_takeOver m))
      fun _ => keeps_change s id withoutMatrix_dropMatrix
  exact hkeeps s rfl

/-- **Wherever pushing down stops, the scene fails to be sampled as it did before.** -/
theorem failsAlike_pushDown (s : Scene K) (time : Int64) :
    FailsAlike (s.sampleAt time) ((pushDown.left s).sampleAt time) := by
  have hleft := (pushDown.left s).sampleAt_withoutMatrices time
  rw [withoutMatrices_pushDown] at hleft
  exact (s.sampleAt_withoutMatrices time).symm.trans hleft

end Reduction

end Diorama
