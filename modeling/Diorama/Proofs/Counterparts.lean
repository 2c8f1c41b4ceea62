/-
  Objects that stand for each other in two scenes.

  A function `f` gives every object of one scene its counterpart in another one.  Counterparts refer
  to counterparts, their scalars are related by `r`, and a property that is not set counts as set to
  its default value.  What is said here is what sampling reads of the parts of a sprite: geometries,
  paths, brushes, easings and animations.  Of visuals, shapes and sprites themselves only the kind
  is said, since two scenes may place them differently.

    * `Content.Counterpart`   one constructor for each kind of content
    * `Scene.Mirrors`         every object of a set has a counterpart, and references in the set
                              go down in a rank that is bounded by the size of both scenes

  There are three ways to come by counterparts: renaming ids (`counterpart_mapIds`), going to an
  object with the same words (`counterpart_of_word_eq`) and unsetting defaults
  (`counterpart_withoutDefaults`).
-/
import Diorama.Merge.Key
import Diorama.Object.Default
import Diorama.Proofs.Likeness
import Diorama.Proofs.Reachability
import Diorama.Proofs.Renaming

namespace Diorama

/-! ## Contents -/

/-- The same value with related scalars; a path is one of a set and becomes its counterpart. -/
inductive KeyFrameValue.Counterpart {K : Type} (r : K → K → Prop) (f : ObjectId → ObjectId)
    (A : ObjectId → Prop) : KeyFrameValue K → KeyFrameValue K → Prop
  | scalar {x y : K} : r x y → Counterpart r f A (.scalar x) (.scalar y)
  | vector2 {v w : Vec2 K} : v.Like r w → Counterpart r f A (.vector2 v) (.vector2 w)
  | vector3 {v w : Vec3 K} : v.Like r w → Counterpart r f A (.vector3 v) (.vector3 w)
  | vector4 {v w : Vec4 K} : v.Like r w → Counterpart r f A (.vector4 v) (.vector4 w)
  | color (c : Color) : Counterpart r f A (.color c) (.color c)
  | boolean (b : Bool) : Counterpart r f A (.boolean b) (.boolean b)
  | path {p : ObjectId} : A p → Counterpart r f A (.path p) (.path (f p))
  | expression (text : String) : Counterpart r f A (.expression text) (.expression text)

/-- At a related point, with a value and an easing that are counterparts. -/
structure KeyFrame.Counterpart {K : Type} (r : K → K → Prop) (f : ObjectId → ObjectId)
    (k k' : KeyFrame K) : Prop where
  progress : r k.progress k'.progress
  value : k.value.Counterpart r f (fun _ => True) k'.value
  easing : k'.easing = k.easing.map f

/-- Equally long, with key frames that are counterparts. -/
structure KeyFrameAnimation.Counterpart {K : Type} (r : K → K → Prop) (f : ObjectId → ObjectId)
    (a a' : KeyFrameAnimation K) : Prop where
  duration : a'.duration = a.duration
  frames : List.Forall₂ (KeyFrame.Counterpart r f) a.frames a'.frames

/-- Related properties, where unset means the default. -/
def LikeOr {α : Type} (R : α → α → Prop) (default : α) (x y : Option α) : Prop :=
  R (x.getD default) (y.getD default)

theorem LikeOr.refl {α : Type} {R : α → α → Prop} (hrefl : ∀ a, R a a) (d : α) (x : Option α) :
    LikeOr R d x x :=
  hrefl _

/-- Counterparts of counterparts, each with the default in place of what is not set. -/
theorem LikeOr.trans {α : Type} {R : α → α → Prop} (htrans : ∀ {a b c}, R a b → R b c → R a c)
    {d : α} {x y z : Option α} (h : LikeOr R d x y) (h' : LikeOr R d y z) : LikeOr R d x z :=
  htrans h h'

/-- The same part of an outline. -/
structure Trim.Like {K : Type} [Scalar K] (r : K → K → Prop) (t t' : Trim K) : Prop where
  start : LikeOr r 0 t.start t'.start
  stop : LikeOr r 1 t.stop t'.stop
  offset : LikeOr r 0 t.offset t'.offset

/-- What stands for a content in another scene, as far as sampling reads it as a part. -/
inductive Content.Counterpart {K : Type} [Scalar K] (r : K → K → Prop) (f : ObjectId → ObjectId) :
    Content K → Content K → Prop
  | containerVisual (v v' : Visual K) (cs cs' : List ObjectId) :
      Counterpart r f (.containerVisual v cs) (.containerVisual v' cs')
  | shapeVisual (v v' : Visual K) (cs cs' : List ObjectId) :
      Counterpart r f (.shapeVisual v cs) (.shapeVisual v' cs')
  | containerShape (t t' : ShapeTransform K) (cs cs' : List ObjectId) :
      Counterpart r f (.containerShape t cs) (.containerShape t' cs')
  | spriteShape (s s' : Sprite K) : Counterpart r f (.spriteShape s) (.spriteShape s')
  | ellipseGeometry {t t' : Trim K} {c c' d d' : Option (Vec2 K)} : t.Like r t' →
      LikeOr (Vec2.Like r) .zero c c' → LikeOr (Vec2.Like r) .zero d d' →
      Counterpart r f (.ellipseGeometry t c d) (.ellipseGeometry t' c' d')
  | rectangleGeometry {t t' : Trim K} {o o' d d' : Option (Vec2 K)} : t.Like r t' →
      LikeOr (Vec2.Like r) .zero o o' → LikeOr (Vec2.Like r) .zero d d' →
      Counterpart r f (.rectangleGeometry t o d) (.rectangleGeometry t' o' d')
  | roundedRectangleGeometry {t t' : Trim K} {o o' d d' c c' : Option (Vec2 K)} : t.Like r t' →
      LikeOr (Vec2.Like r) .zero o o' → LikeOr (Vec2.Like r) .zero d d' →
      LikeOr (Vec2.Like r) .zero c c' →
      Counterpart r f (.roundedRectangleGeometry t o d c) (.roundedRectangleGeometry t' o' d' c')
  | pathGeometry {t t' : Trim K} (p : Option ObjectId) : t.Like r t' →
      Counterpart r f (.pathGeometry t p) (.pathGeometry t' (p.map f))
  | path (p : Option ObjectId) : Counterpart r f (.path p) (.path (p.map f))
  | figures {mode mode' : Option FillMode} {gs gs' : List (Figure K)} :
      mode.getD .alternate = mode'.getD .alternate → List.Forall₂ (Figure.Like r) gs gs' →
      Counterpart r f (.geometry (.figures mode gs)) (.geometry (.figures mode' gs'))
  | group {mode mode' : Option FillMode} (gs : List ObjectId) :
      mode.getD .alternate = mode'.getD .alternate →
      Counterpart r f (.geometry (.group mode gs)) (.geometry (.group mode' (gs.map f)))
  | transformed (g : ObjectId) {m m' : Matrix3x2 K} : m.Like r m' →
      Counterpart r f (.geometry (.transformed g m)) (.geometry (.transformed (f g) m'))
  | colorBrush (c : Option Color) : Counterpart r f (.colorBrush c) (.colorBrush c)
  | insetClip (a b c d a' b' c' d' : Option K) :
      Counterpart r f (.insetClip a b c d) (.insetClip a' b' c' d')
  | geometricClip (g g' : Option ObjectId) : Counterpart r f (.geometricClip g) (.geometricClip g')
  | linearEasing : Counterpart r f .linearEasing .linearEasing
  | cubicBezierEasing {c c' d d' : Vec2 K} : c.Like r c' → d.Like r d' →
      Counterpart r f (.cubicBezierEasing c d) (.cubicBezierEasing c' d')
  | stepEasing {n n' : Option Int32} (i i' j j' : Option Bool) : n.getD 1 = n'.getD 1 →
      Counterpart r f (.stepEasing n i j) (.stepEasing n' i' j')
  | keyFrameAnimation {a a' : KeyFrameAnimation K} : a.Counterpart r f a' →
      Counterpart r f (.keyFrameAnimation a) (.keyFrameAnimation a')
  | expressionAnimation {a a' : ExpressionAnimation} : a'.expression = a.expression →
      Counterpart r f (.expressionAnimation a) (.expressionAnimation a')
  | animationController (b b' : Bool) :
      Counterpart r f (.animationController b) (.animationController b')
  | propertySet : Counterpart r f .propertySet .propertySet
  | external (n n' : String) : Counterpart r f (.external n) (.external n')

/-- Counterparts run the counterparts of the animations that drive each other's properties. -/
structure Object.Counterpart {K : Type} [Scalar K] (r : K → K → Prop) (f : ObjectId → ObjectId)
    (o o' : Object K) : Prop where
  animators : o'.attached.animators = o.attached.animators.map (·.mapIds f)
  content : o.content.Counterpart r f o'.content

section

open Scalar (Respects)

variable {K : Type} [Scalar K] {r : K → K → Prop} [Respects r] {f : ObjectId → ObjectId}

/-! ## Composition -/

omit [Scalar K] [Respects r] in
/-- It is enough that the path of a value is in the set, if the value has one. -/
theorem KeyFrameValue.Counterpart.inside {A : ObjectId → Prop} {v v' : KeyFrameValue K}
    (h : v.Counterpart r f (fun _ => True) v') (hA : ∀ p, v = .path p → A p) :
    v.Counterpart r f A v' := by
  cases h with
  | path _ => exact .path (hA _ rfl)
  | scalar h => exact .scalar h
  | vector2 h => exact .vector2 h
  | vector3 h => exact .vector3 h
  | vector4 h => exact .vector4 h
  | color c => exact .color c
  | boolean b => exact .boolean b
  | expression text => exact .expression text

/-- First under other ids, then with other scalars. -/
theorem KeyFrameValue.Counterpart.trans {u v w : KeyFrameValue K}
    (h : u.Counterpart r f (fun _ => True) v) (h' : v.Counterpart r id (fun _ => True) w) :
    u.Counterpart r f (fun _ => True) w := by
  cases h with
  | scalar hx => cases h' with | scalar hx' => exact .scalar (Respects.trans hx hx')
  | vector2 hx => cases h' with | vector2 hx' => exact .vector2 (hx.trans hx')
  | vector3 hx => cases h' with | vector3 hx' => exact .vector3 (hx.trans hx')
  | vector4 hx => cases h' with | vector4 hx' => exact .vector4 (hx.trans hx')
  | color c => cases h' with | color _ => exact .color c
  | boolean b => cases h' with | boolean _ => exact .boolean b
  | path hp => cases h' with | path _ => exact .path hp
  | expression text => cases h' with | expression _ => exact .expression text

theorem KeyFrame.Counterpart.trans {i j k : KeyFrame K} (h : i.Counterpart r f j)
    (h' : j.Counterpart r id k) : i.Counterpart r f k where
  progress := Respects.trans h.progress h'.progress
  value := h.value.trans h'.value
  easing := by rw [h'.easing, h.easing, Option.map_id_fun, id]

/-- Animations are compared by their key frames, in order. -/
theorem KeyFrameAnimation.Counterpart.trans {a b c : KeyFrameAnimation K}
    (h : a.Counterpart r f b) (h' : b.Counterpart r id c) : a.Counterpart r f c where
  duration := h'.duration.trans h.duration
  frames := forall₂_through h.frames h'.frames fun _ _ _ => KeyFrame.Counterpart.trans

theorem Trim.Like.trans {t u v : Trim K} (h : t.Like r u) (h' : u.Like r v) : t.Like r v :=
  ⟨.trans Respects.trans h.start h'.start, .trans Respects.trans h.stop h'.stop,
    .trans Respects.trans h.offset h'.offset⟩

/-- A counterpart that is changed by less than sampling reads stays a counterpart. -/
theorem Content.Counterpart.trans {a b c : Content K} (h : a.Counterpart r f b)
    (h' : b.Counterpart r id c) : a.Counterpart r f c := by
  cases h with
  | containerVisual => cases h' with | containerVisual => exact .containerVisual ..
  | shapeVisual => cases h' with | shapeVisual => exact .shapeVisual ..
  | containerShape => cases h' with | containerShape => exact .containerShape ..
  | spriteShape => cases h' with | spriteShape => exact .spriteShape ..
  | ellipseGeometry ht hc hd =>
    cases h' with
    | ellipseGeometry ht' hc' hd' =>
      exact .ellipseGeometry (ht.trans ht') (.trans Vec2.Like.trans hc hc')
        (.trans Vec2.Like.trans hd hd')
  | rectangleGeometry ht ho hd =>
    cases h' with
    | rectangleGeometry ht' ho' hd' =>
      exact .rectangleGeometry (ht.trans ht') (.trans Vec2.Like.trans ho ho')
        (.trans Vec2.Like.trans hd hd')
  | roundedRectangleGeometry ht ho hd hc =>
    cases h' with
    | roundedRectangleGeometry ht' ho' hd' hc' =>
      exact .roundedRectangleGeometry (ht.trans ht') (.trans Vec2.Like.trans ho ho')
        (.trans Vec2.Like.trans hd hd') (.trans Vec2.Like.trans hc hc')
  | pathGeometry p ht =>
    cases h' with
    | pathGeometry _ ht' =>
      rw [Option.map_id_fun, id]
      exact .pathGeometry p (ht.trans ht')
  | path p =>
    cases h' with
    | path =>
      rw [Option.map_id_fun, id]
      exact .path p
  | figures hmode hfigures =>
    cases h' with
    | figures hmode' hfigures' =>
      exact .figures (hmode.trans hmode')
        (forall₂_through hfigures hfigures' fun _ _ _ => Figure.Like.trans)
  | group gs hmode =>
    cases h' with
    | group _ hmode' =>
      rw [List.map_id_fun, id]
      exact .group gs (hmode.trans hmode')
  | transformed g hm => cases h' with | transformed _ hm' => exact .transformed g (hm.trans hm')
  | colorBrush c => cases h' with | colorBrush => exact .colorBrush c
  | insetClip => cases h' with | insetClip => exact .insetClip ..
  | geometricClip => cases h' with | geometricClip => exact .geometricClip ..
  | linearEasing => cases h' with | linearEasing => exact .linearEasing
  | cubicBezierEasing hc hd =>
    cases h' with
    | cubicBezierEasing hc' hd' => exact .cubicBezierEasing (hc.trans hc') (hd.trans hd')
  | stepEasing _ _ _ _ hn =>
    cases h' with | stepEasing _ _ _ _ hn' => exact .stepEasing _ _ _ _ (hn.trans hn')
  | keyFrameAnimation ha =>
    cases h' with | keyFrameAnimation ha' => exact .keyFrameAnimation (ha.trans ha')
  | expressionAnimation ha =>
    cases h' with | expressionAnimation ha' => exact .expressionAnimation (ha'.trans ha)
  | animationController => cases h' with | animationController => exact .animationController ..
  | propertySet => cases h' with | propertySet => exact .propertySet
  | external => cases h' with | external => exact .external ..

/-! ## Renaming -/

theorem Trim.Like.refl (t : Trim K) : t.Like r t :=
  ⟨.refl Respects.refl 0 _, .refl Respects.refl 1 _, .refl Respects.refl 0 _⟩

/-- A vector that may be unset is its own counterpart. -/
theorem Vec2.likeOr_refl (d : Vec2 K) (v : Option (Vec2 K)) : LikeOr (Vec2.Like r) d v v :=
  .refl Vec2.Like.refl d v

/-- A renamed value is a counterpart whatever the set is, since every path is renamed. -/
theorem KeyFrameValue.counterpart_mapIds (v : KeyFrameValue K) :
    v.Counterpart r f (fun _ => True) (v.mapIds f) := by
  cases v with
  | scalar x => exact .scalar (Respects.refl x)
  | vector2 v => exact .vector2 (.refl v)
  | vector3 v => exact .vector3 (.refl v)
  | vector4 v => exact .vector4 (.refl v)
  | color c => exact .color c
  | boolean b => exact .boolean b
  | path p => exact .path trivial
  | expression text => exact .expression text

/-- A renamed animation has the same times and the renamed key frames. -/
theorem KeyFrameAnimation.counterpart_mapIds (a : KeyFrameAnimation K) :
    a.Counterpart r f (a.mapIds f) where
  duration := rfl
  frames := by
    simp only [KeyFrameAnimation.mapIds]
    rw [List.forall₂_map_right_iff, List.forall₂_same]
    intro k _
    exact ⟨Respects.refl _, k.value.counterpart_mapIds, rfl⟩

/-- Renamed contents are counterparts. -/
theorem Content.counterpart_mapIds (c : Content K) : c.Counterpart r f (c.mapIds f) := by
  cases c with
  | containerVisual v cs => exact .containerVisual ..
  | shapeVisual v cs => exact .shapeVisual ..
  | containerShape t cs => exact .containerShape ..
  | spriteShape s => exact .spriteShape ..
  | ellipseGeometry t c d =>
    exact .ellipseGeometry (.refl t) (Vec2.likeOr_refl .zero c) (Vec2.likeOr_refl .zero d)
  | rectangleGeometry t o d =>
    exact .rectangleGeometry (.refl t) (Vec2.likeOr_refl .zero o) (Vec2.likeOr_refl .zero d)
  | roundedRectangleGeometry t o d c =>
    exact .roundedRectangleGeometry (.refl t) (Vec2.likeOr_refl .zero o) (Vec2.likeOr_refl .zero d)
      (Vec2.likeOr_refl .zero c)
  | pathGeometry t p => exact .pathGeometry p (.refl t)
  | path p => exact .path p
  | geometry outline =>
    cases outline with
    | figures mode gs => exact .figures rfl (List.forall₂_same.mpr fun g _ => .refl g)
    | group mode gs => exact .group gs rfl
    | transformed g m => exact .transformed g (.refl m)
  | colorBrush c => exact .colorBrush c
  | insetClip a b c d => exact .insetClip ..
  | geometricClip g => exact .geometricClip ..
  | linearEasing => exact .linearEasing
  | cubicBezierEasing c d => exact .cubicBezierEasing (.refl c) (.refl d)
  | stepEasing n i j => exact .stepEasing _ _ _ _ rfl
  | keyFrameAnimation a => exact .keyFrameAnimation a.counterpart_mapIds
  | expressionAnimation a => exact .expressionAnimation rfl
  | animationController b => exact .animationController ..
  | propertySet => exact .propertySet
  | external n => exact .external ..

/-- Every content is a counterpart of itself. -/
theorem Content.Counterpart.refl (c : Content K) : c.Counterpart r id c := by
  simpa only [Content.mapIds_id] using Content.counterpart_mapIds (r := r) (f := id) c

/-! ## Equal words -/

section

variable {L : Type} {w : K → L} (hw : ∀ {x y : K}, w x = w y → r x y)

include hw

omit [Scalar K] [Respects r] in
/-- Vectors whose components have one word each are related, and likewise below. -/
theorem Vec2.like_of_map_eq {v v' : Vec2 K} (h : v.map w = v'.map w) : v.Like r v' := by
  obtain ⟨hx, hy⟩ := Vec2.mk.inj h
  exact ⟨hw hx, hw hy⟩

omit [Scalar K] [Respects r] in
theorem Vec3.like_of_map_eq {v v' : Vec3 K} (h : v.map w = v'.map w) : v.Like r v' := by
  obtain ⟨hx, hy, hz⟩ := Vec3.mk.inj h
  exact ⟨hw hx, hw hy, hw hz⟩

omit [Scalar K] [Respects r] in
theorem Vec4.like_of_map_eq {v v' : Vec4 K} (h : v.map w = v'.map w) : v.Like r v' := by
  obtain ⟨hx, hy, hz, hw'⟩ := Vec4.mk.inj h
  exact ⟨hw hx, hw hy, hw hz, hw hw'⟩

omit [Scalar K] [Respects r] in
/-- Matrices whose entries have one word each are related. -/
theorem Matrix3x2.like_of_map_eq {m m' : Matrix3x2 K} (h : m.map w = m'.map w) : m.Like r m' := by
  obtain ⟨h11, h12, h21, h22, h31, h32⟩ := Matrix3x2.mk.inj h
  exact ⟨hw h11, hw h12, hw h21, hw h22, hw h31, hw h32⟩

omit hw [Scalar K] [Respects r] in
/-- Values with one image are related, also where both are unset. -/
theorem LikeOr.of_map_eq {α β : Type} {R : α → α → Prop} {g : α → β} (hrefl : ∀ a, R a a)
    (hg : ∀ {a b}, g a = g b → R a b) {d : α} {x y : Option α} (h : x.map g = y.map g) :
    LikeOr R d x y := by
  cases x with
  | none =>
    cases y with
    | none => exact hrefl d
    | some b => nomatch h
  | some a =>
    cases y with
    | none => nomatch h
    | some b => exact hg (Option.some.inj h)

theorem Vec2.likeOr_of_map_eq {v v' : Option (Vec2 K)}
    (h : v.map (·.map w) = v'.map (·.map w)) : LikeOr (Vec2.Like r) .zero v v' :=
  LikeOr.of_map_eq (R := Vec2.Like r) Vec2.Like.refl (Vec2.like_of_map_eq hw) h

/-- Trims with one image have related bounds, set or unset together. -/
theorem Trim.like_of_mapScalars_eq {t t' : Trim K} (h : t.mapScalars w = t'.mapScalars w) :
    t.Like r t' := by
  obtain ⟨hstart, hstop, hoffset⟩ := Trim.mk.inj h
  exact ⟨.of_map_eq Respects.refl hw hstart, .of_map_eq Respects.refl hw hstop,
    .of_map_eq Respects.refl hw hoffset⟩

omit hw [Scalar K] [Respects r] in
/-- Lists with one image are related entry by entry. -/
theorem forall₂_of_map_eq {α β : Type} {R : α → α → Prop} {g : α → β} {as bs : List α}
    (h : as.map g = bs.map g) (hR : ∀ a b, g a = g b → R a b) : List.Forall₂ R as bs := by
  rw [← List.forall₂_eq_eq_eq, List.forall₂_map_left_iff, List.forall₂_map_right_iff] at h
  exact h.imp hR

omit [Scalar K] [Respects r] in
/-- Pieces with one image are of one sort and have related points. -/
theorem Segment.like_of_mapScalars_eq {a b : Segment K} (h : a.mapScalars w = b.mapScalars w) :
    a.Like r b := by
  cases a with
  | line p =>
    cases b with
    | line q => exact .line (Vec2.like_of_map_eq hw (Segment.line.inj h))
    | cubic => nomatch h
  | cubic p q d =>
    cases b with
    | line => nomatch h
    | cubic p' q' d' =>
      obtain ⟨hp, hq, hd⟩ := Segment.cubic.inj h
      exact .cubic (Vec2.like_of_map_eq hw hp) (Vec2.like_of_map_eq hw hq)
        (Vec2.like_of_map_eq hw hd)

omit [Scalar K] [Respects r] in
/-- Figures with one image are closed together and have related points. -/
theorem Figure.like_of_mapScalars_eq {a b : Figure K} (h : a.mapScalars w = b.mapScalars w) :
    a.Like r b := by
  obtain ⟨hstart, hsegments, hclosed⟩ := Figure.mk.inj h
  exact ⟨Vec2.like_of_map_eq hw hstart,
    forall₂_of_map_eq hsegments fun _ _ => Segment.like_of_mapScalars_eq hw, hclosed⟩

omit [Scalar K] [Respects r] in
/-- Values with one image are of one type; a path is the same path. -/
theorem KeyFrameValue.counterpart_of_mapScalars_eq {v v' : KeyFrameValue K}
    (h : v.mapScalars w = v'.mapScalars w) : v.Counterpart r id (fun _ => True) v' := by
  cases v with
  | scalar x =>
    cases v' with
    | scalar y => exact .scalar (hw (KeyFrameValue.scalar.inj h))
    | _ => nomatch h
  | vector2 v =>
    cases v' with
    | vector2 v' => exact .vector2 (Vec2.like_of_map_eq hw (KeyFrameValue.vector2.inj h))
    | _ => nomatch h
  | vector3 v =>
    cases v' with
    | vector3 v' => exact .vector3 (Vec3.like_of_map_eq hw (KeyFrameValue.vector3.inj h))
    | _ => nomatch h
  | vector4 v =>
    cases v' with
    | vector4 v' => exact .vector4 (Vec4.like_of_map_eq hw (KeyFrameValue.vector4.inj h))
    | _ => nomatch h
  | color c =>
    cases v' with
    | color c' =>
      cases h
      exact .color c
    | _ => nomatch h
  | boolean b =>
    cases v' with
    | boolean b' =>
      cases h
      exact .boolean b
    | _ => nomatch h
  | path p =>
    cases v' with
    | path p' =>
      cases h
      exact .path trivial
    | _ => nomatch h
  | expression text =>
    cases v' with
    | expression text' =>
      cases h
      exact .expression text
    | _ => nomatch h

omit [Scalar K] [Respects r] in
/-- Key frames with one image stand at related places and have the same easing. -/
theorem KeyFrame.counterpart_of_mapScalars_eq {k k' : KeyFrame K}
    (h : k.mapScalars w = k'.mapScalars w) : k.Counterpart r id k' := by
  obtain ⟨hprogress, hvalue, heasing⟩ := KeyFrame.mk.inj h
  refine ⟨hw hprogress, KeyFrameValue.counterpart_of_mapScalars_eq hw hvalue, ?_⟩
  rw [Option.map_id_fun, id]
  exact heasing.symm

omit [Scalar K] [Respects r] in
/-- Animations with one image differ in scalars only. -/
theorem KeyFrameAnimation.counterpart_of_mapScalars_eq {a a' : KeyFrameAnimation K}
    (h : a.mapScalars w = a'.mapScalars w) : a.Counterpart r id a' := by
  obtain ⟨-, hduration, -, hframes⟩ := KeyFrameAnimation.mk.inj h
  exact ⟨hduration.symm,
    forall₂_of_map_eq hframes fun _ _ => KeyFrame.counterpart_of_mapScalars_eq hw⟩

omit [Respects r] in
/-- Outlines with one image are made in the same way from the same geometries. -/
theorem Outline.counterpart_of_mapScalars_eq {g g' : Outline K}
    (h : g.mapScalars w = g'.mapScalars w) :
    (Content.geometry g).Counterpart r id (.geometry g') := by
  cases g with
  | figures mode gs =>
    cases g' with
    | figures mode' gs' =>
      obtain ⟨rfl, hgs⟩ := Outline.figures.inj h
      exact .figures rfl (forall₂_of_map_eq hgs fun _ _ => Figure.like_of_mapScalars_eq hw)
    | _ => nomatch h
  | group mode gs =>
    cases g' with
    | group mode' gs' =>
      obtain ⟨rfl, rfl⟩ := Outline.group.inj h
      have hgroup : (Content.geometry (.group mode gs)).Counterpart r id
          (.geometry (.group mode (gs.map id))) := .group gs rfl
      rwa [List.map_id_fun] at hgroup
    | _ => nomatch h
  | transformed source m =>
    cases g' with
    | transformed source' m' =>
      obtain ⟨rfl, hm⟩ := Outline.transformed.inj h
      exact .transformed source (Matrix3x2.like_of_map_eq hw hm)
    | _ => nomatch h

/-- Contents that differ in scalars only, and only in such with equal words, are counterparts. -/
theorem Content.counterpart_of_mapScalars_eq {c c' : Content K}
    (h : c.mapScalars w = c'.mapScalars w) : c.Counterpart r id c' := by
  cases c with
  | containerVisual => cases c' with | containerVisual => exact .containerVisual .. | _ => nomatch h
  | shapeVisual => cases c' with | shapeVisual => exact .shapeVisual .. | _ => nomatch h
  | containerShape => cases c' with | containerShape => exact .containerShape .. | _ => nomatch h
  | spriteShape => cases c' with | spriteShape => exact .spriteShape .. | _ => nomatch h
  | ellipseGeometry t c d =>
    cases c' with
    | ellipseGeometry t' c' d' =>
      obtain ⟨ht, hc, hd⟩ := Content.ellipseGeometry.inj h
      exact .ellipseGeometry (Trim.like_of_mapScalars_eq hw ht) (Vec2.likeOr_of_map_eq hw hc)
        (Vec2.likeOr_of_map_eq hw hd)
    | _ => nomatch h
  | rectangleGeometry t o d =>
    cases c' with
    | rectangleGeometry t' o' d' =>
      obtain ⟨ht, ho, hd⟩ := Content.rectangleGeometry.inj h
      exact .rectangleGeometry (Trim.like_of_mapScalars_eq hw ht) (Vec2.likeOr_of_map_eq hw ho)
        (Vec2.likeOr_of_map_eq hw hd)
    | _ => nomatch h
  | roundedRectangleGeometry t o d c =>
    cases c' with
    | roundedRectangleGeometry t' o' d' c' =>
      obtain ⟨ht, ho, hd, hc⟩ := Content.roundedRectangleGeometry.inj h
      exact .roundedRectangleGeometry (Trim.like_of_mapScalars_eq hw ht)
        (Vec2.likeOr_of_map_eq hw ho) (Vec2.likeOr_of_map_eq hw hd) (Vec2.likeOr_of_map_eq hw hc)
    | _ => nomatch h
  | pathGeometry t p =>
    cases c' with
    | pathGeometry t' p' =>
      obtain ⟨ht, rfl⟩ := Content.pathGeometry.inj h
      simpa using Content.Counterpart.pathGeometry (f := id) p (Trim.like_of_mapScalars_eq hw ht)
    | _ => nomatch h
  | path p =>
    cases c' with
    | path p' =>
      cases h
      simpa using Content.Counterpart.path (r := r) (f := id) p
    | _ => nomatch h
  | geometry g =>
    cases c' with
    | geometry g' => exact Outline.counterpart_of_mapScalars_eq hw (Content.geometry.inj h)
    | _ => nomatch h
  | colorBrush c =>
    cases c' with
    | colorBrush c' =>
      cases h
      exact .colorBrush c
    | _ => nomatch h
  | insetClip => cases c' with | insetClip => exact .insetClip .. | _ => nomatch h
  | geometricClip => cases c' with | geometricClip => exact .geometricClip .. | _ => nomatch h
  | linearEasing => cases c' with | linearEasing => exact .linearEasing | _ => nomatch h
  | cubicBezierEasing c d =>
    cases c' with
    | cubicBezierEasing c' d' =>
      obtain ⟨hc, hd⟩ := Content.cubicBezierEasing.inj h
      exact .cubicBezierEasing (Vec2.like_of_map_eq hw hc) (Vec2.like_of_map_eq hw hd)
    | _ => nomatch h
  | stepEasing n i j =>
    cases c' with
    | stepEasing n' i' j' => exact .stepEasing _ _ _ _ (by rw [(Content.stepEasing.inj h).1])
    | _ => nomatch h
  | keyFrameAnimation a =>
    cases c' with
    | keyFrameAnimation a' =>
      exact .keyFrameAnimation
        (KeyFrameAnimation.counterpart_of_mapScalars_eq hw (Content.keyFrameAnimation.inj h))
    | _ => nomatch h
  | expressionAnimation a =>
    cases c' with
    | expressionAnimation a' =>
      exact .expressionAnimation (by rw [Content.expressionAnimation.inj h])
    | _ => nomatch h
  | animationController =>
    cases c' with | animationController => exact .animationController .. | _ => nomatch h
  | propertySet => cases c' with | propertySet => exact .propertySet | _ => nomatch h
  | external => cases c' with | external => exact .external .. | _ => nomatch h

end

/-! ## Defaults -/

omit [Scalar K] [Respects r] in
/-- Unsetting a property with its default value leaves its value as it was. -/
theorem LikeOr.dropDefault {α : Type} [BEq α] {R : α → α → Prop} (hrefl : ∀ a, R a a)
    (hbeq : ∀ {a b}, (a == b) = true → R a b) (d : α) (x : Option α) :
    LikeOr R d x (dropDefault d x) := by
  cases x with
  | none => exact hrefl d
  | some a =>
    show LikeOr R d (some a) (if a == d then none else some a)
    by_cases h : (a == d) = true
    · rw [if_pos h]
      exact hbeq h
    · rw [if_neg h]
      exact hrefl a

section

variable (hbeq : ∀ {x y : K}, (x == y) = true → r x y)

include hbeq

omit [Respects r] in
/-- The test for equality is taken component by component. -/
theorem Vec2.like_of_beq {v v' : Vec2 K} (h : (v == v') = true) : v.Like r v' := by
  obtain ⟨hx, hy⟩ := Bool.and_eq_true_iff.mp h
  exact ⟨hbeq hx, hbeq hy⟩

omit [Respects r] in
theorem Vec3.like_of_beq {v v' : Vec3 K} (h : (v == v') = true) : v.Like r v' := by
  obtain ⟨hx, h⟩ := Bool.and_eq_true_iff.mp h
  obtain ⟨hy, hz⟩ := Bool.and_eq_true_iff.mp h
  exact ⟨hbeq hx, hbeq hy, hbeq hz⟩

omit [Respects r] in
theorem Vec4.like_of_beq {v v' : Vec4 K} (h : (v == v') = true) : v.Like r v' := by
  obtain ⟨hx, h⟩ := Bool.and_eq_true_iff.mp h
  obtain ⟨hy, h⟩ := Bool.and_eq_true_iff.mp h
  obtain ⟨hz, hw⟩ := Bool.and_eq_true_iff.mp h
  exact ⟨hbeq hx, hbeq hy, hbeq hz, hbeq hw⟩

omit [Respects r] in
/-- The test for equality is taken entry by entry. -/
theorem Matrix3x2.like_of_beq {m m' : Matrix3x2 K} (h : (m == m') = true) : m.Like r m' := by
  obtain ⟨h11, h⟩ := Bool.and_eq_true_iff.mp h
  obtain ⟨h12, h⟩ := Bool.and_eq_true_iff.mp h
  obtain ⟨h21, h⟩ := Bool.and_eq_true_iff.mp h
  obtain ⟨h22, h⟩ := Bool.and_eq_true_iff.mp h
  obtain ⟨h31, h32⟩ := Bool.and_eq_true_iff.mp h
  exact ⟨hbeq h11, hbeq h12, hbeq h21, hbeq h22, hbeq h31, hbeq h32⟩

omit [Respects r] in
theorem Matrix4x4.like_of_beq {m m' : Matrix4x4 K} (h : (m == m') = true) : m.Like r m' := by
  obtain ⟨h1, h⟩ := Bool.and_eq_true_iff.mp h
  obtain ⟨h2, h⟩ := Bool.and_eq_true_iff.mp h
  obtain ⟨h3, h4⟩ := Bool.and_eq_true_iff.mp h
  exact ⟨Vec4.like_of_beq hbeq h1, Vec4.like_of_beq hbeq h2, Vec4.like_of_beq hbeq h3,
    Vec4.like_of_beq hbeq h4⟩

/-- A vector that equals its default may as well be unset. -/
theorem Vec2.likeOr_dropDefault (d : Vec2 K) (v : Option (Vec2 K)) :
    LikeOr (Vec2.Like r) d v (dropDefault d v) :=
  .dropDefault Vec2.Like.refl (Vec2.like_of_beq hbeq) d v

/-- A bound that equals its default may as well be unset. -/
theorem Trim.like_withoutDefaults (t : Trim K) : t.Like r t.withoutDefaults :=
  ⟨.dropDefault Respects.refl hbeq 0 t.start, .dropDefault Respects.refl hbeq 1 t.stop,
    .dropDefault Respects.refl hbeq 0 t.offset⟩

/-- Unsetting defaults makes a counterpart. -/
theorem Content.counterpart_withoutDefaults (c : Content K) :
    c.Counterpart r id c.withoutDefaults := by
  have heq : ∀ {α : Type} [BEq α] [LawfulBEq α] (d : α) (x : Option α),
      x.getD d = (Diorama.dropDefault d x).getD d :=
    fun d x => LikeOr.dropDefault (R := Eq) (fun _ => rfl) eq_of_beq d x
  cases c with
  | containerVisual v cs => exact .containerVisual ..
  | shapeVisual v cs => exact .shapeVisual ..
  | containerShape t cs => exact .containerShape ..
  | spriteShape s => exact .spriteShape ..
  | ellipseGeometry t c d =>
    exact .ellipseGeometry (t.like_withoutDefaults hbeq) (Vec2.likeOr_dropDefault hbeq .zero c)
      (Vec2.likeOr_dropDefault hbeq .zero d)
  | rectangleGeometry t o d =>
    exact .rectangleGeometry (t.like_withoutDefaults hbeq) (Vec2.likeOr_dropDefault hbeq .zero o)
      (Vec2.likeOr_dropDefault hbeq .zero d)
  | roundedRectangleGeometry t o d c =>
    exact .roundedRectangleGeometry (t.like_withoutDefaults hbeq)
      (Vec2.likeOr_dropDefault hbeq .zero o)
      (Vec2.likeOr_dropDefault hbeq .zero d) (Vec2.likeOr_dropDefault hbeq .zero c)
  | pathGeometry t p =>
    have h := Content.Counterpart.pathGeometry (f := id) p (t.like_withoutDefaults hbeq)
    rwa [Option.map_id_fun] at h
  | geometry g =>
    cases g with
    | figures mode gs =>
      exact .figures (heq .alternate mode) (List.forall₂_same.mpr fun g _ => .refl g)
    | group mode gs =>
      have h := Content.Counterpart.group (r := r) (f := id) gs (heq .alternate mode)
      rwa [List.map_id_fun] at h
    | transformed g m => exact .transformed g (.refl m)
  | insetClip a b c d => exact .insetClip ..
  | stepEasing n i j => exact .stepEasing _ _ _ _ (heq 1 n)
  | _ => exact .refl _

end
end
end Diorama
