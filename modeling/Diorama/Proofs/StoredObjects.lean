/-
  Objects that are stored as JSON.

  A scalar of an object is loose where it is the whole value of a property that may be unset, such
  as an opacity, and fixed everywhere else: inside a vector or a matrix, in a list, in a key frame,
  in a property bag.  An object is stored as JSON exactly if its fixed scalars are numbers, and
  comes back without the loose scalars that are none (`Object.carries`).  `keepLoose` says what
  comes back; over objects whose scalars are all numbers it changes nothing.
-/
import Diorama.Proofs.StoredValues

namespace Diorama

/-! ## Fixed and loose scalars -/

section Scalars

variable {K : Type}

/-- The scalars of a value; colours and flags have none. -/
def PropertyValue.scalars : PropertyValue K → List K
  | .scalar x => [x]
  | .vector2 v => v.toList
  | .vector3 v => v.toList
  | .vector4 v => v.toList
  | .color _ => []
  | .boolean _ => []

/-- The scalars in the property bag, which is all that is attached and has any. -/
def Attachments.scalars (a : Attachments K) : List K :=
  a.properties.entries.flatMap fun e => e.2.scalars

/-- The scalars that stand in a vector or a matrix of a transform. -/
def ShapeTransform.fixedScalars (t : ShapeTransform K) : List K :=
  t.centerPoint.toList.flatMap Vec2.toList ++ t.offset.toList.flatMap Vec2.toList ++
    t.scale.toList.flatMap Vec2.toList ++ t.matrix.toList.flatMap Matrix3x2.toList

/-- The angle is the only setting of a shape's transform that is a scalar by itself. -/
def ShapeTransform.looseScalars (t : ShapeTransform K) : List K := t.rotation.toList

/-- The scalars that stand in a vector or a matrix of a visual. -/
def Visual.fixedScalars (v : Visual K) : List K :=
  v.centerPoint.toList.flatMap Vec3.toList ++ v.offset.toList.flatMap Vec3.toList ++
    v.scale.toList.flatMap Vec3.toList ++ v.matrix.toList.flatMap Matrix4x4.toList ++
    v.size.toList.flatMap Vec2.toList

/-- The settings of a visual that are scalars by themselves. -/
def Visual.looseScalars (v : Visual K) : List K := v.rotation.toList ++ v.opacity.toList

/-- The lengths of dashes and gaps: a list is stored as a whole. -/
def Stroke.fixedScalars (s : Stroke K) : List K := s.dashArray

/-- The settings of a stroke that are scalars by themselves. -/
def Stroke.looseScalars (s : Stroke K) : List K :=
  s.thickness.toList ++ s.miterLimit.toList ++ s.dashOffset.toList

/-- All bounds of a trim may be unset one by one. -/
def Trim.looseScalars (t : Trim K) : List K := t.start.toList ++ t.stop.toList ++ t.offset.toList

/-- The coordinates of the points of a piece of an outline. -/
def Segment.scalars : Segment K → List K
  | .line dest => dest.toList
  | .cubic control1 control2 dest => control1.toList ++ control2.toList ++ dest.toList

def Figure.scalars (f : Figure K) : List K := f.start.toList ++ f.segments.flatMap Segment.scalars

/-- The scalars of an outline, without those of the geometries it refers to. -/
def Outline.scalars : Outline K → List K
  | .figures _ fs => fs.flatMap Figure.scalars
  | .group _ _ => []
  | .transformed _ matrix => matrix.toList

/-- The scalars of the value at a key frame; an expression has none, whatever it computes. -/
def KeyFrameValue.scalars : KeyFrameValue K → List K
  | .scalar x => [x]
  | .vector2 v => v.toList
  | .vector3 v => v.toList
  | .vector4 v => v.toList
  | _ => []

/-- The place of a key frame comes before its value. -/
def KeyFrame.scalars (k : KeyFrame K) : List K := k.progress :: k.value.scalars

/-- The scalars of a content that cannot be left out. -/
def Content.fixedScalars : Content K → List K
  | .containerVisual visual _ => visual.fixedScalars
  | .shapeVisual visual _ => visual.fixedScalars
  | .containerShape transform _ => transform.fixedScalars
  | .spriteShape sprite => sprite.transform.fixedScalars ++ sprite.stroke.fixedScalars
  | .ellipseGeometry _ center radius =>
    center.toList.flatMap Vec2.toList ++ radius.toList.flatMap Vec2.toList
  | .rectangleGeometry _ offset size =>
    offset.toList.flatMap Vec2.toList ++ size.toList.flatMap Vec2.toList
  | .roundedRectangleGeometry _ offset size cornerRadius =>
    offset.toList.flatMap Vec2.toList ++ size.toList.flatMap Vec2.toList ++
      cornerRadius.toList.flatMap Vec2.toList
  | .geometry outline => outline.scalars
  | .cubicBezierEasing control1 control2 => control1.toList ++ control2.toList
  | .keyFrameAnimation animation => animation.frames.flatMap KeyFrame.scalars
  | _ => []

/-- The scalars of a content that are properties of their own and may be unset. -/
def Content.looseScalars : Content K → List K
  | .containerVisual visual _ => visual.looseScalars
  | .shapeVisual visual _ => visual.looseScalars
  | .containerShape transform _ => transform.looseScalars
  | .spriteShape sprite => sprite.transform.looseScalars ++ sprite.stroke.looseScalars
  | .ellipseGeometry trim _ _ => trim.looseScalars
  | .rectangleGeometry trim _ _ => trim.looseScalars
  | .roundedRectangleGeometry trim _ _ _ => trim.looseScalars
  | .pathGeometry trim _ => trim.looseScalars
  | .insetClip left top right bottom => left.toList ++ top.toList ++ right.toList ++ bottom.toList
  | _ => []

/-- What is attached to an object is fixed as a whole. -/
def Object.fixedScalars (o : Object K) : List K := o.attached.scalars ++ o.content.fixedScalars

def Object.looseScalars (o : Object K) : List K := o.content.looseScalars

/-! ## Unsetting loose scalars -/

variable (keep : K → Bool)

/-- The transform with the angle unset if it is not to be kept. -/
def ShapeTransform.keepLoose (t : ShapeTransform K) : ShapeTransform K :=
  { t with rotation := t.rotation.filter keep }

/-- The visual with its loose scalars unset one by one, where they are not to be kept. -/
def Visual.keepLoose (v : Visual K) : Visual K :=
  { v with rotation := v.rotation.filter keep, opacity := v.opacity.filter keep }

/-- The stroke with its loose scalars unset one by one, where they are not to be kept. -/
def Stroke.keepLoose (s : Stroke K) : Stroke K :=
  { s with
    thickness := s.thickness.filter keep
    miterLimit := s.miterLimit.filter keep
    dashOffset := s.dashOffset.filter keep }

/-- The trim with its bounds unset one by one, where they are not to be kept. -/
def Trim.keepLoose (t : Trim K) : Trim K :=
  ⟨t.start.filter keep, t.stop.filter keep, t.offset.filter keep⟩

/-- The content with the loose scalars unset that are not to be kept. -/
def Content.keepLoose : Content K → Content K
  | .containerVisual visual children => .containerVisual (visual.keepLoose keep) children
  | .shapeVisual visual shapes => .shapeVisual (visual.keepLoose keep) shapes
  | .containerShape transform shapes => .containerShape (transform.keepLoose keep) shapes
  | .spriteShape sprite =>
    .spriteShape { sprite with
      transform := sprite.transform.keepLoose keep
      stroke := sprite.stroke.keepLoose keep }
  | .ellipseGeometry trim center radius => .ellipseGeometry (trim.keepLoose keep) center radius
  | .rectangleGeometry trim offset size => .rectangleGeometry (trim.keepLoose keep) offset size
  | .roundedRectangleGeometry trim offset size cornerRadius =>
    .roundedRectangleGeometry (trim.keepLoose keep) offset size cornerRadius
  | .pathGeometry trim p => .pathGeometry (trim.keepLoose keep) p
  | .insetClip left top right bottom =>
    .insetClip (left.filter keep) (top.filter keep) (right.filter keep) (bottom.filter keep)
  | content => content

/-- The object with the loose scalars unset that are not to be kept. -/
def Object.keepLoose (o : Object K) : Object K := { o with content := o.content.keepLoose keep }

variable {keep}

/-- A property survives the test exactly if it is unset or passes it. -/
theorem filter_eq_self_iff {o : Option K} : o.filter keep = o ↔ ∀ x ∈ o.toList, keep x = true := by
  cases o with
  | none => simp
  | some x => by_cases hx : keep x = true <;> simp [Option.filter, hx]

/-- A transform keeps its angle exactly if the angle passes the test. -/
theorem ShapeTransform.keepLoose_eq_iff {t : ShapeTransform K} :
    t.keepLoose keep = t ↔ ∀ x ∈ t.looseScalars, keep x = true := by
  cases t
  simp only [keepLoose, looseScalars, ShapeTransform.mk.injEq, filter_eq_self_iff, true_and,
    and_true]

/-- A visual stays as it is exactly if each of its loose scalars is kept. -/
theorem Visual.keepLoose_eq_iff {v : Visual K} :
    v.keepLoose keep = v ↔ ∀ x ∈ v.looseScalars, keep x = true := by
  cases v
  simp only [keepLoose, looseScalars, Visual.mk.injEq, filter_eq_self_iff, true_and, and_true,
    List.forall_mem_append]

theorem Stroke.keepLoose_eq_iff {s : Stroke K} :
    s.keepLoose keep = s ↔ ∀ x ∈ s.looseScalars, keep x = true := by
  cases s
  simp only [keepLoose, looseScalars, Stroke.mk.injEq, filter_eq_self_iff, true_and, and_true,
    List.forall_mem_append, and_assoc]

theorem Trim.keepLoose_eq_iff {t : Trim K} :
    t.keepLoose keep = t ↔ ∀ x ∈ t.looseScalars, keep x = true := by
  cases t
  simp only [keepLoose, looseScalars, Trim.mk.injEq, filter_eq_self_iff, List.forall_mem_append,
    and_assoc]

/-- Nothing changes exactly if every loose scalar is kept. -/
theorem Content.keepLoose_eq_iff {c : Content K} :
    c.keepLoose keep = c ↔ ∀ x ∈ c.looseScalars, keep x = true := by
  cases c with
  | spriteShape sprite =>
    cases sprite
    simp only [keepLoose, looseScalars, Content.spriteShape.injEq, Sprite.mk.injEq,
      ShapeTransform.keepLoose_eq_iff, Stroke.keepLoose_eq_iff, true_and, List.forall_mem_append]
  | insetClip left top right bottom =>
    simp only [keepLoose, looseScalars, Content.insetClip.injEq, filter_eq_self_iff,
      List.forall_mem_append, and_assoc]
  | _ =>
    simp [keepLoose, looseScalars, ShapeTransform.keepLoose_eq_iff, Visual.keepLoose_eq_iff,
      Trim.keepLoose_eq_iff]

/-- An object stays as it is exactly if every loose scalar of it is kept. -/
theorem Object.keepLoose_eq_iff {o : Object K} :
    o.keepLoose keep = o ↔ ∀ x ∈ o.looseScalars, keep x = true := by
  cases o
  simp only [keepLoose, looseScalars, Object.mk.injEq, Content.keepLoose_eq_iff, true_and]

end Scalars

/-! ## Attachments -/

section

variable (depth : Nat)

/-- A reference that may be unset is stored as a number or as nothing. -/
theorem ObjectId.carries_option (o : Option ObjectId) :
    Json.Carries depth (.ofOption ObjectId.toJson o) (Json.orNull ObjectId.ofJson?) True o :=
  .plainOption (ObjectId.carries depth) rfl o

/-- References in a list come back in order. -/
theorem ObjectId.carries_list (ids : List ObjectId) :
    Json.Carries (depth + 1) (.ofList ObjectId.toJson ids)
      (Json.listOf ObjectId.ofJson?) True ids :=
  .plainList (ObjectId.carries depth) ids

theorem Json.carries_texts (o : Option String) :
    Json.Carries depth (.ofOption .text o) (Json.orNull Json.text?) True o :=
  .plainOption (Json.carries_text depth) rfl o

theorem Json.carries_bools (o : Option Bool) :
    Json.Carries depth (.ofOption Json.bool o) (Json.orNull Json.bool?) True o :=
  .plainOption (Json.carries_bool depth) rfl o

/-- A vector that may be unset comes back if all its components are numbers. -/
theorem Vec2.carries_option {o : Option (Vec2 Float32)} (h : Faithful (o.toList.flatMap toList)) :
    Json.Carries (depth + 1) (.ofOption Vec2.toJson o) (Json.orNull Vec2.ofJson?)
      (AllFinite (o.toList.flatMap toList)) o :=
  .scalarOption (fun _ => Vec2.carries depth) (fun _ => Json.echo_ofList_ne_null _ _) h

/-- A value of a property bag comes back under the name of its type. -/
theorem PropertyValue.carries {v : PropertyValue Float32} (h : Faithful v.scalars) :
    Json.Carries (depth + 2) v.toJson PropertyValue.ofJson? (AllFinite v.scalars) v := by
  cases v with
  | scalar x =>
    refine ((Json.carries_single (depth + 1) (h x (by simp [scalars]))).congr ?_).dataCase ?_
    · simp [scalars]
    · simp [ofJson?, Option.map_eq_bind]
  | vector2 v =>
    refine (Vec2.carries depth h).dataCase ?_
    simp [ofJson?, Option.map_eq_bind]
  | vector3 v =>
    refine (Vec3.carries depth h).dataCase ?_
    simp [ofJson?, Option.map_eq_bind]
  | vector4 v =>
    refine (Vec4.carries depth h).dataCase ?_
    simp [ofJson?, Option.map_eq_bind]
  | color c =>
    refine ((Color.carries depth c).congr ?_).dataCase ?_
    · simp [scalars]
    · simp [ofJson?, Option.map_eq_bind]
  | boolean b =>
    refine ((Json.carries_bool (depth + 1) b).congr ?_).dataCase ?_
    · simp [scalars]
    · simp [ofJson?, Option.map_eq_bind]

/-! ### Property bags -/

namespace PropertyBag

/-- A new name goes to the end of the bag. -/
theorem put_of_not_mem {K : Type} {name : String} {value : PropertyValue K}
    {entries : List (String × PropertyValue K)} (h : name ∉ entries.map Prod.fst) :
    put name value entries = entries ++ [(name, value)] := by
  induction entries with
  | nil => rfl
  | cons e rest ih =>
    rw [List.map_cons, List.mem_cons, not_or] at h
    rw [put, if_neg (Ne.symm h.1), ih h.2]
    rfl

/-- Entries with new names are added in order. -/
theorem foldlM_insert {entries : List (String × PropertyValue Float32)}
    (bag bag' : PropertyBag Float32) (hfaithful : ∀ e ∈ entries, Faithful e.2.scalars)
    (hnodup : ((bag.entries ++ entries).map Prod.fst).Nodup) :
    (entries.map fun e => (e.1, e.2.toJson.echo)).foldlM
        (fun bag m => do return bag.insert m.1 (← PropertyValue.ofJson? m.2)) bag = some bag' ↔
      (∀ e ∈ entries, AllFinite e.2.scalars) ∧ bag.entries ++ entries = bag'.entries := by
  induction entries generalizing bag with
  | nil =>
    obtain ⟨entries, _⟩ := bag
    obtain ⟨entries', _⟩ := bag'
    simp
  | cons e rest ih =>
    have he := PropertyValue.carries 0 (hfaithful e List.mem_cons_self)
    have hnew : e.1 ∉ bag.entries.map Prod.fst := by
      rw [List.map_append, List.map_cons, List.nodup_append] at hnodup
      intro hmem
      exact hnodup.2.2 _ hmem _ List.mem_cons_self rfl
    have hentries : (bag.insert e.1 e.2).entries = bag.entries ++ [e] := put_of_not_mem hnew
    have hnodup' : (((bag.insert e.1 e.2).entries ++ rest).map Prod.fst).Nodup := by
      rwa [hentries, List.append_assoc]
    have hrest := ih _ (fun d hd => hfaithful d (List.mem_cons_of_mem e hd)) hnodup'
    rw [hentries, List.append_assoc, List.singleton_append] at hrest
    rw [List.forall_mem_cons, and_assoc, ← hrest]
    simp [Option.bind_eq_some_iff, he.taken, and_assoc]

/-- A property bag comes back with its entries in order, since no name is there twice. -/
theorem carries {bag : PropertyBag Float32}
    (h : Faithful (bag.entries.flatMap fun e => e.2.scalars)) :
    Json.Carries (depth + 3) bag.toJson PropertyBag.ofJson?
      (AllFinite (bag.entries.flatMap fun e => e.2.scalars)) bag := by
  rw [faithful_flatMap] at h
  refine ⟨.object ?_, fun bag' => ?_⟩
  · intro m hm
    obtain ⟨e, he, rfl⟩ := List.mem_map.mp hm
    exact (PropertyValue.carries depth (h e he)).legible
  · have hfold := foldlM_insert empty bag' h bag.nodup
    obtain ⟨entries, _⟩ := bag
    obtain ⟨entries', _⟩ := bag'
    simpa [toJson, ofJson?, empty, Function.comp_def] using hfold

end PropertyBag

/-- An animator comes back with its animation and with its controller, if it has one. -/
theorem Animator.carries (a : Animator) :
    Json.Carries (depth + 1) a.toJson Animator.ofJson? True a := by
  have htarget := Json.carries_text depth a.target
  have hanimation := ObjectId.carries depth a.animation
  have hcontroller := ObjectId.carries_option depth a.controller
  refine ⟨.object ?_, fun b => ?_⟩
  · simp [htarget.legible, hanimation.legible, hcontroller.legible]
  · simp [toJson, ofJson?, Option.bind_eq_some_iff, hanimation.taken, hcontroller.taken]

/-- What is attached to an object comes back if the property bag does. -/
theorem Attachments.carries {a : Attachments Float32} (h : Faithful a.scalars) :
    Json.Carries (depth + 4) a.toJson Attachments.ofJson? (AllFinite a.scalars) a := by
  have hcomment := Json.carries_texts (depth + 3) a.comment
  have hshort := Json.carries_texts (depth + 3) a.shortDescription
  have hlong := Json.carries_texts (depth + 3) a.longDescription
  have hproperties := PropertyBag.carries depth h
  have hanimators := Json.Carries.plainList (Animator.carries (depth + 1)) a.animators
  refine ⟨.object ?_, fun b => ?_⟩
  · simp [hcomment.legible, hshort.legible, hlong.legible, hproperties.legible, hanimators.legible]
  · simp [toJson, ofJson?, Option.bind_eq_some_iff, hcomment.taken, hshort.taken, hlong.taken,
      hproperties.taken, hanimators.taken, scalars]

/-! ## Parts of contents -/

/-- A transform of a shape comes back, without an angle that is no number. -/
theorem ShapeTransform.carries {t : ShapeTransform Float32} (hfixed : Faithful t.fixedScalars)
    (hloose : Faithful t.looseScalars) :
    Json.Carries (depth + 2) t.toJson ShapeTransform.ofJson? (AllFinite t.fixedScalars)
      (t.keepLoose Float32.isFinite) := by
  simp only [fixedScalars, faithful_append] at hfixed
  obtain ⟨⟨⟨hcenter, hoffset⟩, hscale⟩, hmatrix⟩ := hfixed
  have hcenter := Vec2.carries_option depth hcenter
  have hoffset := Vec2.carries_option depth hoffset
  have hscale := Vec2.carries_option depth hscale
  have hrotation := Json.carries_loose (depth + 1) hloose
  have hmatrix := Json.Carries.scalarOption (fun _ => Matrix3x2.carries depth)
    (fun _ => Json.echo_ofList_ne_null _ _) hmatrix
  refine ⟨.object ?_, fun b => ?_⟩
  · simp [hcenter.legible, hoffset.legible, hscale.legible, hrotation.legible, hmatrix.legible]
  · simp [toJson, ofJson?, Option.bind_eq_some_iff, hcenter.taken, hoffset.taken, hscale.taken,
      hrotation.taken, hmatrix.taken, fixedScalars, keepLoose, and_assoc]

/-- A visual comes back, without the scalars by themselves that are no numbers. -/
theorem Visual.carries {v : Visual Float32} (hfixed : Faithful v.fixedScalars)
    (hloose : Faithful v.looseScalars) :
    Json.Carries (depth + 2) v.toJson Visual.ofJson? (AllFinite v.fixedScalars)
      (v.keepLoose Float32.isFinite) := by
  simp only [fixedScalars, faithful_append] at hfixed
  simp only [looseScalars, faithful_append] at hloose
  obtain ⟨⟨⟨⟨hcenter, hoffset⟩, hscale⟩, hmatrix⟩, hsize⟩ := hfixed
  have hcenter := Json.Carries.scalarOption (fun _ => Vec3.carries depth)
    (fun _ => Json.echo_ofList_ne_null _ _) hcenter
  have hoffset := Json.Carries.scalarOption (fun _ => Vec3.carries depth)
    (fun _ => Json.echo_ofList_ne_null _ _) hoffset
  have hscale := Json.Carries.scalarOption (fun _ => Vec3.carries depth)
    (fun _ => Json.echo_ofList_ne_null _ _) hscale
  have hrotation := Json.carries_loose (depth + 1) hloose.1
  have hmatrix := Json.Carries.scalarOption (fun _ => Matrix4x4.carries depth)
    (fun _ => Json.echo_ofList_ne_null _ _) hmatrix
  have hsize := Vec2.carries_option depth hsize
  have hopacity := Json.carries_loose (depth + 1) hloose.2
  have hvisible := Json.carries_bools (depth + 1) v.isVisible
  have hclip := ObjectId.carries_option (depth + 1) v.clip
  refine ⟨.object ?_, fun b => ?_⟩
  · simp [hcenter.legible, hoffset.legible, hscale.legible, hrotation.legible, hmatrix.legible,
      hsize.legible, hopacity.legible, hvisible.legible, hclip.legible]
  · simp [toJson, ofJson?, Option.bind_eq_some_iff, hcenter.taken, hoffset.taken, hscale.taken,
      hrotation.taken, hmatrix.taken, hsize.taken, hopacity.taken, hvisible.taken, hclip.taken,
      fixedScalars, keepLoose, and_assoc]

/-- The end of a stroke is stored under its name. -/
theorem StrokeCap.carries_option (o : Option StrokeCap) :
    Json.Carries depth (.ofOption (fun c => .text c.name) o)
      (Json.orNull StrokeCap.ofJson?) True o :=
  .plainOption (fun c => Json.carries_case depth (by cases c <;> rfl)) rfl o

/-- The corner of a stroke is stored under its name. -/
theorem LineJoin.carries_option (o : Option LineJoin) :
    Json.Carries depth (.ofOption (fun c => .text c.name) o)
      (Json.orNull LineJoin.ofJson?) True o :=
  .plainOption (fun c => Json.carries_case depth (by cases c <;> rfl)) rfl o

/-- The fill mode is stored under its name. -/
theorem FillMode.carries_option (o : Option FillMode) :
    Json.Carries depth (.ofOption (fun f => .text f.name) o)
      (Json.orNull FillMode.ofJson?) True o :=
  .plainOption (fun f => Json.carries_case depth (by cases f <;> rfl)) rfl o

/-- A stroke comes back without its loose scalars that are no numbers; its dashes must be
numbers. -/
theorem Stroke.carries {s : Stroke Float32} (hfixed : Faithful s.fixedScalars)
    (hloose : Faithful s.looseScalars) :
    Json.Carries (depth + 2) s.toJson Stroke.ofJson? (AllFinite s.fixedScalars)
      (s.keepLoose Float32.isFinite) := by
  rw [fixedScalars] at hfixed
  simp only [looseScalars, faithful_append] at hloose
  have hthickness := Json.carries_loose (depth + 1) hloose.1.1
  have hmiter := Json.carries_loose (depth + 1) hloose.1.2
  have hstart := StrokeCap.carries_option (depth + 1) s.startCap
  have hend := StrokeCap.carries_option (depth + 1) s.endCap
  have hdash := StrokeCap.carries_option (depth + 1) s.dashCap
  have hjoin := LineJoin.carries_option (depth + 1) s.lineJoin
  have hoffset := Json.carries_loose (depth + 1) hloose.2
  have harray := Json.carries_singles depth hfixed
  have hscaling := Json.carries_bools (depth + 1) s.isNonScaling
  refine ⟨.object ?_, fun b => ?_⟩
  · simp [hthickness.legible, hmiter.legible, hstart.legible, hend.legible, hdash.legible,
      hjoin.legible, hoffset.legible, hscaling.legible, harray.legible]
  · simp [toJson, ofJson?, Option.bind_eq_some_iff, hthickness.taken, hmiter.taken, hstart.taken,
      hend.taken, hdash.taken, hjoin.taken, hoffset.taken, hscaling.taken, harray.taken,
      fixedScalars, keepLoose]

/-- A trim always comes back, without the bounds that are no numbers. -/
theorem Trim.carries {t : Trim Float32} (hloose : Faithful t.looseScalars) :
    Json.Carries (depth + 1) t.toJson Trim.ofJson? True (t.keepLoose Float32.isFinite) := by
  simp only [looseScalars, faithful_append] at hloose
  have hstart := Json.carries_loose depth hloose.1.1
  have hstop := Json.carries_loose depth hloose.1.2
  have hoffset := Json.carries_loose depth hloose.2
  refine ⟨.object ?_, fun b => ?_⟩
  · simp [hstart.legible, hstop.legible, hoffset.legible]
  · simp [toJson, ofJson?, Option.bind_eq_some_iff, hstart.taken, hstop.taken, hoffset.taken,
      keepLoose]

/-- A piece of an outline comes back if its points are numbers. -/
theorem Segment.carries {s : Segment Float32} (h : Faithful s.scalars) :
    Json.Carries (depth + 2) s.toJson Segment.ofJson? (AllFinite s.scalars) s := by
  cases s with
  | line dest =>
    have hdest := Vec2.carries depth h
    refine ⟨.object ?_, fun b => ?_⟩
    · simp [hdest.legible, Json.Legible.text]
    · simp [toJson, ofJson?, Option.bind_eq_some_iff, hdest.taken, scalars, and_assoc]
  | cubic control1 control2 dest =>
    simp only [scalars, faithful_append] at h
    have hcontrol1 := Vec2.carries depth h.1.1
    have hcontrol2 := Vec2.carries depth h.1.2
    have hdest := Vec2.carries depth h.2
    refine ⟨.object ?_, fun b => ?_⟩
    · simp [hcontrol1.legible, hcontrol2.legible, hdest.legible, Json.Legible.text]
    · simp [toJson, ofJson?, Option.bind_eq_some_iff, hcontrol1.taken, hcontrol2.taken, hdest.taken,
        scalars, and_assoc]

/-- A figure comes back with its pieces in order. -/
theorem Figure.carries {f : Figure Float32} (h : Faithful f.scalars) :
    Json.Carries (depth + 4) f.toJson Figure.ofJson? (AllFinite f.scalars) f := by
  rw [scalars, faithful_append] at h
  have hstart := Vec2.carries (depth + 2) h.1
  have hsegments := Json.Carries.scalarList (fun _ => Segment.carries depth) h.2
  have hclosed := Json.carries_bool (depth + 3) f.closed
  refine ⟨.object ?_, fun b => ?_⟩
  · simp [hstart.legible, hsegments.legible, hclosed.legible]
  · simp [-allFinite_flatMap, toJson, ofJson?, Option.bind_eq_some_iff, hstart.taken,
      hsegments.taken, hclosed.taken, scalars, and_assoc]

/-- An outline comes back under the name of how it is made. -/
theorem Outline.carries {o : Outline Float32} (h : Faithful o.scalars) :
    Json.Carries (depth + 6) o.toJson Outline.ofJson? (AllFinite o.scalars) o := by
  cases o with
  | figures fillMode fs =>
    have hmode := FillMode.carries_option (depth + 5) fillMode
    have hfigures := Json.Carries.scalarList (fun _ => Figure.carries depth) h
    refine ⟨.object ?_, fun b => ?_⟩
    · simp [hmode.legible, hfigures.legible, Json.Legible.text]
    · simp [-allFinite_flatMap, toJson, ofJson?, Option.bind_eq_some_iff, hmode.taken,
        hfigures.taken, scalars, and_assoc]
  | group fillMode geometries =>
    have hmode := FillMode.carries_option (depth + 5) fillMode
    have hgeometries := ObjectId.carries_list (depth + 4) geometries
    refine ⟨.object ?_, fun b => ?_⟩
    · simp [hmode.legible, hgeometries.legible, Json.Legible.text]
    · simp [toJson, ofJson?, Option.bind_eq_some_iff, hmode.taken, hgeometries.taken, scalars]
  | transformed source matrix =>
    have hsource := ObjectId.carries (depth + 5) source
    have hmatrix := Matrix3x2.carries (depth + 4) h
    refine ⟨.object ?_, fun b => ?_⟩
    · simp [hsource.legible, hmatrix.legible, Json.Legible.text]
    · simp [toJson, ofJson?, Option.bind_eq_some_iff, hsource.taken, hmatrix.taken, scalars,
        and_assoc]

/-- The value at a key frame comes back under the name of its type. -/
theorem KeyFrameValue.carries {v : KeyFrameValue Float32} (h : Faithful v.scalars) :
    Json.Carries (depth + 2) v.toJson KeyFrameValue.ofJson? (AllFinite v.scalars) v := by
  cases v with
  | scalar x =>
    refine ((Json.carries_single (depth + 1) (h x (by simp [scalars]))).congr ?_).dataCase ?_
    · simp [scalars]
    · simp [ofJson?, Option.map_eq_bind]
  | vector2 v =>
    refine (Vec2.carries depth h).dataCase ?_
    simp [ofJson?, Option.map_eq_bind]
  | vector3 v =>
    refine (Vec3.carries depth h).dataCase ?_
    simp [ofJson?, Option.map_eq_bind]
  | vector4 v =>
    refine (Vec4.carries depth h).dataCase ?_
    simp [ofJson?, Option.map_eq_bind]
  | color c =>
    refine ((Color.carries depth c).congr ?_).dataCase ?_
    · simp [scalars]
    · simp [ofJson?, Option.map_eq_bind]
  | boolean b =>
    refine ((Json.carries_bool (depth + 1) b).congr ?_).dataCase ?_
    · simp [scalars]
    · simp [ofJson?, Option.map_eq_bind]
  | path id =>
    refine ((ObjectId.carries (depth + 1) id).congr ?_).dataCase ?_
    · simp [scalars]
    · simp [ofJson?, Option.map_eq_bind]
  | expression text =>
    refine ((Json.carries_text (depth + 1) text).congr ?_).dataCase ?_
    · simp [scalars]
    · simp [ofJson?, Option.map_eq_bind]

/-- A key frame comes back with its place, its value and its easing. -/
theorem KeyFrame.carries {k : KeyFrame Float32} (h : Faithful k.scalars) :
    Json.Carries (depth + 3) k.toJson KeyFrame.ofJson? (AllFinite k.scalars) k := by
  have hprogress := Json.carries_single (depth + 2) (h k.progress List.mem_cons_self)
  have hvalue := KeyFrameValue.carries depth fun x hx => h x (List.mem_cons_of_mem _ hx)
  have heasing := ObjectId.carries_option (depth + 2) k.easing
  refine ⟨.object ?_, fun b => ?_⟩
  · simp [hprogress.legible, hvalue.legible, heasing.legible]
  · simp [toJson, ofJson?, Option.bind_eq_some_iff, hprogress.taken, hvalue.taken, heasing.taken,
      scalars, and_assoc]

theorem Parameter.carries (p : Parameter) :
    Json.Carries (depth + 1) p.toJson Parameter.ofJson? True p := by
  have hname := Json.carries_text depth p.name
  have hobject := ObjectId.carries depth p.object
  refine ⟨.object ?_, fun b => ?_⟩
  · simp [hname.legible, hobject.legible]
  · simp [toJson, ofJson?, Option.bind_eq_some_iff, hobject.taken]

/-! ## Objects -/

/-- The fields of a content are read back, behind the ones that every object has. -/
structure Content.Carried (c : Content Float32) : Prop where
  legible : ∀ m ∈ c.fields, m.2.Legible (depth + 6)
  taken : ∀ (type attached : Json) (b : Content Float32),
    Content.ofFields?
        (("type", type) :: ("meta", attached) :: c.fields.map fun m => (m.1, m.2.echo))
        c.kind = some b ↔
      AllFinite c.fixedScalars ∧ c.keepLoose Float32.isFinite = b

/-- **The fields of every kind of content are read back.** Each kind has fields of its own, so it
has a case of its own; in each of them the parts are carried and the fields follow one after the
other. -/
theorem Content.carried {c : Content Float32} (hfixed : Faithful c.fixedScalars)
    (hloose : Faithful c.looseScalars) : c.Carried depth := by
  cases c with
  | containerVisual visual children =>
    have hvisual := Visual.carries (depth + 4) hfixed hloose
    have hchildren := ObjectId.carries_list (depth + 5) children
    refine ⟨?_, fun type attached b => ?_⟩
    · simp [fields, hvisual.legible, hchildren.legible]
    · simp [fields, kind, ofFields?, Option.bind_eq_some_iff, hvisual.taken, hchildren.taken,
        fixedScalars, keepLoose, and_assoc]
  | shapeVisual visual shapes =>
    have hvisual := Visual.carries (depth + 4) hfixed hloose
    have hshapes := ObjectId.carries_list (depth + 5) shapes
    refine ⟨?_, fun type attached b => ?_⟩
    · simp [fields, hvisual.legible, hshapes.legible]
    · simp [fields, kind, ofFields?, Option.bind_eq_some_iff, hvisual.taken, hshapes.taken,
        fixedScalars, keepLoose, and_assoc]
  | containerShape transform shapes =>
    have htransform := ShapeTransform.carries (depth + 4) hfixed hloose
    have hshapes := ObjectId.carries_list (depth + 5) shapes
    refine ⟨?_, fun type attached b => ?_⟩
    · simp [fields, htransform.legible, hshapes.legible]
    · simp [fields, kind, ofFields?, Option.bind_eq_some_iff, htransform.taken, hshapes.taken,
        fixedScalars, keepLoose, and_assoc]
  | spriteShape sprite =>
    rw [fixedScalars, faithful_append] at hfixed
    rw [looseScalars, faithful_append] at hloose
    have htransform := ShapeTransform.carries (depth + 4) hfixed.1 hloose.1
    have hgeometry := ObjectId.carries_option (depth + 6) sprite.geometry
    have hfill := ObjectId.carries_option (depth + 6) sprite.fillBrush
    have hbrush := ObjectId.carries_option (depth + 6) sprite.strokeBrush
    have hstroke := Stroke.carries (depth + 4) hfixed.2 hloose.2
    refine ⟨?_, fun type attached b => ?_⟩
    · simp [fields, htransform.legible, hgeometry.legible, hfill.legible, hbrush.legible,
        hstroke.legible]
    · simp [fields, kind, ofFields?, Option.bind_eq_some_iff, htransform.taken, hgeometry.taken,
        hfill.taken, hbrush.taken, hstroke.taken, fixedScalars, keepLoose, and_assoc]
  | ellipseGeometry trim center radius =>
    rw [fixedScalars, faithful_append] at hfixed
    have htrim := Trim.carries (depth + 5) hloose
    have hcenter := Vec2.carries_option (depth + 5) hfixed.1
    have hradius := Vec2.carries_option (depth + 5) hfixed.2
    refine ⟨?_, fun type attached b => ?_⟩
    · simp [fields, htrim.legible, hcenter.legible, hradius.legible]
    · simp [fields, kind, ofFields?, Option.bind_eq_some_iff, htrim.taken, hcenter.taken,
        hradius.taken, fixedScalars, keepLoose, and_assoc]
  | rectangleGeometry trim offset size =>
    rw [fixedScalars, faithful_append] at hfixed
    have htrim := Trim.carries (depth + 5) hloose
    have hoffset := Vec2.carries_option (depth + 5) hfixed.1
    have hsize := Vec2.carries_option (depth + 5) hfixed.2
    refine ⟨?_, fun type attached b => ?_⟩
    · simp [fields, htrim.legible, hoffset.legible, hsize.legible]
    · simp [fields, kind, ofFields?, Option.bind_eq_some_iff, htrim.taken, hoffset.taken,
        hsize.taken, fixedScalars, keepLoose, and_assoc]
  | roundedRectangleGeometry trim offset size cornerRadius =>
    simp only [fixedScalars, faithful_append] at hfixed
    have htrim := Trim.carries (depth + 5) hloose
    have hoffset := Vec2.carries_option (depth + 5) hfixed.1.1
    have hsize := Vec2.carries_option (depth + 5) hfixed.1.2
    have hradius := Vec2.carries_option (depth + 5) hfixed.2
    refine ⟨?_, fun type attached b => ?_⟩
    · simp [fields, htrim.legible, hoffset.legible, hsize.legible, hradius.legible]
    · simp [fields, kind, ofFields?, Option.bind_eq_some_iff, htrim.taken, hoffset.taken,
        hsize.taken, hradius.taken, fixedScalars, keepLoose, and_assoc]
  | pathGeometry trim p =>
    have htrim := Trim.carries (depth + 5) hloose
    have hpath := ObjectId.carries_option (depth + 6) p
    refine ⟨?_, fun type attached b => ?_⟩
    · simp [fields, htrim.legible, hpath.legible]
    · simp [fields, kind, ofFields?, Option.bind_eq_some_iff, htrim.taken, hpath.taken,
        fixedScalars, keepLoose]
  | path source =>
    have hsource := ObjectId.carries_option (depth + 6) source
    refine ⟨?_, fun type attached b => ?_⟩
    · simp [fields, hsource.legible]
    · simp [fields, kind, ofFields?, Option.bind_eq_some_iff, hsource.taken, fixedScalars,
        keepLoose]
  | geometry outline =>
    have houtline := Outline.carries depth hfixed
    refine ⟨?_, fun type attached b => ?_⟩
    · simp [fields, houtline.legible]
    · simp [fields, kind, ofFields?, Option.bind_eq_some_iff, houtline.taken, fixedScalars,
        keepLoose, and_assoc]
  | colorBrush color =>
    have hcolor := Json.Carries.plainOption (Color.carries (depth + 5)) rfl color
    refine ⟨?_, fun type attached b => ?_⟩
    · simp [fields, hcolor.legible]
    · simp [fields, kind, ofFields?, Option.bind_eq_some_iff, hcolor.taken, fixedScalars, keepLoose]
  | insetClip left top right bottom =>
    simp only [looseScalars, faithful_append] at hloose
    have hleft := Json.carries_loose (depth + 6) hloose.1.1.1
    have htop := Json.carries_loose (depth + 6) hloose.1.1.2
    have hright := Json.carries_loose (depth + 6) hloose.1.2
    have hbottom := Json.carries_loose (depth + 6) hloose.2
    refine ⟨?_, fun type attached b => ?_⟩
    · simp [fields, hleft.legible, htop.legible, hright.legible, hbottom.legible]
    · simp [fields, kind, ofFields?, Option.bind_eq_some_iff, hleft.taken, htop.taken, hright.taken,
        hbottom.taken, fixedScalars, keepLoose]
  | geometricClip g =>
    have hgeometry := ObjectId.carries_option (depth + 6) g
    refine ⟨?_, fun type attached b => ?_⟩
    · simp [fields, hgeometry.legible]
    · simp [fields, kind, ofFields?, Option.bind_eq_some_iff, hgeometry.taken, fixedScalars,
        keepLoose]
  | linearEasing =>
    refine ⟨by simp [fields], fun type attached b => ?_⟩
    simp [kind, ofFields?, fixedScalars, keepLoose]
  | cubicBezierEasing control1 control2 =>
    rw [fixedScalars, faithful_append] at hfixed
    have hcontrol1 := Vec2.carries (depth + 5) hfixed.1
    have hcontrol2 := Vec2.carries (depth + 5) hfixed.2
    refine ⟨?_, fun type attached b => ?_⟩
    · simp [fields, hcontrol1.legible, hcontrol2.legible]
    · simp [fields, kind, ofFields?, Option.bind_eq_some_iff, hcontrol1.taken, hcontrol2.taken,
        fixedScalars, keepLoose, and_assoc]
  | stepEasing steps initialSingle finalSingle =>
    have hsteps := Json.Carries.plainOption (Json.carries_int32 (depth + 6)) rfl steps
    have hinitial := Json.carries_bools (depth + 6) initialSingle
    have hfinal := Json.carries_bools (depth + 6) finalSingle
    refine ⟨?_, fun type attached b => ?_⟩
    · simp [fields, hsteps.legible, hinitial.legible, hfinal.legible]
    · simp [fields, kind, ofFields?, Option.bind_eq_some_iff, hsteps.taken, hinitial.taken,
        hfinal.taken, fixedScalars, keepLoose]
  | keyFrameAnimation animation =>
    have hkind : Json.Carries (depth + 6) (.text animation.kind.name) ValueKind.ofJson? True
      animation.kind := Json.carries_case (depth + 6) (by cases animation.kind <;> rfl)
    have hduration := Json.carries_int64 (depth + 6) animation.duration
    have htarget := Json.carries_texts (depth + 6) animation.target
    have hframes := Json.Carries.scalarList (fun _ => KeyFrame.carries (depth + 2)) hfixed
    refine ⟨?_, fun type attached b => ?_⟩
    · simp [fields, hkind.legible, hduration.legible, htarget.legible, hframes.legible]
    · have hkind := hkind.taken
      rw [Json.echo_text] at hkind
      simp [-allFinite_flatMap, fields, kind, ofFields?, Option.bind_eq_some_iff, hkind,
        hduration.taken, htarget.taken, hframes.taken, fixedScalars, keepLoose, and_assoc]
  | expressionAnimation animation =>
    have htarget := Json.carries_texts (depth + 6) animation.target
    have hparameters := Json.Carries.plainList (Parameter.carries (depth + 4)) animation.parameters
    refine ⟨?_, fun type attached b => ?_⟩
    · simp [fields, htarget.legible, hparameters.legible, Json.Legible.text]
    · simp [fields, kind, ofFields?, Option.bind_eq_some_iff, htarget.taken, hparameters.taken,
        fixedScalars, keepLoose]
  | animationController paused =>
    have hpaused := Json.carries_bool (depth + 6) paused
    refine ⟨?_, fun type attached b => ?_⟩
    · simp [fields, hpaused.legible]
    · simp [fields, kind, ofFields?, Option.bind_eq_some_iff, hpaused.taken, fixedScalars,
        keepLoose]
  | propertySet =>
    refine ⟨by simp [fields], fun type attached b => ?_⟩
    simp [kind, ofFields?, fixedScalars, keepLoose]
  | external typeName =>
    refine ⟨?_, fun type attached b => ?_⟩
    · simp [fields, Json.Legible.text]
    · simp [fields, kind, ofFields?, fixedScalars, keepLoose]

/-- No field of a content has one of the names that every object uses. -/
theorem Content.name_ne_of_mem_fields (c : Content Float32) :
    ∀ m ∈ c.fields, m.1 ≠ "type" ∧ m.1 ≠ "meta" := by
  cases c <;> simp [fields]

/-- **An object comes back exactly if its fixed scalars are numbers, and then without the loose ones
that are none.** -/
theorem Object.carries {o : Object Float32} (hfixed : Faithful o.fixedScalars)
    (hloose : Faithful o.looseScalars) :
    Json.Carries (depth + 7) o.toJson Object.ofJson? (AllFinite o.fixedScalars)
      (o.keepLoose Float32.isFinite) := by
  rw [fixedScalars, faithful_append] at hfixed
  have hkind :
      Json.Carries (depth + 6) (.text o.content.kind.tag) Kind.ofJson? True o.content.kind :=
    Json.carries_case (depth + 6) (by cases o.content.kind <;> rfl)
  have hattached := Attachments.carries (depth + 2) hfixed.1
  have hcontent := Content.carried depth hfixed.2 hloose
  refine ⟨.object ?_, fun b => ?_⟩
  · rw [List.forall_mem_cons, List.forall_mem_cons]
    exact ⟨hkind.legible, hattached.legible, hcontent.legible⟩
  · have hkind := hkind.taken
    have htaken := hcontent.taken (.text o.content.kind.tag) o.attached.toJson.echo
    rw [Json.echo_text] at hkind
    have hnames : ∀ m ∈ o.content.fields.map fun m => (m.1, m.2.echo),
        m.1 ≠ "type" ∧ m.1 ≠ "meta" := by
      intro m hm
      obtain ⟨n, hn, rfl⟩ := List.mem_map.mp hm
      exact o.content.name_ne_of_mem_fields n hn
    have htype : ∀ m ∈ ("meta", o.attached.toJson.echo) ::
        o.content.fields.map fun m => (m.1, m.2.echo), m.1 ≠ "type" := by
      rw [List.forall_mem_cons]
      exact ⟨by simp, fun m hm => (hnames m hm).1⟩
    simp only [toJson, Object.kind, Json.echo_object, List.map_cons, Json.echo_text, ofJson?,
      Json.members?_object, Option.bind_eq_bind, Option.bind_some, Json.required_cons_self htype]
    rw [Json.optional_cons_of_ne (by simp), Json.optional_cons_self fun m hm => (hnames m hm).2]
    simp [Option.bind_eq_some_iff, hkind, hattached.taken, htaken, fixedScalars, keepLoose,
      and_assoc]

end
end Diorama
