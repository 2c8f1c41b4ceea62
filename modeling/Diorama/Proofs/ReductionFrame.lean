/-
  What a reduction may touch.

  A reduction places objects in another way and regroups them.  Of an object it may change where it
  is and what its list holds.  What is left of the object without both (`Content.unplaced`) stays,
  and so does all that is attached to it.  Ids, the root and the frozen marks stay, a frozen object
  stays as it is, and nothing becomes reachable that was not (`Scene.Rearranged`).  This asks
  nothing of the scene, and it holds wherever a run stops, also halfway through a pass that fails.

  What expressions read is placed as before.  Every pass asks anew what reachable expressions read,
  and passes cut objects off.  But an expression that is reachable in the end was reachable all
  along, so no pass has touched more than the list of what it reads (`Scene.Spared`).

  The induction is the same for both: `Scene.Spares read` is what an edit does that leaves the
  objects of the list `read` in their places, and passes are sums of edits.
-/
import Mathlib
import Diorama.Proofs.EditedObjects
import Diorama.Proofs.Indexability
import Diorama.Proofs.SettledScenes
import Diorama.Proofs.WordScalars

namespace Diorama

variable {K : Type}

/-! ## Objects in other places -/

/-- The visual without its transform. -/
def Visual.unplaced (v : Visual K) : Visual K :=
  { v with centerPoint := none, offset := none, scale := none, rotation := none, matrix := none }

/-- The content without its transform and without what its list holds. -/
def Content.unplaced : Content K → Content K
  | .containerVisual visual _ => .containerVisual visual.unplaced []
  | .shapeVisual visual _ => .shapeVisual visual.unplaced []
  | .containerShape _ _ => .containerShape {} []
  | .spriteShape sprite => .spriteShape { sprite with transform := {} }
  | content => content

namespace Content

/-- The kind can be told without place and list. -/
theorem kind_unplaced (c : Content K) : c.unplaced.kind = c.kind := by
  cases c <;> rfl

/-- What an expression reads can be told without place and list. -/
theorem read_unplaced (c : Content K) : c.unplaced.read = c.read := by
  cases c <;> rfl

/-- Another list does not show without lists. -/
theorem unplaced_withChildren (c : Content K) (cs : List ObjectId) :
    (c.withChildren cs).unplaced = c.unplaced := by
  cases c <;> rfl

end Content

/-- The same object in another place or with another list. -/
structure Object.Rearranged (o o' : Object K) : Prop where
  kind : o'.kind = o.kind
  attached : o'.attached = o.attached
  unplaced : o'.content.unplaced = o.content.unplaced

namespace Object.Rearranged

variable {o o' o'' : Object K}

theorem refl (o : Object K) : o.Rearranged o := ⟨rfl, rfl, rfl⟩

theorem trans (h : o.Rearranged o') (h' : o'.Rearranged o'') : o.Rearranged o'' :=
  ⟨h'.kind.trans h.kind, h'.attached.trans h.attached, h'.unplaced.trans h.unplaced⟩

/-- Another content that is the same without place and list. -/
theorem of_unplaced {content : Content K} (h : content.unplaced = o.content.unplaced) :
    o.Rearranged { o with content } := by
  refine ⟨?_, rfl, h⟩
  show content.kind = o.content.kind
  rw [← content.kind_unplaced, h, o.content.kind_unplaced]

/-- Another list is another group. -/
theorem relist (cs : List ObjectId) (o : Object K) : o.Rearranged (o.relist cs) :=
  .of_unplaced (o.content.unplaced_withChildren cs)

/-- A rearranged expression reads what it read. -/
theorem read (h : o.Rearranged o') : o'.content.read = o.content.read := by
  rw [← o'.content.read_unplaced, h.unplaced, o.content.read_unplaced]

end Object.Rearranged

/-- An object with its own list is itself. -/
theorem Object.relist_children (o : Object K) : o.relist o.content.children = o := by
  simp only [Object.relist, Content.withChildren_children]

/-- Of two lists, the later one counts. -/
theorem Object.relist_relist (cs ds : List ObjectId) (o : Object K) :
    (o.relist cs).relist ds = o.relist ds := by
  obtain ⟨attached, content⟩ := o
  cases content <;> rfl

/-! ## Rearranged scenes -/

/-- The same scene with objects in other places and other groups. -/
structure Scene.Rearranged (s s' : Scene K) : Prop where
  size : s'.size = s.size
  root : s'.root = s.root
  frozen : s'.frozen = s.frozen
  object {id : ObjectId} {o : Object K} :
    s.get? id = some o → ∃ o', s'.get? id = some o' ∧ o.Rearranged o'
  pinned {id : ObjectId} : s.isFrozen id = true → s'.get? id = s.get? id
  reachable {id : ObjectId} : id ∈ s'.reachable → id ∈ s.reachable

/-- The same scene with objects in other places and other groups, where the objects that are read
stay in their places: at most their lists are others. -/
structure Scene.Spares (read : List ObjectId) (s s' : Scene K) : Prop extends s.Rearranged s' where
  placed : ∀ id ∈ read, ∃ cs, s'.get? id = (s.get? id).map (Object.relist cs)

namespace Scene.Rearranged

variable {s s' s'' : Scene K}

theorem refl (s : Scene K) : s.Rearranged s :=
  ⟨rfl, rfl, rfl, fun {_ o} ho => ⟨o, ho, .refl o⟩, fun _ => rfl, fun h => h⟩

/-- The same objects are frozen. -/
theorem isFrozen (h : s.Rearranged s') (id : ObjectId) : s'.isFrozen id = s.isFrozen id := by
  rw [Scene.isFrozen, Scene.isFrozen, h.frozen]

theorem trans (h : s.Rearranged s') (h' : s'.Rearranged s'') : s.Rearranged s'' where
  size := h'.size.trans h.size
  root := h'.root.trans h.root
  frozen := h'.frozen.trans h.frozen
  object ho := by
    obtain ⟨p, hp, hop⟩ := h.object ho
    obtain ⟨q, hq, hpq⟩ := h'.object hp
    exact ⟨q, hq, hop.trans hpq⟩
  pinned hid := (h'.pinned ((h.isFrozen _).trans hid)).trans (h.pinned hid)
  reachable hid := h.reachable (h'.reachable hid)

/-- Nothing is added to the arena: every object was there before. -/
theorem exists_before (h : s.Rearranged s') {id : ObjectId} {o' : Object K}
    (ho' : s'.get? id = some o') : ∃ o, s.get? id = some o ∧ o.Rearranged o' := by
  have hlt : id.index < s.objects.size := by
    have hlt' := index_lt_size ho'
    rw [h.size] at hlt'
    exact hlt'
  obtain ⟨p, hp, hop⟩ := h.object (o := s.objects[id.index]) (Array.getElem?_eq_getElem hlt)
  obtain rfl := Option.some.inj (ho'.symm.trans hp)
  exact ⟨_, Array.getElem?_eq_getElem hlt, hop⟩

/-- What is read in the end was read before. -/
theorem mem_readByExpressions (h : s.Rearranged s') {id : ObjectId}
    (hid : id ∈ s'.readByExpressions) : id ∈ s.readByExpressions := by
  obtain ⟨a, ha, p', hp', hread⟩ := Reduction.mem_readByExpressions.mp hid
  obtain ⟨p, hp, hpp'⟩ := h.exists_before hp'
  exact Reduction.mem_readByExpressions.mpr ⟨a, h.reachable ha, p, hp, hpp'.read ▸ hread⟩

end Scene.Rearranged

namespace Scene.Spares

variable {read : List ObjectId} {s s' s'' : Scene K}

theorem refl (read : List ObjectId) (s : Scene K) : s.Spares read s where
  toRearranged := .refl s
  placed id _ := by
    cases ho : s.get? id with
    | none => exact ⟨[], rfl⟩
    | some o => exact ⟨o.content.children, congrArg some o.relist_children.symm⟩

/-- What two edits in a row leave in place stays in place. -/
theorem trans (h : s.Spares read s') (h' : s'.Spares read s'') : s.Spares read s'' where
  toRearranged := h.toRearranged.trans h'.toRearranged
  placed id hid := by
    obtain ⟨cs, hcs⟩ := h.placed id hid
    obtain ⟨ds, hds⟩ := h'.placed id hid
    refine ⟨ds, ?_⟩
    rw [hds, hcs, Option.map_map]
    exact congrArg (Option.map · _) (funext fun o => o.relist_relist cs ds)

/-- An edit that spares some objects spares any part of them. -/
theorem mono {read' : List ObjectId} (h : s.Spares read s') (hsub : ∀ id ∈ read', id ∈ read) :
    s.Spares read' s' :=
  ⟨h.toRearranged, fun id hid => h.placed id (hsub id hid)⟩

/-- One object in another place or with another list. -/
theorem set {id : ObjectId} {o o' : Object K} (ho : s.get? id = some o)
    (hfree : s.isFrozen id = false) (hobject : o.Rearranged o')
    (htargets : ∀ t ∈ o'.targets, t ∈ o.targets ∨ ∃ c ∈ o.targets, s.Refers c t)
    (hread : id ∈ read → ∃ cs, o' = o.relist cs) : s.Spares read (s.set id o') := by
  have hother : ∀ {y}, y ≠ id → (s.set id o').get? y = s.get? y := fun h => get?_set_of_ne h o'
  have hself : (s.set id o').get? id = some o' := get?_set_self ho o'
  have hroot : (s.set id o').root = s.root := rfl
  refine
    { size := by simp [size, Scene.set], root := hroot, frozen := rfl, object := fun {y p} hp => ?_,
      pinned := fun {y} hy => ?_, reachable := fun {y} hy => ?_, placed := fun y hy => ?_ }
  -- one object was replaced, so each property is asked of that object and of all others
  · by_cases hyid : y = id
    · subst hyid
      obtain rfl := Option.some.inj (ho.symm.trans hp)
      exact ⟨o', hself, hobject⟩
    · exact ⟨p, (hother hyid).trans hp, .refl p⟩
  · refine hother ?_
    rintro rfl
    rw [hfree] at hy
    cases hy
  -- a new reference is an old one or a shortcut over one object
  · refine mem_reachable_of_shortcuts hroot (fun a p' hp' => ?_) (fun a b hab => ?_) hy
    · by_cases haid : a = id
      · exact ⟨o, haid ▸ ho⟩
      · exact ⟨p', (hother haid).symm.trans hp'⟩
    · obtain ⟨p', hp', hb⟩ := exists_get?_of_refers hab
      by_cases haid : a = id
      · subst haid
        obtain rfl := Option.some.inj (hself.symm.trans hp')
        rcases htargets b hb with hold | ⟨c, hc, hcb⟩
        · exact .inl (refers_of_get? ho hold)
        · exact .inr ⟨c, refers_of_get? ho hc, hcb⟩
      · exact .inl (refers_of_get? ((hother haid).symm.trans hp') hb)
  · by_cases hyid : y = id
    · subst hyid
      obtain ⟨cs, rfl⟩ := hread hy
      exact ⟨cs, by rw [hself, ho]; rfl⟩
    · rw [hother hyid]
      exact (refl read s).placed y hy

end Scene.Spares

/-- The same scene with objects in other places and other groups, where what expressions read in the
end has at most another list. -/
def Scene.Spared (s s' : Scene K) : Prop := s.Spares s'.readByExpressions s'

namespace Scene.Spared

variable {s s' s'' : Scene K}

/-- What is spared at the beginning of a pass is spared at its end. -/
theorem of_spares (h : s.Spares s.readByExpressions s') : s.Spared s' :=
  h.mono fun _ hid => h.mem_readByExpressions hid

theorem trans (h : s.Spared s') (h' : s'.Spared s'') : s.Spared s'' :=
  (h.mono fun _ hid => h'.mem_readByExpressions hid).trans h'

end Scene.Spared

/-! ## Edits rearrange -/

namespace Reduction

open Editing

variable {read : List ObjectId} {s₀ : Scene K}

/-- One change, seen from where the run stops: it is refused and nothing happens, or the object is
put in its place. -/
theorem spares_left_change {s : Scene K} {id : ObjectId} {f : Object K → Object K}
    (hobject : ∀ o, s.get? id = some o → o.Rearranged (f o))
    (htargets : ∀ o, s.get? id = some o →
      ∀ t ∈ (f o).targets, t ∈ o.targets ∨ ∃ c ∈ o.targets, s.Refers c t)
    (hread : id ∈ read → ∀ o, ∃ cs, f o = o.relist cs) :
    s.Spares read ((change id f).left s) := by
  rcases left_change id f s with hidle | ⟨o, ho, hfree, hset⟩
  · rw [hidle]
    exact .refl read s
  · rw [hset]
    exact .set ho hfree (hobject o ho) (htargets o ho) fun hid => hread hid o

/-- A change of the place of an object that is not read. -/
theorem keeps_spares_change {id : ObjectId} {f : Object K → Object K} (hid : id ∉ read)
    (hobject : ∀ o : Object K, o.Rearranged (f o)) (htargets : ∀ o, (f o).targets = o.targets) :
    Keeps (s₀.Spares read) (change id f) := by
  intro s h
  refine h.trans (spares_left_change (fun o _ => hobject o) (fun o _ t ht => .inl ?_) ?_)
  · rwa [htargets o] at ht
  · exact fun hmem => absurd hmem hid

/-- Dropping dead containers touches lists only. -/
theorem keeps_spares_dropDead (dead : List ObjectId) (x : ObjectId) :
    Keeps (s₀.Spares read) (dropDead dead x) := by
  intro s h
  rcases dropDead_spec dead x s with ⟨hidle, -⟩ | ⟨o, shapes, n, ho, hshapes, -, -, -, hrun⟩
  · rwa [left_of_ok hidle]
  · rw [left_of_counted hrun]
    refine h.trans (spares_left_change (fun p _ => .relist _ p) (fun p hp t ht => .inl ?_)
      fun _ p => ⟨_, rfl⟩)
    obtain rfl := Option.some.inj (ho.symm.trans hp)
    rcases Object.mem_targets_withChildren ht with hkept | hold
    · refine Object.mem_targets_of_mem_children ?_
      rw [children_of_shapes? hshapes]
      exact List.mem_of_mem_filter hkept
    · exact hold

/-- Splicing touches lists only. -/
theorem keeps_spares_spliceObject (list : List ObjectId) (x : ObjectId) :
    Keeps (s₀.Spares read) (spliceObject list x) := by
  intro s h
  rcases spliceObject_spec list x s with ⟨hidle, -⟩ | ⟨o, n, ho, -, -, hrun⟩
  · rwa [left_of_ok hidle]
  · rw [left_of_counted hrun]
    refine h.trans (spares_left_change (fun p _ => .relist _ p) (fun p hp t ht => ?_)
      fun _ p => ⟨_, rfl⟩)
    obtain rfl := Option.some.inj (ho.symm.trans hp)
    exact targets_splicedList ht

/-- The whole first pass touches lists only. -/
theorem keeps_spares_removeDead : Keeps (s₀.Spares read) removeDead :=
  dropDeadFrom_keeps (fun _ => .sumOver fun x _ => keeps_spares_dropDead _ x) {}

theorem keeps_spares_splice : Keeps (s₀.Spares read) splice :=
  .get_bind fun _ => .sumOver fun x _ => keeps_spares_spliceObject _ x

variable [Scalar K]

/-- Folding changes the transform only. -/
theorem unplaced_of_folds {c c' : Content K} (h : Folds c c') : c'.unplaced = c.unplaced := by
  cases h <;> rfl

/-- Taking a matrix over changes the transform only. -/
theorem unplaced_takeOver (m : Matrix3x2 K) (c : Content K) :
    (takeOver m c).unplaced = c.unplaced := by
  cases c <;> rfl

omit [Scalar K] in
/-- Dropping a matrix changes the transform only. -/
theorem unplaced_dropMatrix (c : Content K) : (dropMatrix c).unplaced = c.unplaced := by
  cases c <;> rfl

/-- Folding passes over what expressions read. -/
theorem keeps_spares_foldObject (x : ObjectId) : Keeps (s₀.Spares read) (foldObject read x) := by
  intro s h
  rcases foldObject_spec read x s with ⟨hidle, -⟩ | ⟨o, content, n, hunread, ho, -, hfold, hrun⟩
  · rwa [left_of_ok hidle]
  · have hfolds := folds_of_foldContent? hfold
    rw [left_of_counted hrun]
    refine h.trans (spares_left_change (fun p hp => ?_) (fun p hp t ht => .inl ?_)
      fun hmem => absurd hmem hunread)
    · obtain rfl := Option.some.inj (ho.symm.trans hp)
      exact .of_unplaced (unplaced_of_folds hfolds)
    · obtain rfl := Option.some.inj (ho.symm.trans hp)
      rwa [targets_of_references_eq (restyled_of_folds hfolds).references] at ht

/-- A push is made of changes to objects that are single. -/
theorem keeps_spares_pushObject {single : ObjectId → Bool}
    (hsingle : ∀ c, single c = true → c ∉ read)
    (x : ObjectId) : Keeps (s₀.Spares read) (pushObject single x) := by
  refine keeps_pushObject (fun m c hc => ?_) fun hx => ?_
  · exact keeps_spares_change (hsingle c hc)
      (fun p => .of_unplaced (unplaced_takeOver m p.content))
      fun p => targets_of_references_eq (restyled_takeOver m p.content).references
  · exact keeps_spares_change (hsingle x hx)
      (fun p => .of_unplaced (unplaced_dropMatrix p.content))
      fun p => targets_of_references_eq (restyled_dropMatrix p.content).references

/-- **A pass leaves what expressions read in its place.** -/
theorem spares_foldTransforms (s : Scene K) :
    s.Spares s.readByExpressions (foldTransforms.left s) :=
  Keeps.sumOver (fun x _ => keeps_spares_foldObject x) s (.refl _ s)

/-- A pass of pushing down asks at its beginning what expressions read, and pushes nothing there. -/
theorem spares_pushDown (s : Scene K) : s.Spares s.readByExpressions (pushDown.left s) := by
  have hsingle : ∀ c, isSingle s c = true → c ∉ s.readByExpressions := by
    intro c hc hmem
    have hunread := (Bool.and_eq_true_iff.mp hc).2
    rw [List.contains_iff_mem.mpr hmem] at hunread
    cases hunread
  exact Keeps.sumOver (fun x _ => keeps_spares_pushObject hsingle x) s (.refl _ s)

/-! ## What a reduction may touch -/

/-- **What expressions read in the end is spared by the whole reduction**, since every pass spares
what they read at its beginning. -/
theorem keeps_spared_reduce : Keeps s₀.Spared reduce := by
  refine keeps_reduce (fun s h => h.trans ?_) (fun s h => h.trans ?_) (fun s h => h.trans ?_)
    fun s h => h.trans ?_
  · exact keeps_spares_removeDead s (.refl _ s)
  · exact .of_spares (spares_foldTransforms s)
  · exact .of_spares (spares_pushDown s)
  · exact keeps_spares_splice s (.refl _ s)

/-- **What a reduction may touch.**  Of every scene, whatever is frozen in it, and wherever an edit,
a pass or the whole reduction stops, with success or with an error: size, root and frozen marks are
the same, frozen objects are the same, every object is of its kind and has what was attached to it,
and is the same in all but its transform and its list; and what is reachable was reachable. -/
theorem edit_rearranges {edit : Editing K Reduction} (h : IsEdit edit) (s : Scene K) :
    s.Rearranged (edit.left s) := by
  cases h with
  | dropDead dead x => exact (keeps_spares_dropDead dead x s (.refl [] s)).toRearranged
  | foldObject read x => exact (keeps_spares_foldObject x s (.refl read s)).toRearranged
  | pushObject single x =>
    exact (keeps_spares_pushObject (by simp) x s (.refl [] s)).toRearranged
  | spliceObject read x => exact (keeps_spares_spliceObject read x s (.refl [] s)).toRearranged
  | removeDead => exact (keeps_spares_removeDead s (.refl [] s)).toRearranged
  | foldTransforms => exact (spares_foldTransforms s).toRearranged
  | pushDown => exact (spares_pushDown s).toRearranged
  | splice => exact (keeps_spares_splice s (.refl [] s)).toRearranged
  | reduce => exact (keeps_spared_reduce s (.refl _ s)).toRearranged

/-- The specimen with a sprite that must not be changed. -/
def specimenPinned : Scene (BitVec 32) := { specimen with frozen := [⟨3⟩] }

/-- Where its reduction stops: the dead container is dropped, and the visual is folded. -/
def specimenStopped : Scene (BitVec 32) where
  root := ⟨0⟩
  objects := #[
    { content := .shapeVisual {
        matrix := some ⟨⟨1, 0, 0, 0⟩, ⟨0, 1, 0, 0⟩, ⟨0, 0, 1, 0⟩, ⟨5, 6, 0, 1⟩⟩ } [⟨1⟩] },
    { content := .containerShape { matrix := some ⟨2, 0, 0, 3, 7, 8⟩ } [⟨3⟩] },
    { content := .containerShape {} [] },
    { content := .spriteShape {
        transform := { scale := some ⟨1, 1⟩, rotation := some 90 }
        geometry := some ⟨4⟩, fillBrush := some ⟨5⟩, strokeBrush := some ⟨6⟩ } },
    { content := .ellipseGeometry {} none (some ⟨4, 4⟩) },
    { content := .colorBrush (some (.rgb 255 0 0)) },
    { content := .colorBrush (some (.rgb 255 0 0)) }]
  frozen := [⟨3⟩]

/-- The reduction of the specimen fails at the sprite that is frozen. -/
theorem specimenPinned_reduce :
    reduce specimenPinned = .error (.frozen ⟨3⟩ .spriteShape) specimenStopped := by cbv

/-- What the failed reduction leaves is the specimen rearranged. -/
theorem specimenStopped_rearranged :
    IsEdit (K := BitVec 32) reduce ∧
    reduce specimenPinned = .error (.frozen ⟨3⟩ .spriteShape) specimenStopped ∧
    specimenPinned.Rearranged specimenStopped := by
  refine ⟨.reduce, specimenPinned_reduce, ?_⟩
  have hstop : reduce.left specimenPinned = specimenStopped := by
    rw [left, specimenPinned_reduce]
  exact hstop ▸ edit_rearranges .reduce specimenPinned

/-! ## What expressions read -/

/-- **What expressions read keeps its properties.**  Of every scene that is indexed and reduced:
each object that is read by an expression which is reachable afterwards is the object of before with
another list of children or shapes, if it has a list, and otherwise the very same. -/
theorem reduce_spares_read {s s' : Scene K} {ix : Index} {done : Reduction}
    (hix : Index.build s = .ok ix) (hrun : reduce s = .ok done s') {a : ObjectId} {o : Object K}
    {e : ExpressionAnimation} (ha : a ∈ s'.reachable) (ho : s'.get? a = some o)
    (he : o.content = .expressionAnimation e) {p : Parameter} (hp : p ∈ e.parameters) :
    ∃ q cs, s.get? p.object = some q ∧ s'.get? p.object = some (q.relist cs) := by
  have hspared : s.Spared s' := by
    have hkept := keeps_spared_reduce s (.refl _ s)
    rwa [left_of_ok hrun] at hkept
  have hread : p.object ∈ o.content.read := by
    rw [he]
    exact List.mem_map_of_mem hp
  obtain ⟨cs, hcs⟩ := hspared.placed p.object (mem_readByExpressions.mpr ⟨a, ha, o, ho, hread⟩)
  -- the expression was there before, so what it reads was an object
  have hsound := Index.sound_of_build hix
  obtain ⟨o₀, ho₀, hsame⟩ := hspared.exists_before ho
  have hrefers : s.Refers a p.object :=
    Scene.refers_of_get? ho₀ (Object.mem_targets_of_mem_read (hsame.read ▸ hread))
  have hindexed : a ∈ ix.ids := hsound.mem_ids_iff.mpr (hspared.reachable ha)
  obtain ⟨q, hq⟩ := hsound.ranked.object (hsound.ranked.closed hindexed hrefers)
  exact ⟨q, cs, hq, by rw [hcs, hq]; rfl⟩

/-- A container that an expression reads, with a container without shapes and one without
settings. -/
def puppet : Scene (BitVec 32) where
  objects := #[
    { content := .shapeVisual {} [⟨1⟩, ⟨5⟩] },
    { content := .containerShape { offset := some ⟨7, 8⟩ } [⟨2⟩, ⟨3⟩] },
    { content := .containerShape {} [] },
    { content := .containerShape {} [⟨4⟩] },
    { content := .spriteShape {} },
    { content := .spriteShape { fillBrush := some ⟨6⟩ } },
    { content := .colorBrush (some (.rgb 255 0 0))
      attached := { animators := [⟨"Color", ⟨7⟩, none⟩] } },
    { content := .expressionAnimation {
        expression := "puppet.Offset.X", parameters := [⟨"puppet", ⟨1⟩⟩] } }]

/-- The same with another list in that container. -/
def puppetWith (shapes : List ObjectId) : Scene (BitVec 32) :=
  puppet.set ⟨1⟩ { content := .containerShape { offset := some ⟨7, 8⟩ } shapes }

/-- The objects of the puppet as a walk from the root meets them. -/
def puppetIndex : Index where
  nodes := [
    ⟨⟨0⟩, []⟩,
    ⟨⟨1⟩, [⟨0, .child 0⟩, ⟨7, .parameter 0⟩]⟩,
    ⟨⟨2⟩, [⟨1, .child 0⟩]⟩,
    ⟨⟨3⟩, [⟨1, .child 1⟩]⟩,
    ⟨⟨4⟩, [⟨3, .child 0⟩]⟩,
    ⟨⟨5⟩, [⟨0, .child 1⟩]⟩,
    ⟨⟨6⟩, [⟨5, .fillBrush⟩]⟩,
    ⟨⟨7⟩, [⟨6, .animation 0⟩]⟩]
  postOrder := [2, 4, 3, 1, 7, 6, 5, 0]

/-- Of the two containers in the puppet the dead one is dropped and the other one is spliced. -/
theorem puppet_reduce : reduce puppet = .ok ⟨1, 0, 0, 0, 1⟩ (puppetWith [⟨4⟩]) := by
  have hdrop : removeDead puppet = .ok ⟨1, 0, 0, 0, 0⟩ (puppetWith [⟨3⟩]) := by cbv
  have hreachable : (puppetWith [⟨3⟩]).reachable = [⟨0⟩, ⟨1⟩, ⟨3⟩, ⟨4⟩, ⟨5⟩, ⟨6⟩, ⟨7⟩] := by cbv
  have hread : (puppetWith [⟨3⟩]).readByExpressions = [⟨1⟩] := by cbv
  have hfold : foldTransforms (puppetWith [⟨3⟩]) = .ok {} (puppetWith [⟨3⟩]) := by
    refine sumOver_of_idle fun x hx => foldObject_of_idle fun hunread o ho _ => ?_
    rw [hread] at hunread
    rw [hreachable] at hx
    fin_cases hx <;> cases ho
    · rfl
    · exact absurd List.mem_cons_self hunread
    · rfl
    · rfl
    · rfl
    · rfl
    · rfl
  have hlimit : roundLimit (puppetWith [⟨3⟩]) = 1023490978437330192392 := rfl
  have hrounds : coalesceFor 1023490978437330192392 (puppetWith [⟨3⟩]) =
      .ok ⟨0, 0, 0, 0, 1⟩ (puppetWith [⟨4⟩]) := by cbv
  exact reduce_of_stages hdrop hfold hlimit hrounds

/-- The puppet, which an expression reads, has another list and is where it was. -/
theorem puppet_spares_read :
    Index.build puppet = .ok puppetIndex ∧
    reduce puppet = .ok ⟨1, 0, 0, 0, 1⟩ (puppetWith [⟨4⟩]) ∧
    (⟨7⟩ : ObjectId) ∈ (puppetWith [⟨4⟩]).reachable ∧
    ∃ q cs, puppet.get? ⟨1⟩ = some q ∧ (puppetWith [⟨4⟩]).get? ⟨1⟩ = some (q.relist cs) := by
  have hix : Index.build puppet = .ok puppetIndex := by cbv
  have hreachable : (⟨7⟩ : ObjectId) ∈ (puppetWith [⟨4⟩]).reachable := by
    have hlist : (puppetWith [⟨4⟩]).reachable = [⟨0⟩, ⟨1⟩, ⟨4⟩, ⟨5⟩, ⟨6⟩, ⟨7⟩] := by cbv
    simp [hlist]
  exact ⟨hix, puppet_reduce, hreachable,
    reduce_spares_read hix puppet_reduce hreachable rfl rfl
      (p := ⟨"puppet", ⟨1⟩⟩) List.mem_cons_self⟩

end Reduction
end Diorama
