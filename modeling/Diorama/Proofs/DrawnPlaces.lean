/-
  Where a scene draws.

  Sampling goes down the tree and composes matrices on the way.  Here the same is said without the
  way:  `Draws` relates the world in which an object is drawn to the worlds in which objects below
  it are drawn, and `Shows` the world of an object to the places of the sprites below it.  What
  `Shows` says is what a visit gives, no more and no less (`Moment.mem_places_iff`).

  In exact arithmetic an object looks the same wherever it is drawn: in a world that is moved by a
  matrix every place is moved by it, and nothing else changes (`Moment.visit_within`).

  Two pictures that differ in nothing but places are compared with `Displaced D`, where `D` relates
  the places of a sprite in the one and in the other wherever they may differ.  It says both that
  nothing else is displaced and that every pair in `D` is found, so the pictures are equal just if
  `D` relates nothing but equal places.
-/
import Mathlib
import Diorama.Proofs.ExactPlaces

namespace Diorama

variable {K : Type}

/-- The objects of a ranked set that are lower than a bound are ranked. -/
theorem Scene.Ranked.below {s : Scene K} {A : ObjectId → Prop} {rank : ObjectId → Nat}
    (h : s.Ranked A rank) (n : Nat) : s.Ranked (fun y => A y ∧ rank y < n) rank where
  object hy := h.object hy.1
  closed ha hab := ⟨h.closed ha.1 hab, Nat.lt_trans (h.descends ha.1 hab) ha.2⟩
  descends ha := h.descends ha.1
  bounded hy := h.bounded hy.1

/-- The same sample in a world that is moved. -/
def Sample.within [Scalar K] (u : Matrix3x2 K) (a : Sample K) : Sample K :=
  { a with transform := a.transform.andThen u }

/-! ## Drawing as a relation -/

namespace Moment

section

variable [Scalar K] {n : Moment K} {y : ObjectId} {o : Object K} {matrix : Matrix3x2 K}
  {cs : List ObjectId}

/-- What an object draws inside itself, and the matrix by which it moves that. -/
def enclosed (n : Moment K) (id : ObjectId) (o : Object K) :
    Except SceneError (Matrix3x2 K × List ObjectId) :=
  match o.content with
  | .containerVisual visual children => do
    let state ← n.visualState id o visual
    return (state.1, if state.2.2 then children else [])
  | .shapeVisual visual shapes => do
    let state ← n.visualState id o visual
    return (state.1, if state.2.2 then shapes else [])
  | .containerShape transform shapes => do
    return (← n.shapeMatrix id o transform, shapes)
  | _ => .ok (.identity, [])

/-- Drawing an object in a world comes to draw another one in another world. -/
inductive Draws (n : Moment K) : ObjectId → Matrix3x2 K → ObjectId → Matrix3x2 K → Prop
  | self (id : ObjectId) (w : Matrix3x2 K) : Draws n id w id w
  | inside {id c y : ObjectId} {o : Object K} {matrix w v : Matrix3x2 K} {cs : List ObjectId} :
      n.scene.get? id = some o → n.enclosed id o = .ok (matrix, cs) → c ∈ cs →
      Draws n c (matrix.andThen w) y v → Draws n id w y v

/-- Drawing an object in a world shows a sprite at a place. -/
inductive Shows (n : Moment K) : ObjectId → Matrix3x2 K → Matrix3x2 K → Prop
  | sprite {id : ObjectId} {o : Object K} {sprite : Sprite K} {matrix : Matrix3x2 K}
      (w : Matrix3x2 K) : n.scene.get? id = some o → o.content = .spriteShape sprite →
      n.shapeMatrix id o sprite.transform = .ok matrix → Shows n id w (matrix.andThen w)
  | inside {id c : ObjectId} {o : Object K} {matrix w q : Matrix3x2 K} {cs : List ObjectId} :
      n.scene.get? id = some o → n.enclosed id o = .ok (matrix, cs) → c ∈ cs →
      Shows n c (matrix.andThen w) q → Shows n id w q

theorem enclosed_visual {v : Visual K} {ds : List ObjectId}
    (hc : o.content = .containerVisual v ds ∨ o.content = .shapeVisual v ds) :
    n.enclosed y o = n.visualState y o v >>= fun state =>
      pure (state.1, if state.2.2 then ds else []) := by
  rcases hc with hc | hc
  · rw [enclosed, hc]
  · rw [enclosed, hc]

theorem enclosed_containerShape {t : ShapeTransform K} (hc : o.content = .containerShape t cs) :
    n.enclosed y o = n.shapeMatrix y o t >>= fun matrix => pure (matrix, cs) := by
  rw [enclosed, hc]

theorem enclosed_sprite {a : Sprite K} (hc : o.content = .spriteShape a) :
    n.enclosed y o = .ok (.identity, []) := by
  rw [enclosed, hc]

/-- What is drawn inside an object stands in its list. -/
theorem mem_children_of_enclosed (h : n.enclosed y o = .ok (matrix, cs)) {c : ObjectId}
    (hc : c ∈ cs) : c ∈ o.content.children := by
  have hshown : ∀ (v : Visual K) (ds : List ObjectId),
      (n.visualState y o v >>= fun state =>
        pure (state.1, if state.2.2 then ds else [])) = .ok (matrix, cs) → c ∈ ds := by
    intro v ds hstate
    obtain ⟨state, -, hpair⟩ := exists_of_bind_ok hstate
    cases hpair
    split at hc
    · exact hc
    · cases hc
  cases hcontent : o.content with
  | containerVisual v ds =>
    rw [enclosed_visual (.inl hcontent)] at h
    exact hshown v ds h
  | shapeVisual v ds =>
    rw [enclosed_visual (.inr hcontent)] at h
    exact hshown v ds h
  | containerShape t ds =>
    rw [enclosed_containerShape hcontent] at h
    obtain ⟨_, -, hpair⟩ := exists_of_bind_ok h
    cases hpair
    exact hc
  | _ =>
    rw [enclosed, hcontent] at h
    cases h
    cases hc

theorem refers_of_enclosed (ho : n.scene.get? y = some o) (h : n.enclosed y o = .ok (matrix, cs))
    {c : ObjectId} (hc : c ∈ cs) : n.scene.Refers y c :=
  Scene.refers_of_get? ho (Object.mem_targets_of_mem_children (mem_children_of_enclosed h hc))

/-- An object draws itself and what the objects in it draw. -/
theorem draws_iff (ho : n.scene.get? y = some o) (h : n.enclosed y o = .ok (matrix, cs))
    {w v : Matrix3x2 K} {x : ObjectId} :
    n.Draws y w x v ↔ (y = x ∧ w = v) ∨ ∃ c ∈ cs, n.Draws c (matrix.andThen w) x v := by
  constructor
  · intro hdraws
    cases hdraws with
    | self => exact .inl ⟨rfl, rfl⟩
    | inside ho' h' hc hrest =>
      obtain rfl := Option.some.inj (ho.symm.trans ho')
      obtain ⟨rfl, rfl⟩ := Prod.mk.inj (Except.ok.inj (h.symm.trans h'))
      exact .inr ⟨_, hc, hrest⟩
  · rintro (⟨rfl, rfl⟩ | ⟨c, hc, hrest⟩)
    · exact .self y w
    · exact .inside ho h hc hrest

/-- What is not a sprite shows what the objects in it show. -/
theorem shows_iff (ho : n.scene.get? y = some o) (h : n.enclosed y o = .ok (matrix, cs))
    (hother : ∀ a, o.content ≠ .spriteShape a) {w q : Matrix3x2 K} :
    n.Shows y w q ↔ ∃ c ∈ cs, n.Shows c (matrix.andThen w) q := by
  constructor
  · intro hshows
    cases hshows with
    | sprite _ ho' hc =>
      obtain rfl := Option.some.inj (ho.symm.trans ho')
      exact absurd hc (hother _)
    | inside ho' h' hc hrest =>
      obtain rfl := Option.some.inj (ho.symm.trans ho')
      obtain ⟨rfl, rfl⟩ := Prod.mk.inj (Except.ok.inj (h.symm.trans h'))
      exact ⟨_, hc, hrest⟩
  · rintro ⟨c, hc, hrest⟩
    exact .inside ho h hc hrest

/-- A sprite shows itself. -/
theorem shows_sprite_iff (ho : n.scene.get? y = some o) {a : Sprite K}
    (hc : o.content = .spriteShape a) (hmatrix : n.shapeMatrix y o a.transform = .ok matrix)
    {w q : Matrix3x2 K} : n.Shows y w q ↔ q = matrix.andThen w := by
  constructor
  · intro hshows
    cases hshows with
    | sprite _ ho' hc' hmatrix' =>
      obtain rfl := Option.some.inj (ho.symm.trans ho')
      obtain rfl := Content.spriteShape.inj (hc.symm.trans hc')
      rw [Except.ok.inj (hmatrix.symm.trans hmatrix')]
    | inside ho' h' hmem =>
      obtain rfl := Option.some.inj (ho.symm.trans ho')
      rw [enclosed_sprite hc] at h'
      cases h'
      cases hmem
  · rintro rfl
    exact .sprite w ho hc hmatrix

/-- What is drawn below an object has no higher rank. -/
theorem Draws.rank_le {A : ObjectId → Prop} {rank : ObjectId → Nat}
    (hranked : n.scene.Ranked A rank)
    {x : ObjectId} {w v : Matrix3x2 K} (h : n.Draws y w x v) (hy : A y) : rank x ≤ rank y := by
  induction h with
  | self => exact Nat.le_refl _
  | inside ho henclosed hc _ ih =>
    have hrefers := refers_of_enclosed ho henclosed hc
    exact Nat.le_trans (ih (hranked.closed hy hrefers)) (Nat.le_of_lt (hranked.descends hy hrefers))

/-- Inside itself an object is not drawn again. -/
theorem Draws.eq_of_self {A : ObjectId → Prop} {rank : ObjectId → Nat}
    (hranked : n.scene.Ranked A rank) {w v : Matrix3x2 K} (h : n.Draws y w y v) (hy : A y) :
    w = v := by
  cases h with
  | self => rfl
  | inside ho henclosed hc hrest =>
    have hrefers := refers_of_enclosed ho henclosed hc
    have hle := hrest.rank_le hranked (hranked.closed hy hrefers)
    have hlt := hranked.descends hy hrefers
    omega

end

/-! ## Drawing as sampling does it -/

section

variable [Scalar K] {A : ObjectId → Prop} {rank : ObjectId → Nat} {s s' : Scene K} {time : Int64}
  {y : ObjectId} {p : Object K}

/-- **An object that stands in two scenes is drawn alike in both** as far as what it draws inside
itself is: it gives one sample, or the samples of the same list in the same world. -/
theorem visit_alike {R : List (Sample K) → List (Sample K) → Prop} (h : s.Mirrors Eq id A rank s')
    (hf : Facing Eq id A s s' y p p) (depth : Nat) (holder : ObjectId) (a : Surroundings K)
    (hsprite : ∀ sprite matrix sample, p.content = .spriteShape sprite →
      shapeMatrix ⟨s, time⟩ y p sprite.transform = .ok matrix →
      sample.transform = matrix.andThen a.world → R [sample] [sample])
    (hinside : ∀ matrix cs b, (∀ sprite, p.content ≠ .spriteShape sprite) →
      enclosed ⟨s, time⟩ y p = .ok (matrix, cs) → b.world = matrix.andThen a.world →
      Agree R (gather ⟨s, time⟩ depth y cs b) (gather ⟨s', time⟩ depth y cs b)) :
    Agree R (visit ⟨s, time⟩ (depth + 1) holder y a) (visit ⟨s', time⟩ (depth + 1) holder y a) := by
  -- both kinds of visuals are visited alike, so they are done once
  have hright : s'.get? y = some p := hf.right
  have hvisual : ∀ v cs, p.content = .containerVisual v cs ∨ p.content = .shapeVisual v cs →
      Agree R (visit ⟨s, time⟩ (depth + 1) holder y a)
        (visit ⟨s', time⟩ (depth + 1) holder y a) := by
    intro v cs hc
    rw [visit_visual (m := ⟨s, time⟩) hf.left hc, visit_visual (m := ⟨s', time⟩) hright hc]
    refine (h.expressionsOf_agree hf time).bind ?_
    rintro es _ rfl
    have hstate := (h.visualState_agree hf time (.refl v)).and_left fun state hstate => hstate
    refine hstate.bind ?_
    rintro ⟨matrix, opacity, visible⟩ ⟨matrix', _, _⟩ ⟨hstate, hmatrix, rfl, rfl⟩
    obtain rfl := hmatrix.eq
    have hother : ∀ sprite, p.content ≠ .spriteShape sprite := by
      rcases hc with hc | hc <;> simp [hc]
    have henclosed : enclosed ⟨s, time⟩ y p = .ok (matrix, if visible then cs else []) := by
      rw [enclosed_visual hc, hstate]
      rfl
    cases visible with
    | true => exact hinside matrix cs _ hother henclosed rfl
    | false => exact hinside matrix [] ⟨_, a.opacity, []⟩ hother henclosed rfl
  cases hc : p.content with
  | containerVisual v cs => exact hvisual v cs (.inl hc)
  | shapeVisual v cs => exact hvisual v cs (.inr hc)
  | containerShape t cs =>
    rw [visit_containerShape (m := ⟨s, time⟩) hf.left hc,
      visit_containerShape (m := ⟨s', time⟩) hright hc]
    refine (h.expressionsOf_agree hf time).bind ?_
    rintro es _ rfl
    refine ((h.shapeMatrix_agree hf time (.refl t)).and_left fun matrix hmatrix => hmatrix).bind ?_
    rintro matrix matrix' ⟨hplace, hmatrix⟩
    obtain rfl := hmatrix.eq
    refine hinside matrix cs _ (by simp [hc]) ?_ rfl
    rw [enclosed_containerShape hc, hplace]
    rfl
  | spriteShape sprite =>
    rw [visit_sprite (m := ⟨s, time⟩) hf.left hc, visit_sprite (m := ⟨s', time⟩) hright hc]
    refine (h.expressionsOf_agree hf time).bind ?_
    rintro es _ rfl
    have hplace := (h.shapeMatrix_agree hf time (.refl sprite.transform)).and_left
      fun matrix hmatrix => hmatrix
    -- besides being the same, the places are remembered for what they are
    have hsample : Agree (Sample.Like (fun q q' => q = q' ∧ ∃ matrix,
          shapeMatrix ⟨s, time⟩ y p sprite.transform = .ok matrix ∧ q = matrix.andThen a.world) Eq)
        (Moment.sprite ⟨s, time⟩ y p sprite { a with expressions := a.expressions ++ es })
        (Moment.sprite ⟨s', time⟩ y p sprite { a with expressions := a.expressions ++ es }) :=
      h.sprite_agree hf time hc (.refl sprite)
        (hplace.mono fun m m' hm => ⟨by rw [hm.2.eq], m, hm.1, rfl⟩) rfl rfl
    refine hsample.bind fun sample sample' hlike => ?_
    obtain ⟨⟨hsame, matrix, hmatrix, hat⟩, hrest⟩ := hlike.moved
    obtain rfl : sample = sample' := by rw [hrest, ← hsame]
    exact .ok (hsprite sprite matrix sample hc hmatrix hat)
  -- what is not drawn fails on both sides
  | _ =>
    have hundrawn : p.content.isDrawn = false := by
      rw [hc]
      rfl
    obtain ⟨e, he⟩ := visit_undrawn (m := ⟨s, time⟩) hf.left hundrawn depth holder a
    obtain ⟨e', he'⟩ := visit_undrawn (m := ⟨s', time⟩) hright hundrawn depth holder a
    rw [he, he']
    exact .error e e'

/-- What holds of the places of each object in a list holds of the places of all of them
together. -/
theorem mem_gather_iff {n : Moment K} {P : ObjectId → Matrix3x2 K → Prop} {depth : Nat}
    {holder : ObjectId} {b : Surroundings K} {cs : List ObjectId} {samples : List (Sample K)}
    (hvisits : ∀ c ∈ cs, ∀ part, n.visit depth holder c b = .ok part →
      ∀ q, q ∈ part.map (·.transform) ↔ P c q)
    (h : n.gather depth holder cs b = .ok samples) (q : Matrix3x2 K) :
    q ∈ samples.map (·.transform) ↔ ∃ c ∈ cs, P c q := by
  induction cs generalizing samples with
  | nil =>
    cases h
    simp
  | cons c cs ih =>
    rw [gather_cons] at h
    obtain ⟨first, hfirst, h⟩ := exists_of_bind_ok h
    obtain ⟨others, hothers, h⟩ := exists_of_bind_ok h
    cases h
    have hc := hvisits c List.mem_cons_self first hfirst q
    have hcs := ih (fun d hd => hvisits d (List.mem_cons_of_mem _ hd)) hothers
    simp only [List.map_append, List.mem_append, hc, hcs, List.exists_mem_cons_iff]

/-- **What a visit shows is what `Shows` says.** -/
theorem mem_places_iff (h : s.Ranked A rank) {depth : Nat} {holder : ObjectId} {a : Surroundings K}
    {samples : List (Sample K)} (hy : A y)
    (hvisit : visit ⟨s, time⟩ depth holder y a = .ok samples) (q : Matrix3x2 K) :
    q ∈ samples.map (·.transform) ↔ Shows ⟨s, time⟩ y a.world q := by
  -- by the depth: what is drawn inside an object is visited one step less deep
  induction depth generalizing y holder a samples q with
  | zero => cases hvisit
  | succ depth ih =>
    have hmirrors : s.Mirrors Eq id A rank s := h.mirrors (.refl s) fun _ o _ _ => .refl o
    obtain ⟨o, ho⟩ := h.object hy
    have hf : Facing Eq id A s s y o o := ⟨hy, ho, ho, .refl o⟩
    have hagree : Agree (fun part _ => ∀ q, q ∈ part.map (·.transform) ↔
        Shows ⟨s, time⟩ y a.world q) (visit ⟨s, time⟩ (depth + 1) holder y a)
        (visit ⟨s, time⟩ (depth + 1) holder y a) := by
      refine visit_alike hmirrors hf depth holder a
        (fun sprite matrix sample hc hmatrix hat q => ?_)
        fun matrix cs b hother henclosed hworld => ?_
      · rw [shows_sprite_iff (n := ⟨s, time⟩) ho hc hmatrix, ← hat]
        simp
      · cases hgather : gather ⟨s, time⟩ depth y cs b with
        | error e => exact .error e e
        | ok part =>
          refine .ok fun q => ?_
          rw [shows_iff (n := ⟨s, time⟩) ho henclosed hother, ← hworld]
          refine mem_gather_iff (fun c hc part hpart q => ?_) hgather q
          have hrefers := refers_of_enclosed (n := ⟨s, time⟩) ho henclosed hc
          exact ih (h.closed hy hrefers) hpart q
    rw [hvisit] at hagree
    cases hagree with
    | ok hshows => exact hshows q

end

/-! ## Other worlds -/

section

variable [ExactScalar K] {A : ObjectId → Prop} {rank : ObjectId → Nat} {s : Scene K} {time : Int64}
  {y : ObjectId}

/-- **In a moved world everything is moved, and nothing else changes.** -/
theorem visit_within (h : s.Ranked A rank) (hy : A y) (u : Matrix3x2 K) {depth : Nat}
    (hdepth : rank y < depth) (holder : ObjectId) (a : Surroundings K) :
    Agree (fun here there => there = here.map (·.within u)) (visit ⟨s, time⟩ depth holder y a)
      (visit ⟨s, time⟩ depth holder y { a with world := a.world.andThen u }) := by
  have hmirrors : s.Mirrors Eq id A rank s := h.mirrors (.refl s) fun _ o _ _ => .refl o
  have hvisits : VisitsAgree Eq id rank s s time (fun _ w w' => w' = w.andThen u)
      (fun q q' => q' = q.andThen u) y := by
    refine visit_agree hmirrors (fun x o o' hf hdrawn => ?_) (rank y + 1) y hy (Nat.lt_succ_self _)
    obtain rfl : o = o' := Option.some.inj (hf.left.symm.trans hf.right)
    refine .of_list hmirrors hf hdrawn o.content.withChildren_children.symm
      (fun m w w' hw => ?_) (.same fun _ _ _ _ hw => hw)
    rw [hw, Matrix3x2.andThen_assoc]
  have hagree := hvisits depth depth holder holder a { a with world := a.world.andThen u } hdepth
    hdepth ⟨rfl, rfl, rfl⟩
  refine hagree.mono fun here there hlike => ?_
  have hsame : List.Forall₂ Eq (here.map (·.within u)) there := by
    rw [List.forall₂_map_left_iff]
    refine hlike.imp fun a b hab => ?_
    rw [hab.moved.rest, hab.moved.place]
    rfl
  rw [List.forall₂_eq_eq_eq] at hsame
  exact hsame.symm

end

end Moment

/-! ## Displaced pictures -/

/-- Samples that are the same but for their places, and at the same places, are the same. -/
theorem eq_of_moved {before after : List (Sample K)}
    (h : List.Forall₂ (Sample.Moved Eq) before after) : after = before := by
  have hsame : List.Forall₂ Eq before after := h.imp fun a b hab => by rw [hab.rest, ← hab.place]
  rw [List.forall₂_eq_eq_eq] at hsame
  exact hsame.symm

/-- Two pictures that differ in nothing but places: `D` relates the places of a sprite in the one
and in the other wherever they may differ, and nothing else. -/
structure Displaced (D : Matrix3x2 K → Matrix3x2 K → Prop) (before after : List (Sample K)) :
    Prop where
  moved : List.Forall₂ (Sample.Moved fun q q' => q = q' ∨ D q q') before after
  found {q q' : Matrix3x2 K} : D q q' →
    (q, q') ∈ (before.map (·.transform)).zip (after.map (·.transform))

namespace Displaced

variable {D E : Matrix3x2 K → Matrix3x2 K → Prop} {before after before' after' : List (Sample K)}

theorem congr (h : Displaced D before after) (hDE : ∀ q q', D q q' ↔ E q q') :
    Displaced E before after := by
  refine ⟨h.moved.imp fun a b hab => ⟨hab.place.imp_right (hDE _ _).mp, hab.rest⟩, fun hE => ?_⟩
  exact h.found ((hDE _ _).mpr hE)

/-- Where no two places may differ, the pictures are equal. -/
theorem same (hD : ∀ q q', ¬D q q') (samples : List (Sample K)) : Displaced D samples samples :=
  ⟨List.forall₂_same.mpr fun _ _ => ⟨.inl rfl, rfl⟩, fun h => absurd h (hD _ _)⟩

theorem append (h : Displaced D before after) (h' : Displaced E before' after') :
    Displaced (fun q q' => D q q' ∨ E q q') (before ++ before') (after ++ after') := by
  have hlength : (before.map (·.transform)).length = (after.map (·.transform)).length := by
    simpa using h.moved.length_eq
  refine ⟨List.rel_append (h.moved.imp fun a b hab => ⟨hab.place.imp_right .inl, hab.rest⟩)
    (h'.moved.imp fun a b hab => ⟨hab.place.imp_right .inr, hab.rest⟩), fun {q q'} hq => ?_⟩
  rw [List.map_append, List.map_append, List.zip_append hlength, List.mem_append]
  exact hq.imp h.found h'.found

/-- A list of samples in two worlds. -/
theorem within [Scalar K] (u u' : Matrix3x2 K) (samples : List (Sample K)) :
    Displaced (fun q q' => ∃ p ∈ samples.map (·.transform), q = p.andThen u ∧ q' = p.andThen u')
      (samples.map (·.within u)) (samples.map (·.within u')) := by
  refine ⟨?_, ?_⟩
  · rw [List.forall₂_map_left_iff, List.forall₂_map_right_iff, List.forall₂_same]
    intro a ha
    exact ⟨.inr ⟨a.transform, List.mem_map_of_mem ha, rfl, rfl⟩, rfl⟩
  · rintro q q' ⟨p, hp, rfl, rfl⟩
    obtain ⟨a, ha, rfl⟩ := List.mem_map.mp hp
    rw [List.map_map, List.map_map, List.zip_map']
    exact List.mem_map_of_mem (f := fun a : Sample K =>
      (a.transform.andThen u, a.transform.andThen u')) ha

/-- **Displaced pictures are equal just if every displacement leads back to where it came from.** -/
theorem eq_iff (h : Displaced D before after) : after = before ↔ ∀ q q', D q q' → q = q' := by
  constructor
  · rintro rfl q q' hq
    have hpair := h.found hq
    rw [List.zip_map'] at hpair
    obtain ⟨a, -, ha⟩ := List.mem_map.mp hpair
    obtain ⟨rfl, rfl⟩ := Prod.mk.inj ha
    rfl
  · intro hD
    exact eq_of_moved (h.moved.imp fun a b hab => ⟨hab.place.elim id (hD _ _), hab.rest⟩)

end Displaced

/-- Lists are displaced as the objects in them are. -/
theorem gather_displaced [Scalar K] {n n' : Moment K}
    {D : ObjectId → Matrix3x2 K → Matrix3x2 K → Prop}
    {depth : Nat} {holder : ObjectId} {cs : List ObjectId} {b : Moment.Surroundings K}
    (h : ∀ c ∈ cs, Agree (Displaced (D c)) (n.visit depth holder c b) (n'.visit depth holder c b)) :
    Agree (Displaced fun q q' => ∃ c ∈ cs, D c q q') (n.gather depth holder cs b)
      (n'.gather depth holder cs b) := by
  induction cs with
  | nil => exact .ok (.same (by simp) [])
  | cons c cs ih =>
    rw [Moment.gather_cons, Moment.gather_cons]
    refine (h c List.mem_cons_self).bind fun first first' hfirst => ?_
    refine (ih fun d hd => h d (List.mem_cons_of_mem _ hd)).bind fun others others' hothers => ?_
    refine .ok ((hfirst.append hothers).congr fun q q' => ?_)
    rw [List.exists_mem_cons_iff]

end Diorama
