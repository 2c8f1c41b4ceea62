/-
  Two trees with one picture.

  Two scenes show the same sprites if every drawn object of the one is drawn likewise by its
  counterpart (`Likewise`).  Drawing likewise leaves room for what optimisation does to a tree:

    * the worlds around an object and its counterpart need not be equal.  `W id` says how they are
      related at each object, so a matrix may have moved from a container to what it holds;
    * an object may be missing on the other side and what it holds may stand in its place
      (`Dissolves`), which covers a container that is spliced and one that is dropped because it
      holds nothing.

  The proof of `visit_agree` goes by the rank: it drops from an object to what it holds, also where
  an object in between has dissolved.
-/
import Diorama.Proofs.PartSampling
import Diorama.Reduction.Editing

namespace Diorama

variable {K : Type} [Scalar K]

/-! ## Visits -/

/-- Whether an object is part of the tree that is drawn. -/
def Content.isDrawn : Content K → Bool
  | .containerVisual .. => true
  | .shapeVisual .. => true
  | .containerShape .. => true
  | .spriteShape _ => true
  | _ => false

omit [Scalar K] in
theorem Object.mem_targets_of_mem_children {o : Object K} {c : ObjectId}
    (h : c ∈ o.content.children) : c ∈ o.targets := by
  cases hc : o.content with
  | containerVisual v cs =>
    refine Object.child_mem_targets .child (fun ref href => ?_) (by simpa [hc] using h)
    rw [hc]
    exact List.mem_append_right _ href
  | shapeVisual v cs =>
    refine Object.child_mem_targets .child (fun ref href => ?_) (by simpa [hc] using h)
    rw [hc]
    exact List.mem_append_right _ href
  | containerShape t cs =>
    refine Object.child_mem_targets .child (fun ref href => ?_) (by simpa [hc] using h)
    rw [hc]
    exact href
  | _ => simp [hc, Content.children] at h

namespace Moment

variable {m : Moment K} {id : ObjectId} {o : Object K}

/-- The samples of several objects, one after the other. -/
def gather (m : Moment K) (depth : Nat) (holder : ObjectId) (ids : List ObjectId)
    (around : Surroundings K) : Except SceneError (List (Sample K)) := do
  return (← ids.mapM fun c => m.visit depth holder c around).flatten

theorem gather_cons (depth : Nat) (holder c : ObjectId) (ids : List ObjectId)
    (around : Surroundings K) :
    m.gather depth holder (c :: ids) around =
      (m.visit depth holder c around >>= fun first =>
        m.gather depth holder ids around >>= fun others => pure (first ++ others)) := by
  simp [gather]

theorem gather_append (depth : Nat) (holder : ObjectId) (ids ids' : List ObjectId)
    (around : Surroundings K) :
    m.gather depth holder (ids ++ ids') around =
      (m.gather depth holder ids around >>= fun first =>
        m.gather depth holder ids' around >>= fun others => pure (first ++ others)) := by
  simp [gather]

/-- The visit of a visual. -/
theorem visit_visual (ho : m.scene.get? id = some o) {v : Visual K} {cs : List ObjectId}
    (hc : o.content = .containerVisual v cs ∨ o.content = .shapeVisual v cs) (depth : Nat)
    (holder : ObjectId) (a : Surroundings K) :
    m.visit (depth + 1) holder id a =
      (m.expressionsOf id o >>= fun es => m.visualState id o v >>= fun state =>
        if state.2.2 then
          m.gather depth id cs
            { world := state.1.andThen a.world
              opacity := a.opacity * state.2.1
              expressions := a.expressions ++ es }
        else pure []) := by
  rcases hc with hc | hc <;> simp only [visit, Scene.resolve_bind ho, hc] <;> rfl

/-- The visit of a container of shapes. -/
theorem visit_containerShape (ho : m.scene.get? id = some o) {t : ShapeTransform K}
    {cs : List ObjectId} (hc : o.content = .containerShape t cs) (depth : Nat) (holder : ObjectId)
    (a : Surroundings K) :
    m.visit (depth + 1) holder id a =
      (m.expressionsOf id o >>= fun es => m.shapeMatrix id o t >>= fun matrix =>
        m.gather depth id cs
          { world := matrix.andThen a.world
            opacity := a.opacity
            expressions := a.expressions ++ es }) := by
  simp only [visit, Scene.resolve_bind ho, hc]
  rfl

/-- The visit of a sprite. -/
theorem visit_sprite (ho : m.scene.get? id = some o) {sprite : Sprite K}
    (hc : o.content = .spriteShape sprite) (depth : Nat) (holder : ObjectId)
    (a : Surroundings K) :
    m.visit (depth + 1) holder id a =
      (m.expressionsOf id o >>= fun es =>
        m.sprite id o sprite { a with expressions := a.expressions ++ es } >>= fun sample =>
          pure [sample]) := by
  simp only [visit, Scene.resolve_bind ho, hc]

/-- An object of another kind is not drawn. -/
theorem visit_undrawn (ho : m.scene.get? id = some o) (hc : o.content.isDrawn = false)
    (depth : Nat) (holder : ObjectId) (a : Surroundings K) :
    ∃ e, m.visit (depth + 1) holder id a = .error e := by
  simp only [visit, Scene.resolve_bind ho]
  cases hes : m.expressionsOf id o with
  | error e => exact ⟨e, rfl⟩
  | ok es =>
    cases hcontent : o.content with
    | containerVisual => simp [hcontent, Content.isDrawn] at hc
    | shapeVisual => simp [hcontent, Content.isDrawn] at hc
    | containerShape => simp [hcontent, Content.isDrawn] at hc
    | spriteShape => simp [hcontent, Content.isDrawn] at hc
    | _ => exact ⟨_, rfl⟩

/-- What an object holds can stand in its place, moved by a matrix. -/
def Dissolves (m : Moment K) (id : ObjectId) (matrix : Matrix3x2 K) (held : List ObjectId) : Prop :=
  ∀ depth holder around, m.visit (depth + 1) holder id around =
    m.gather depth id held { around with world := matrix.andThen around.world }

end Moment

/-! ## Drawing likewise -/

/-- What two objects hold, in worlds that `V` relates: an entry is kept, or it dissolves on the left
and what it held stands on the right. -/
inductive Inside (s : Scene K) (time : Int64) (f : ObjectId → ObjectId)
    (W : ObjectId → Matrix3x2 K → Matrix3x2 K → Prop) (V : Matrix3x2 K → Matrix3x2 K → Prop) :
    List ObjectId → List ObjectId → Prop
  | nil : Inside s time f W V [] []
  | keep {c : ObjectId} {cs cs' : List ObjectId} : (∀ w w', V w w' → W c w w') →
      Inside s time f W V cs cs' → Inside s time f W V (c :: cs) (f c :: cs')
  | dissolve {c : ObjectId} {cs cs' held : List ObjectId} {matrix : Matrix3x2 K} :
      Moment.Dissolves ⟨s, time⟩ c matrix held → (∀ g ∈ held, s.Refers c g) →
      (∀ g ∈ held, ∀ w w', V w w' → W g (matrix.andThen w) w') →
      Inside s time f W V cs cs' → Inside s time f W V (c :: cs) (held.map f ++ cs')

/-- A drawn object and its counterpart draw the same sprites, in worlds that are related at every
object; `T` is how the places of sprites come to be related. -/
inductive Likewise (r : K → K → Prop) (f : ObjectId → ObjectId) (s s' : Scene K) (time : Int64)
    (W : ObjectId → Matrix3x2 K → Matrix3x2 K → Prop) (T : Matrix3x2 K → Matrix3x2 K → Prop)
    (id : ObjectId) (o o' : Object K) : Prop
  | visual {v v' : Visual K} {cs cs' : List ObjectId} (V : Matrix3x2 K → Matrix3x2 K → Prop)
      (left : o.content = .containerVisual v cs ∨ o.content = .shapeVisual v cs)
      (right : o'.content = .containerVisual v' cs' ∨ o'.content = .shapeVisual v' cs')
      (state : Agree (fun x y => (∀ w w', W id w w' → V (x.1.andThen w) (y.1.andThen w')) ∧
          r x.2.1 y.2.1 ∧ x.2.2 = y.2.2)
        (Moment.visualState ⟨s, time⟩ id o v) (Moment.visualState ⟨s', time⟩ (f id) o' v'))
      (inside : Inside s time f W V cs cs')
  | containerShape {t t' : ShapeTransform K} {cs cs' : List ObjectId}
      (V : Matrix3x2 K → Matrix3x2 K → Prop)
      (left : o.content = .containerShape t cs) (right : o'.content = .containerShape t' cs')
      (matrix : Agree (fun m m' => ∀ w w', W id w w' → V (m.andThen w) (m'.andThen w'))
        (Moment.shapeMatrix ⟨s, time⟩ id o t) (Moment.shapeMatrix ⟨s', time⟩ (f id) o' t'))
      (inside : Inside s time f W V cs cs')
  | sprite {a b : Sprite K} (left : o.content = .spriteShape a)
      (right : o'.content = .spriteShape b) (parts : a.Counterpart r f b)
      (matrix : Agree (fun m m' => ∀ w w', W id w w' → T (m.andThen w) (m'.andThen w'))
        (Moment.shapeMatrix ⟨s, time⟩ id o a.transform)
        (Moment.shapeMatrix ⟨s', time⟩ (f id) o' b.transform))

/-- Lists in which everything is kept. -/
theorem Inside.of_map {s : Scene K} {time : Int64} {f : ObjectId → ObjectId}
    {W : ObjectId → Matrix3x2 K → Matrix3x2 K → Prop} {V : Matrix3x2 K → Matrix3x2 K → Prop}
    {cs : List ObjectId} (h : ∀ c ∈ cs, ∀ w w', V w w' → W c w w') :
    Inside s time f W V cs (cs.map f) := by
  induction cs with
  | nil => exact .nil
  | cons c cs ih =>
    exact .keep (h c List.mem_cons_self) (ih fun d hd => h d (List.mem_cons_of_mem _ hd))

/-- Surroundings in worlds that are related. -/
structure Moment.Surroundings.Like (V : Matrix3x2 K → Matrix3x2 K → Prop) (r : K → K → Prop)
    (a a' : Moment.Surroundings K) : Prop where
  world : V a.world a'.world
  opacity : r a.opacity a'.opacity
  expressions : a.expressions = a'.expressions

open Scalar (Respects)

variable {r : K → K → Prop} [Respects r] {f : ObjectId → ObjectId} {A : ObjectId → Prop}
  {rank : ObjectId → Nat} {s s' : Scene K} {time : Int64}
  {W : ObjectId → Matrix3x2 K → Matrix3x2 K → Prop} {T : Matrix3x2 K → Matrix3x2 K → Prop}

section

variable (h : s.Mirrors r f A rank s') {id : ObjectId} {o o' : Object K}
  (hf : Facing r f A s s' id o o') {V : Matrix3x2 K → Matrix3x2 K → Prop}

include h hf

/-- A visual with related settings. -/
theorem Likewise.of_visual {v v' : Visual K} {cs cs' : List ObjectId}
    (left : o.content = .containerVisual v cs ∨ o.content = .shapeVisual v cs)
    (right : o'.content = .containerVisual v' cs' ∨ o'.content = .shapeVisual v' cs')
    (hv : v.Like r v')
    (hV : ∀ m m' w w' : Matrix3x2 K, m.Like r m' → W id w w' → V (m.andThen w) (m'.andThen w'))
    (inside : Inside s time f W V cs cs') : Likewise r f s s' time W T id o o' :=
  .visual V left right
    ((h.visualState_agree hf time hv).mono fun _ _ hxy => ⟨fun _ _ => hV _ _ _ _ hxy.1, hxy.2⟩)
    inside

/-- A container of shapes with related settings. -/
theorem Likewise.of_containerShape {t t' : ShapeTransform K} {cs cs' : List ObjectId}
    (left : o.content = .containerShape t cs) (right : o'.content = .containerShape t' cs')
    (ht : t.Like r t')
    (hV : ∀ m m' w w' : Matrix3x2 K, m.Like r m' → W id w w' → V (m.andThen w) (m'.andThen w'))
    (inside : Inside s time f W V cs cs') : Likewise r f s s' time W T id o o' :=
  .containerShape V left right
    ((h.shapeMatrix_agree hf time ht).mono fun _ _ hm _ _ => hV _ _ _ _ hm) inside

/-- A sprite with related settings. -/
theorem Likewise.of_sprite {a b : Sprite K} (left : o.content = .spriteShape a)
    (right : o'.content = .spriteShape b) (parts : a.Counterpart r f b)
    (ht : a.transform.Like r b.transform)
    (hT : ∀ m m' w w' : Matrix3x2 K, m.Like r m' → W id w w' → T (m.andThen w) (m'.andThen w')) :
    Likewise r f s s' time W T id o o' :=
  .sprite left right parts
    ((h.shapeMatrix_agree hf time ht).mono fun _ _ hm _ _ => hT _ _ _ _ hm)

end

/-- The visits of an object and its counterpart agree, to whatever depths beyond the rank. -/
def VisitsAgree (r : K → K → Prop) (f : ObjectId → ObjectId) (rank : ObjectId → Nat)
    (s s' : Scene K) (time : Int64) (W : ObjectId → Matrix3x2 K → Matrix3x2 K → Prop)
    (T : Matrix3x2 K → Matrix3x2 K → Prop) (id : ObjectId) : Prop :=
  ∀ (depth depth' : Nat) (holder holder' : ObjectId) (a a' : Moment.Surroundings K),
    rank id < depth → rank id < depth' → a.Like (W id) r a' →
    Agree (List.Forall₂ (Sample.Like T r)) (Moment.visit ⟨s, time⟩ depth holder id a)
      (Moment.visit ⟨s', time⟩ depth' holder' (f id) a')

omit [Respects r] in
theorem gather_map_agree {ids : List ObjectId} {depth depth' : Nat} {holder holder' : ObjectId}
    {a a' : Moment.Surroundings K}
    (hvisits : ∀ g ∈ ids, VisitsAgree r f rank s s' time W T g)
    (hdepth : ∀ g ∈ ids, rank g < depth ∧ rank g < depth')
    (ha : ∀ g ∈ ids, a.Like (W g) r a') :
    Agree (List.Forall₂ (Sample.Like T r)) (Moment.gather ⟨s, time⟩ depth holder ids a)
      (Moment.gather ⟨s', time⟩ depth' holder' (ids.map f) a') := by
  refine Agree.bind (R := List.Forall₂ (List.Forall₂ (Sample.Like T r))) ?_
    fun xs ys hxy => .ok (List.rel_flatten hxy)
  refine Agree.mapM (P := fun g g' => g ∈ ids ∧ g' = f g)
    (forall₂_map_right fun g hg => ⟨hg, rfl⟩) ?_
  rintro g _ ⟨hg, rfl⟩
  exact hvisits g hg depth depth' holder holder' a a' (hdepth g hg).1 (hdepth g hg).2 (ha g hg)

omit [Respects r] in
/-- **Lists are drawn likewise** if the objects in them and below are. -/
theorem inside_agree (h : s.Ranked A rank) {V : Matrix3x2 K → Matrix3x2 K → Prop}
    {cs cs' : List ObjectId} (hinside : Inside s time f W V cs cs') {n : Nat}
    (hvisits : ∀ c, A c → rank c < n → VisitsAgree r f rank s s' time W T c)
    {depth depth' : Nat} (hcs : ∀ c ∈ cs, A c ∧ rank c < n ∧ rank c < depth ∧ rank c < depth')
    (holder holder' : ObjectId) {a a' : Moment.Surroundings K} (ha : a.Like V r a') :
    Agree (List.Forall₂ (Sample.Like T r)) (Moment.gather ⟨s, time⟩ depth holder cs a)
      (Moment.gather ⟨s', time⟩ depth' holder' cs' a') := by
  induction hinside with
  | nil => exact .ok .nil
  | @keep c cs cs' hW _ ih =>
    obtain ⟨hA, hn, hd, hd'⟩ := hcs c List.mem_cons_self
    rw [Moment.gather_cons, Moment.gather_cons]
    have hc : Agree (List.Forall₂ (Sample.Like T r)) _ _ :=
      hvisits c hA hn depth depth' holder holder' a a' hd hd'
        ⟨hW _ _ ha.world, ha.opacity, ha.expressions⟩
    refine hc.bind fun xs ys hxy => ?_
    refine (ih fun c' hc' => hcs c' (List.mem_cons_of_mem _ hc')).bind fun xs' ys' hxy' => ?_
    exact .ok (List.rel_append hxy hxy')
  | @dissolve c cs cs' held matrix hdissolves hrefers hW _ ih =>
    obtain ⟨hA, hn, hd, hd'⟩ := hcs c List.mem_cons_self
    obtain ⟨depth, rfl⟩ : ∃ k, depth = k + 1 := ⟨depth - 1, by omega⟩
    rw [Moment.gather_cons, Moment.gather_append]
    -- what stands below the dissolved object is visited one step deeper on the left
    have hheld : Agree (List.Forall₂ (Sample.Like T r))
        (Moment.visit ⟨s, time⟩ (depth + 1) holder c a)
        (Moment.gather ⟨s', time⟩ depth' holder' (held.map f) a') := by
      rw [hdissolves depth holder a]
      have hlower : ∀ g ∈ held, A g ∧ rank g < rank c :=
        fun g hg => ⟨h.closed hA (hrefers g hg), h.descends hA (hrefers g hg)⟩
      have hvisitsHeld : ∀ g ∈ held, VisitsAgree r f rank s s' time W T g := fun g hg =>
        hvisits g (hlower g hg).1 (Nat.lt_trans (hlower g hg).2 hn)
      refine gather_map_agree hvisitsHeld (fun g hg => ?_) (fun g hg => ?_)
      · have := (hlower g hg).2
        omega
      · exact ⟨hW g hg _ _ ha.world, ha.opacity, ha.expressions⟩
    refine hheld.bind fun xs ys hxy => ?_
    refine (ih fun c' hc' => hcs c' (List.mem_cons_of_mem _ hc')).bind fun xs' ys' hxy' => ?_
    exact .ok (List.rel_append hxy hxy')

/-- **Everything is drawn likewise** if every drawn object is. -/
theorem visit_agree (h : s.Mirrors r f A rank s')
    (hlikewise : ∀ id o o', Facing r f A s s' id o o' → o.content.isDrawn = true →
      Likewise r f s s' time W T id o o') (n : Nat) :
    ∀ id, A id → rank id < n → VisitsAgree r f rank s s' time W T id := by
  -- induction on a bound for ranks: what an object refers to is ranked below it, on both sides
  induction n with
  | zero =>
    intro id _ hlt
    exact absurd hlt (Nat.not_lt_zero _)
  | succ n ih =>
    intro id hid hn depth depth' holder holder' a a' hd hd' ha
    obtain ⟨depth, rfl⟩ : ∃ k, depth = k + 1 := ⟨depth - 1, by omega⟩
    obtain ⟨depth', rfl⟩ : ∃ k, depth' = k + 1 := ⟨depth' - 1, by omega⟩
    obtain ⟨o, o', hf⟩ := h.facing hid
    have hlower : ∀ c ∈ o.targets, A c ∧ rank c < n ∧ rank c < depth ∧ rank c < depth' := by
      intro c hc
      obtain ⟨hA, hdrop⟩ := h.target hf hc
      exact ⟨hA, by omega, by omega, by omega⟩
    by_cases hdrawn : o.content.isDrawn = true
    -- one case for each way of drawing likewise; children go to the induction hypothesis as a list
    · cases hlikewise id o o' hf hdrawn with
      | @visual v v' cs cs' V left right state inside =>
        rw [Moment.visit_visual hf.left left, Moment.visit_visual hf.right right]
        refine (h.expressionsOf_agree hf time).bind ?_
        rintro es _ rfl
        refine state.bind ?_
        rintro ⟨matrix, opacity, visible⟩ ⟨matrix', opacity', _⟩ ⟨hmatrix, hopacity, rfl⟩
        have hchildren : o.content.children = cs := by
          rcases left with left | left
          · rw [left]
            rfl
          · rw [left]
            rfl
        refine rel_ite Iff.rfl (inside_agree h.ranked inside ih (fun c hc => hlower c ?_) _ _ ?_)
          (.ok .nil)
        · exact Object.mem_targets_of_mem_children (hchildren ▸ hc)
        · exact ⟨hmatrix _ _ ha.world, Respects.mul ha.opacity hopacity,
            congrArg (· ++ es) ha.expressions⟩
      | @containerShape t t' cs cs' V left right matrix inside =>
        rw [Moment.visit_containerShape hf.left left, Moment.visit_containerShape hf.right right]
        refine (h.expressionsOf_agree hf time).bind ?_
        rintro es _ rfl
        refine matrix.bind fun m m' hm => ?_
        refine inside_agree h.ranked inside ih (fun c hc => hlower c ?_) _ _ ?_
        · refine Object.mem_targets_of_mem_children ?_
          rw [left]
          exact hc
        · exact ⟨hm _ _ ha.world, ha.opacity, congrArg (· ++ es) ha.expressions⟩
      | @sprite x y left right parts matrix =>
        rw [Moment.visit_sprite hf.left left, Moment.visit_sprite hf.right right]
        refine (h.expressionsOf_agree hf time).bind ?_
        rintro es _ rfl
        have hsprite : Agree (Sample.Like T r)
            (Moment.sprite ⟨s, time⟩ id o x { a with expressions := a.expressions ++ es })
            (Moment.sprite ⟨s', time⟩ (f id) o' y
              { a' with expressions := a'.expressions ++ es }) :=
          h.sprite_agree hf time left parts (matrix.mono fun m m' hm => hm _ _ ha.world) ha.opacity
            (congrArg (· ++ es) ha.expressions)
        exact hsprite.bind fun _ _ hxy => .ok (.cons hxy .nil)
    · -- neither side is drawn, so both visits fail
      have hdrawn' : o'.content.isDrawn = false := by
        have hlike := hf.like.content
        generalize o.content = content at hdrawn hlike
        generalize o'.content = content' at hlike ⊢
        cases hlike <;> first | rfl | exact absurd rfl hdrawn
      obtain ⟨e, he⟩ := Moment.visit_undrawn (m := ⟨s, time⟩) hf.left
        (Bool.eq_false_iff.mpr hdrawn) depth holder a
      obtain ⟨e', he'⟩ := Moment.visit_undrawn (m := ⟨s', time⟩) hf.right hdrawn' depth' holder' a'
      rw [he, he']
      exact .error e e'

/-- **Two scenes show the same picture** if every drawn object and its counterpart draw likewise. -/
theorem sampleAt_agree (h : s.Mirrors r f A rank s')
    (hlikewise : ∀ id o o', Facing r f A s s' id o o' → o.content.isDrawn = true →
      Likewise r f s s' time W T id o o')
    (hA : A s.root) (hroot : f s.root = s'.root) (hW : W s.root .identity .identity) :
    Agree (List.Forall₂ (Sample.Like T r)) (s.sampleAt time) (s'.sampleAt time) := by
  unfold Scene.sampleAt
  rw [← hroot]
  refine visit_agree h hlikewise _ s.root hA (Nat.lt_succ_self _) _ _ _ _ _ _ ?_ ?_ ?_
  · exact Nat.lt_succ_of_lt (h.ranked.bounded hA)
  · exact Nat.lt_succ_of_lt (h.bounded hA)
  · exact ⟨hW, Respects.refl 1, rfl⟩

end Diorama
