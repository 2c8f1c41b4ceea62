/-
  Outlines inside outlines.

  A geometry is a list of figures, a group of geometries or a transformed geometry, to any depth,
  and parts may be shared.  `Scene.HasFigures` says from below which figures that amounts to: those
  of a group stand one after the other, and those of a transformed geometry are the ones of its
  source with every point moved.  Flattening goes the other way round: it carries a matrix down and
  moves each point once, when it comes to the figures.

  In exact arithmetic the two are the same (`Scene.flatten_moves`).  The invariant is `FlattensTo`:
  the figures come out moved by whatever matrix was carried down to them.  It is kept because to be
  moved by one matrix and then by another is to be moved by the product in the order in which
  flattening multiplies.
-/
import Mathlib
import Diorama.Proofs.Indexability
import Diorama.Proofs.PlaneTransforms

namespace Diorama

/-! ## Moved figures -/

/-- The points of a segment in order. -/
def Segment.points {K : Type} : Segment K → List (Vec2 K)
  | .line dest => [dest]
  | .cubic control1 control2 dest => [control1, control2, dest]

/-- Whether a segment is a curve; a line stays a line under a matrix. -/
def Segment.isCubic {K : Type} : Segment K → Bool
  | .line _ => false
  | .cubic .. => true

/-- The points of a figure in order. -/
def Figure.points {K : Type} (f : Figure K) : List (Vec2 K) :=
  f.start :: f.segments.flatMap Segment.points

/-- The second figure is the first one with every point taken along by a transform. -/
structure Figure.MovedBy {K : Type} [Scalar K] (m : Matrix3x2 K) (f g : Figure K) : Prop where
  closed : g.closed = f.closed
  kinds : g.segments.map Segment.isCubic = f.segments.map Segment.isCubic
  points : g.points = f.points.map m.apply

/-- Transforming a figure moves its points and keeps the rest. -/
theorem Figure.movedBy_transform {K : Type} [Scalar K] (m : Matrix3x2 K) (f : Figure K) :
    f.MovedBy m (f.transform m) where
  closed := rfl
  kinds := by
    rw [transform, List.map_map]
    refine List.map_congr_left fun segment _ => ?_
    cases segment <;> rfl
  points := by
    have hsegments : ∀ segment : Segment K,
        (segment.transform m).points = segment.points.map m.apply := by
      intro segment
      cases segment <;> rfl
    simp only [points, transform, List.map_cons, List.map_flatMap, List.flatMap_map, hsegments]

section

variable {K : Type} [RingScalar K]

theorem Segment.transform_identity (segment : Segment K) :
    segment.transform .identity = segment := by
  cases segment <;> simp only [transform, Matrix3x2.apply_identity]

/-- Segments are moved by one matrix after the other. -/
theorem Segment.transform_andThen (a b : Matrix3x2 K) (segment : Segment K) :
    segment.transform (a.andThen b) = (segment.transform a).transform b := by
  cases segment <;> simp only [transform, Matrix3x2.apply_andThen]

theorem Figure.transform_identity (f : Figure K) : f.transform .identity = f := by
  simp only [transform, Matrix3x2.apply_identity, Segment.transform_identity, List.map_id']

/-- Figures are moved by one matrix after the other. -/
theorem Figure.transform_andThen (a b : Matrix3x2 K) (f : Figure K) :
    f.transform (a.andThen b) = (f.transform a).transform b := by
  simp only [transform, Matrix3x2.apply_andThen, Segment.transform_andThen, List.map_map,
    Function.comp_def]

end

/-! ## Figures from below -/

/-- The fill mode and the figures of a geometry. -/
inductive Scene.HasFigures {K : Type} [Scalar K] (s : Scene K) :
    ObjectId → FillMode → List (Figure K) → Prop
  | figures {id : ObjectId} {o : Object K} {fillMode : Option FillMode} {figures : List (Figure K)}
      (hget : s.get? id = some o) (ho : o.content = .geometry (.figures fillMode figures)) :
      s.HasFigures id (fillMode.getD .alternate) figures
  | group {id : ObjectId} {o : Object K} {fillMode : Option FillMode} {geometries : List ObjectId}
      {parts : List (FillMode × List (Figure K))}
      (hget : s.get? id = some o) (ho : o.content = .geometry (.group fillMode geometries))
      (hparts : List.Forall₂ (fun g part => s.HasFigures g part.1 part.2) geometries parts) :
      s.HasFigures id (fillMode.getD .alternate) (parts.flatMap Prod.snd)
  | transformed {id source : ObjectId} {o : Object K} {own : Matrix3x2 K} {mode : FillMode}
      {figures moved : List (Figure K)}
      (hget : s.get? id = some o) (ho : o.content = .geometry (.transformed source own))
      (hsource : s.HasFigures source mode figures)
      (hmoved : List.Forall₂ (Figure.MovedBy own) figures moved) : s.HasFigures id mode moved
  /-- Other objects have none. -/
  | other {id : ObjectId} {o : Object K} (hget : s.get? id = some o)
      (ho : ∀ outline, o.content ≠ .geometry outline) : s.HasFigures id .alternate []

/-! ## Figures from above -/

namespace Scene

/-- From any depth above the rank, and wherever the geometry is put, its figures are these, moved
there. -/
def FlattensTo {K : Type} [Scalar K] (s : Scene K) (rank : Nat) (id : ObjectId) (mode : FillMode)
    (figures : List (Figure K)) : Prop :=
  ∀ depth holder m, rank < depth →
    s.flatten depth holder id m = .ok (mode, figures.map (·.transform m))

variable {K : Type} {s : Scene K} {id : ObjectId} {o : Object K} {rank : Nat}

/-- An outline made of figures is flat already. -/
theorem FlattensTo.figures [Scalar K] {fillMode : Option FillMode} {figures : List (Figure K)}
    (hget : s.get? id = some o) (ho : o.content = .geometry (.figures fillMode figures)) :
    s.FlattensTo rank id (fillMode.getD .alternate) figures := by
  intro depth holder m hlt
  obtain ⟨depth, rfl⟩ : ∃ n, depth = n + 1 := ⟨depth - 1, by omega⟩
  simp only [flatten, resolve_bind hget, ho]
  rfl

/-- The parts of a group are put where the group is. -/
theorem FlattensTo.group [Scalar K] {fillMode : Option FillMode} {geometries : List ObjectId}
    {parts : List (FillMode × List (Figure K))} (hget : s.get? id = some o)
    (ho : o.content = .geometry (.group fillMode geometries))
    (hparts :
      List.Forall₂ (fun g part => ∃ r < rank, s.FlattensTo r g part.1 part.2) geometries parts) :
    s.FlattensTo rank id (fillMode.getD .alternate) (parts.flatMap Prod.snd) := by
  intro depth holder m hlt
  obtain ⟨depth, rfl⟩ : ∃ n, depth = n + 1 := ⟨depth - 1, by omega⟩
  have hrun : (geometries.mapM fun g => s.flatten depth id g m) =
      .ok (parts.map fun part => (part.1, part.2.map (·.transform m))) := by
    refine mapM_eq_ok_of_forall₂ ?_
    rw [List.forall₂_map_right_iff]
    refine hparts.imp fun g part hpart => ?_
    obtain ⟨r, hr, hpart⟩ := hpart
    exact hpart depth id m (by omega)
  simp only [flatten, resolve_bind hget, ho, hrun]
  show Except.ok _ = Except.ok _
  rw [List.map_map, ← List.flatMap_def, List.map_flatMap]
  rfl

/-- What is put somewhere after its own transform is moved by both. -/
theorem FlattensTo.transformed [RingScalar K] {source : ObjectId} {own : Matrix3x2 K}
    {mode : FillMode} {figures : List (Figure K)} {r : Nat} (hget : s.get? id = some o)
    (ho : o.content = .geometry (.transformed source own)) (hr : r < rank)
    (hsource : s.FlattensTo r source mode figures) :
    s.FlattensTo rank id mode (figures.map (·.transform own)) := by
  intro depth holder m hlt
  obtain ⟨depth, rfl⟩ : ∃ n, depth = n + 1 := ⟨depth - 1, by omega⟩
  have hboth : figures.map (·.transform (own.andThen m)) =
      (figures.map (·.transform own)).map (·.transform m) := by
    rw [List.map_map]
    exact List.map_congr_left fun f _ => f.transform_andThen own m
  simp only [flatten, resolve_bind hget, ho]
  rw [hsource depth id (own.andThen m) (by omega), hboth]

/-- What is no geometry has no figures. -/
theorem FlattensTo.other [Scalar K] (hget : s.get? id = some o)
    (ho : ∀ outline, o.content ≠ .geometry outline) : s.FlattensTo rank id .alternate [] := by
  intro depth holder m hlt
  obtain ⟨depth, rfl⟩ : ∃ n, depth = n + 1 := ⟨depth - 1, by omega⟩
  rw [flatten, resolve_bind hget]
  split
  case h_1 h => exact absurd h (ho _)
  case h_2 h => exact absurd h (ho _)
  case h_3 h => exact absurd h (ho _)
  case h_4 => rfl

variable [RingScalar K] {A : ObjectId → Prop} {ranks : ObjectId → Nat}

/-- Every object has figures, and they are what it is flattened to.  The rank drops with every
reference. -/
theorem Ranked.exists_figures (h : s.Ranked A ranks) (n : Nat) :
    ∀ id, A id → ranks id < n →
      ∃ mode figures, s.HasFigures id mode figures ∧ s.FlattensTo (ranks id) id mode figures := by
  -- induction on a bound for ranks; a group needs all of its parts at once
  induction n with
  | zero => exact fun id _ hlt => absurd hlt (by omega)
  | succ n ih =>
    intro id hid hlt
    obtain ⟨o, hget⟩ := h.object hid
    have hbelow : ∀ g ∈ o.targets, ranks g < ranks id ∧
        ∃ mode figures, s.HasFigures g mode figures ∧ s.FlattensTo (ranks g) g mode figures := by
      intro g hg
      have hrefers := refers_of_get? hget hg
      have hdrop := h.descends hid hrefers
      exact ⟨hdrop, ih g (h.closed hid hrefers) (by omega)⟩
    by_cases hother : ∀ outline, o.content ≠ .geometry outline
    · exact ⟨_, _, .other hget hother, .other hget hother⟩
    · obtain ⟨outline, ho⟩ := not_forall_not.mp hother
      have href : ∀ ref ∈ (Content.geometry outline).references, ref.target ∈ o.targets := by
        intro ref href
        exact o.mem_targets_of_mem_references (ho ▸ href)
      cases outline with
      | figures fillMode figures => exact ⟨_, _, .figures hget ho, .figures hget ho⟩
      | group fillMode geometries =>
        have hparts : ∀ g ∈ geometries, ∃ part : FillMode × List (Figure K),
            s.HasFigures g part.1 part.2 ∧ ∃ r < ranks id, s.FlattensTo r g part.1 part.2 := by
          intro g hg
          have htarget : g ∈ o.targets := by
            refine Object.child_mem_targets .source (fun ref href => ?_) hg
            rwa [ho]
          obtain ⟨hdrop, mode, figures, hfigures, hflat⟩ := hbelow g htarget
          exact ⟨(mode, figures), hfigures, ranks g, hdrop, hflat⟩
        obtain ⟨parts, hparts⟩ := exists_forall₂ hparts
        exact ⟨_, _, .group hget ho (hparts.imp fun _ _ hp => hp.1),
          .group hget ho (hparts.imp fun _ _ hp => hp.2)⟩
      | transformed source own =>
        obtain ⟨hdrop, mode, figures, hfigures, hflat⟩ :=
          hbelow source (href ⟨_, source⟩ List.mem_cons_self)
        refine ⟨mode, figures.map (·.transform own), .transformed hget ho hfigures ?_,
          .transformed hget ho hdrop hflat⟩
        exact forall₂_map_right fun f _ => f.movedBy_transform own

/-- **Nested transforms compose.**  In a scene that is indexed every reachable object has figures.
Flattening it where it stands gives just these, and flattening it anywhere else gives the same fill
mode and the same figures, one by one, with every point moved there.  The depth does not matter once
it is that of the scene. -/
theorem flatten_moves {ix : Index} (hix : Index.build s = .ok ix) {id : ObjectId}
    (hid : id ∈ s.reachable) :
    ∃ mode figures, s.HasFigures id mode figures ∧
      ∀ depth holder, s.depthLimit ≤ depth →
        s.flatten depth holder id .identity = .ok (mode, figures) ∧
        ∀ m, ∃ moved, s.flatten depth holder id m = .ok (mode, moved) ∧
          List.Forall₂ (Figure.MovedBy m) figures moved := by
  have hsound := Index.sound_of_build hix
  have hmem := hsound.mem_ids_iff.mpr hid
  obtain ⟨mode, figures, hfigures, hflat⟩ :=
    hsound.ranked.exists_figures _ id hmem (Nat.lt_succ_self _)
  refine ⟨mode, figures, hfigures, fun depth holder hdepth => ?_⟩
  have hrank : ix.rank id < depth := by
    have hbound := hsound.ranked.bounded hmem
    unfold depthLimit at hdepth
    omega
  constructor
  · rw [hflat depth holder .identity hrank]
    simp only [Figure.transform_identity, List.map_id']
  · intro m
    exact ⟨_, hflat depth holder m hrank, forall₂_map_right fun f _ => f.movedBy_transform m⟩

/-- A group of a geometry and the same geometry transformed, which is itself a transformed one. -/
def lattice : Scene (BitVec 32) where
  objects := #[
    { content := .shapeVisual {} [⟨1⟩] },
    { content := .spriteShape { geometry := some ⟨2⟩ } },
    { content := .pathGeometry {} (some ⟨3⟩) },
    { content := .geometry (.group (some .winding) [⟨4⟩, ⟨5⟩]) },
    { content := .geometry (.transformed ⟨5⟩ ⟨0, 1, -1, 0, 10, 20⟩) },
    { content := .geometry (.transformed ⟨6⟩ ⟨2, 0, 0, 3, 0, 0⟩) },
    { content := .geometry (.figures none [
        { start := ⟨1, 1⟩
          segments := [.line ⟨4, 1⟩, .cubic ⟨4, 2⟩ ⟨3, 5⟩ ⟨1, 5⟩]
          closed := true }]) }]

/-- The figures of the group: turned and stretched, and only stretched. -/
def latticeFigures : List (Figure (BitVec 32)) := [
  { start := ⟨7, 22⟩
    segments := [.line ⟨7, 28⟩, .cubic ⟨4, 28⟩ ⟨-5, 26⟩ ⟨-5, 22⟩]
    closed := true },
  { start := ⟨2, 3⟩
    segments := [.line ⟨8, 3⟩, .cubic ⟨8, 6⟩ ⟨6, 15⟩ ⟨2, 15⟩]
    closed := true }]

/-- The figures of the lattice, moved by any matrix at all. -/
theorem lattice_flatten_moves :
    (∃ ix, Index.build lattice = .ok ix) ∧ ⟨3⟩ ∈ lattice.reachable ∧
    lattice.HasFigures ⟨3⟩ .winding latticeFigures ∧
    ∀ m, ∃ moved, lattice.flatten lattice.depthLimit ⟨2⟩ ⟨3⟩ m = .ok (.winding, moved) ∧
      List.Forall₂ (Figure.MovedBy m) latticeFigures moved := by
  obtain ⟨ix, hix⟩ : ∃ ix, Index.build lattice = .ok ix := ⟨_, by cbv⟩
  have hlist : lattice.reachable = [⟨0⟩, ⟨1⟩, ⟨2⟩, ⟨3⟩, ⟨4⟩, ⟨5⟩, ⟨6⟩] := by cbv
  have hreach : ⟨3⟩ ∈ lattice.reachable := by
    rw [hlist]
    decide
  have hflat :
      lattice.flatten lattice.depthLimit ⟨2⟩ ⟨3⟩ .identity = .ok (.winding, latticeFigures) := by
    cbv
  obtain ⟨mode, figures, hfigures, hmoves⟩ := flatten_moves hix hreach
  obtain ⟨hhere, hmoves⟩ := hmoves lattice.depthLimit ⟨2⟩ (Nat.le_refl _)
  cases hflat.symm.trans hhere
  exact ⟨⟨ix, hix⟩, hreach, hfigures, hmoves⟩

end Scene
end Diorama
