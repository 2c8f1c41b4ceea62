/-
  Which scenes are emitted.

  The body of an object is made if everything it calls has a name, and a scene names all that it
  reaches.  So names never stop emission.  What does is written down in `Scene.Emittable`: a scene
  that cannot be indexed, a kind of object that has no code, something attached where nothing can be
  carried, and an animator whose controller is of another kind.

  Going through a list keeps the condition for success (`SucceedsIff.mapM`), so that of a scene is
  put together from those of its objects (`Instantiator.ofScene_succeedsIff`).
-/
import Mathlib
import Diorama.Proofs.MethodCalls

namespace Diorama

/-! ## What is asked of a scene -/

/-- What is asked of a scene before code is written for it. -/
structure Scene.Emittable (s : Scene Float32) : Prop where
  indexed : ∃ ix, Index.build s = .ok ix
  supported : ∀ id ∈ s.reachable, ∀ o, s.get? id = some o → o.kind ≠ .external
  root : ∀ o, s.get? s.root = some o → o.kind ≠ .animationController
  /-- Paths and geometries have nothing attached. -/
  bare : ∀ id ∈ s.reachable, ∀ o, s.get? id = some o → o.kind = .path ∨ o.kind = .geometry →
    o.attached = {}
  controlled : ∀ id ∈ s.reachable, ∀ o, s.get? id = some o → o.kind ≠ .animationController →
    ∀ a ∈ o.attached.animators, a.Controlled s

/-! ## Scenes -/

namespace Instantiator

variable {s : Scene Float32} {names : Names} {ix : Index}

/-- What an indexed object refers to has a name, if all that the scene reaches has. -/
theorem covers_callees (hix : ix.Sound s) (hnames : names.Covers s.reachable) {id : ObjectId}
    {o : Object Float32} (hid : id ∈ ix.ids) (ho : s.get? id = some o) :
    names.Covers o.callees := by
  intro b hb
  obtain ⟨r, hr, rfl⟩ := List.mem_map.mp hb
  have hrefers : s.Refers id r.target :=
    Scene.refers_of_get? ho (List.mem_map_of_mem (List.mem_of_mem_filter hr))
  exact hnames _ (hix.mem_ids_iff.mp (hix.rank_lt hid hrefers).1)

/-- A scene can be emitted if it can be indexed and every object that gets a method can be
emitted. -/
theorem emittable_iff (hix : Index.build s = .ok ix) :
    s.Emittable ↔ ∀ e ∈ made s ix, e.2.Emittable s := by
  have hsound := Index.sound_of_build hix
  have hmade : ∀ id ∈ s.reachable, ∀ o, s.get? id = some o → isMade s id o = true →
      (id, o) ∈ made s ix :=
    fun id hid o ho hisMade => (mem_made_iff hsound).mpr ⟨hsound.mem_ids_iff.mpr hid, ho, hisMade⟩
  constructor
  · rintro h ⟨id, o⟩ he
    obtain ⟨hid, ho, hisMade⟩ := (mem_made_iff hsound).mp he
    have hreach := hsound.mem_ids_iff.mp hid
    -- a controller gets a method only at the root, where it is refused
    have hkind : o.kind ≠ .animationController := by
      intro hkind
      obtain rfl : id = s.root := by simpa [isMade, hkind] using hisMade
      exact h.root o ho hkind
    exact ⟨hkind, h.supported id hreach o ho, h.bare id hreach o ho,
      h.controlled id hreach o ho hkind⟩
  · intro h
    have hobject : ∀ id ∈ s.reachable, ∀ o, s.get? id = some o → o.kind ≠ .animationController →
        o.Emittable s :=
      fun id hid o ho hkind => h _ (hmade id hid o ho (by simp [isMade, hkind]))
    refine ⟨⟨ix, hix⟩, fun id hid o ho hkind => ?_, fun o ho => ?_, fun id hid o ho hkind => ?_,
      fun id hid o ho hkind => (hobject id hid o ho hkind).controlled⟩
    · exact (hobject id hid o ho (by simp [hkind])).supported hkind
    · exact (h _ (hmade _ (Scene.root_mem_reachable ho) o ho (by simp [isMade]))).made
    · refine (hobject id hid o ho ?_).bare hkind
      rcases hkind with hkind | hkind <;> simp [hkind]

/-- **The methods of a scene are made exactly if it can be emitted**, given names for all that it
reaches. -/
theorem ofScene_succeedsIff (hnames : names.Covers s.reachable) :
    SucceedsIff (ofScene s names) s.Emittable := by
  cases hix : Index.build s with
  | error e =>
    rw [ofScene, hix]
    refine .refused (fun id he => ?_) fun h => ?_
    · cases he ▸ Index.fault_of_build hix
    · obtain ⟨ix, hok⟩ := h.indexed
      rw [hix] at hok
      cases hok
  | ok ix =>
    have hsound := Index.sound_of_build hix
    have hroot : Succeeds (names.name s.root) :=
      ⟨_, hnames.name (hsound.mem_ids_iff.mp hsound.root_mem)⟩
    rw [ofScene, hix, emittable_iff hix]
    refine (SucceedsIff.bind (SucceedsIff.mapM ?_) fun _ _ => ?_).congr (iff_of_eq (and_true _))
    · rintro ⟨id, o⟩ he
      obtain ⟨hid, ho, -⟩ := (mem_made_iff hsound).mp he
      have hname : Succeeds (names.name id) := ⟨_, hnames.name (hsound.mem_ids_iff.mp hid)⟩
      have hbody := Body.ofObject_succeedsIff s id (covers_callees hsound hnames hid ho)
      refine ((SucceedsIff.accepted hname trivial).bind fun _ _ => hbody.map).congr ?_
      exact iff_of_eq (true_and _)
    · exact .map (.accepted hroot trivial)

end Instantiator

/-- **Which scenes are emitted**: those that can be indexed, reach nothing external, do not start
from a controller, have nothing attached to paths and geometries, and animate under controllers
only.  On its own names a scene never lacks one. -/
theorem Scene.emit_succeeds_iff (s : Scene Float32) (settings : CodeSettings) (lang : Language) :
    ((∃ code, s.emit (Names.ofScene s) settings lang = .ok code) ↔ s.Emittable) ∧
    ∀ id, s.emit (Names.ofScene s) settings lang ≠ .error (.unnamed id) := by
  have hnames : (Names.ofScene s).Covers s.reachable := fun _ hid => Names.exists_name_iff.mpr hid
  have hemit : SucceedsIff (s.emit (Names.ofScene s) settings lang) s.Emittable :=
    (Instantiator.ofScene_succeedsIff hnames).map
  exact ⟨hemit.succeeds, hemit.named⟩

/-- A visual that fades under an animation in place of a controller. -/
def Scene.miscued : Scene Float32 where
  root := ⟨0⟩
  objects := #[
    { content := .containerVisual {} []
      attached := { animators := [⟨"Opacity", ⟨1⟩, some ⟨1⟩⟩] } },
    { content := .expressionAnimation { expression := "fade" } }]

theorem Scene.tableau_emittable : tableau.Emittable ∧ ¬ miscued.Emittable := by
  refine ⟨(emit_succeeds_iff tableau {} .cSharp).1.mp
    ⟨_, emit_of_ofScene tableau_ofScene {} .cSharp⟩,
    fun h => ?_⟩
  have hroot : miscued.root ∈ miscued.reachable := root_mem_reachable rfl
  obtain ⟨p, hp, hkind⟩ :=
    h.controlled _ hroot _ rfl (by decide) _ List.mem_cons_self ⟨1⟩ rfl
  cases hp
  cases hkind

end Diorama
