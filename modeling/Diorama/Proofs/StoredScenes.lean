/-
  Scenes that are stored and loaded again.

  A scene whose scalars are all numbers comes back as it was, only with nothing frozen
  (`ofText_toText`).  A scene that was loaded may hold infinite scalars, since a text may spell a
  number that is too large for single precision.  Where such a scalar is fixed the scene cannot be
  loaded again; where it is loose, the property that it was the value of comes back unset, and
  nothing tells (`reload_alters_overflow`).  `reload_iff` says which of these happens.
-/
import Diorama.Proofs.StoredObjects

namespace Diorama

/-! ## Checking floats -/

instance decidableReadsBack (x : Float32) : Decidable (ReadsBack x) :=
  inferInstanceAs (Decidable (_ = _))

instance decidableFaithful (xs : List Float32) : Decidable (Faithful xs) :=
  inferInstanceAs (Decidable (∀ x ∈ xs, _ → _))

instance decidableAllFinite (xs : List Float32) : Decidable (AllFinite xs) :=
  inferInstanceAs (Decidable (∀ x ∈ xs, _))

namespace Scene

/-! ## The scalars of a scene -/

section

variable {K : Type}

/-- The scalars that cannot be left out. -/
def fixedScalars (s : Scene K) : List K := s.objects.toList.flatMap Object.fixedScalars

/-- The scalars that are properties of their own and may be unset. -/
def looseScalars (s : Scene K) : List K := s.objects.toList.flatMap Object.looseScalars

/-- Every scalar of the arena. -/
def scalars (s : Scene K) : List K := s.fixedScalars ++ s.looseScalars

/-- What is stored of a scene if only some loose scalars are kept. -/
def stored (keep : K → Bool) (s : Scene K) : Scene K where
  root := s.root
  objects := s.objects.map (Object.keepLoose keep)

/-- The objects come back as they were exactly if every loose scalar is kept. -/
theorem stored_objects_eq_iff {keep : K → Bool} {s : Scene K} :
    (s.stored keep).objects = s.objects ↔ ∀ x ∈ s.looseScalars, keep x = true := by
  have hself : s.objects.toList.map (Object.keepLoose keep) = s.objects.toList ↔
      ∀ o ∈ s.objects.toList, o.keepLoose keep = o := by
    have hmap := List.map_inj_left (l := s.objects.toList) (f := Object.keepLoose keep) (g := id)
    rwa [List.map_id] at hmap
  rw [← Array.toList_inj, stored, Array.toList_map, looseScalars, List.forall_mem_flatMap, hself]
  exact forall₂_congr fun o _ => Object.keepLoose_eq_iff

end

/-! ## Storing and loading -/

variable {s : Scene Float32}

/-- A scene comes back with its root and its objects; frozen marks are not stored. -/
theorem carries (depth : Nat) (h : Faithful s.scalars) :
    Json.Carries (depth + 9) s.toJson Scene.ofJson? (AllFinite s.fixedScalars)
      (s.stored Float32.isFinite) := by
  rw [scalars, faithful_append, fixedScalars, looseScalars, faithful_flatMap, faithful_flatMap] at h
  have hroot := ObjectId.carries (depth + 8) s.root
  have hobjects : Json.Carries (depth + 8) (.ofList Object.toJson s.objects.toList)
      (Json.listOf Object.ofJson?) (∀ o ∈ s.objects.toList, AllFinite o.fixedScalars)
      (s.objects.toList.map (Object.keepLoose Float32.isFinite)) :=
    Json.Carries.list fun o ho => Object.carries depth (h.1 o ho) (h.2 o ho)
  have hmap : (s.objects.toList.map (Object.keepLoose Float32.isFinite)).toArray =
      s.objects.map (Object.keepLoose Float32.isFinite) := by
    rw [← Array.toList_map, Array.toArray_toList]
  refine ⟨.object ?_, fun t => ?_⟩
  · simp [hroot.legible, hobjects.legible]
  · simp [hmap, toJson, ofJson?, Option.bind_eq_some_iff, hroot.taken, hobjects.taken, fixedScalars,
      stored, and_assoc]

/-- Reading the text back is reading the value back. -/
theorem ofText_toText_eq (h : Faithful s.scalars) :
    ofText s.toText = (ofJson? s.toJson.echo).elim (.error .wrongShape) .ok := by
  refine Json.readAs_pretty (carries 118 h).legible ?_
  intro key hkey
  simp only [toJson, Json.names, List.map_cons, List.map_nil, List.mem_cons, List.not_mem_nil,
    or_false] at hkey
  rcases hkey with rfl | rfl <;> rfl

/-- With all fixed scalars finite, the scene comes back. -/
theorem ofText_toText_of_finite (h : Faithful s.scalars) (hfinite : AllFinite s.fixedScalars) :
    ofText s.toText = .ok (s.stored Float32.isFinite) := by
  rw [ofText_toText_eq h, ((carries 118 h).taken _).mpr ⟨hfinite, rfl⟩]
  rfl

/-- With a fixed scalar that is not finite, the text cannot be read. -/
theorem ofText_toText_of_not_finite (h : Faithful s.scalars)
    (hfinite : ¬ AllFinite s.fixedScalars) : ofText s.toText = .error .wrongShape := by
  rw [ofText_toText_eq h]
  cases htake : ofJson? s.toJson.echo with
  | none => rfl
  | some t => exact absurd (((carries 118 h).taken t).mp htake).1 hfinite

/-- **A scene is stored without loss**: if its scalars are numbers, then the text that stores it is
loaded as the same scene with nothing frozen. -/
theorem ofText_toText (s : Scene Float32) (hfinite : AllFinite s.scalars)
    (hreads : ∀ x ∈ s.scalars, ReadsBack x) : ofText s.toText = .ok { s with frozen := [] } := by
  have hfixed : AllFinite s.fixedScalars := fun x hx => hfinite x (List.mem_append_left _ hx)
  have hloose : (s.stored Float32.isFinite).objects = s.objects :=
    stored_objects_eq_iff.mpr fun x hx => hfinite x (List.mem_append_right _ hx)
  have hfaithful : Faithful s.scalars := fun x hx _ => hreads x hx
  rw [ofText_toText_of_finite hfaithful hfixed]
  show Except.ok (Scene.mk s.root (s.stored Float32.isFinite).objects []) = _
  rw [hloose]

/-- A scene with a property bag, escaped text, a negative zero, and set and unset properties. -/
def keepsake : Scene Float32 where
  root := ⟨1⟩
  objects := #[
    { attached := {
        comment := some "a \"quoted\" line\nand a bell \x07"
        properties := ⟨[("Weight", .scalar 0.1), ("Anchor", .vector2 ⟨-0.0, 3.5⟩)], by decide⟩
        animators := [⟨"Opacity", ⟨2⟩, none⟩] }
      content := .colorBrush (some ⟨255, 0, 128, 7⟩) },
    { content := .spriteShape { transform := { rotation := some 1e-7 }, fillBrush := some ⟨0⟩ } },
    { content := .keyFrameAnimation {
        duration := -5
        frames :=
          [⟨0.25, .vector3 ⟨1e20, 0.0, -0.0⟩, none⟩, ⟨1.0, .expression "x\\y", some ⟨0⟩⟩] } }]
  frozen := [⟨2⟩]

/-- The keepsake comes back without its frozen mark. -/
theorem keepsake_ofText_toText :
    AllFinite keepsake.scalars ∧ (∀ x ∈ keepsake.scalars, ReadsBack x) ∧
      ofText keepsake.toText = .ok { keepsake with frozen := [] } := by
  have hfinite : AllFinite keepsake.scalars := by decide +kernel
  have hreads : ∀ x ∈ keepsake.scalars, ReadsBack x := by decide +kernel
  exact ⟨hfinite, hreads, ofText_toText keepsake hfinite hreads⟩

/-! ## Loading what was loaded -/

/-- **What a reload gives**: a scene with a fixed scalar that is no number is refused; any other one
comes back without its loose scalars that are none.  So a reload that succeeds gives the same
objects exactly if the loose scalars are numbers. -/
theorem reload_iff (s : Scene Float32) (hreads : Faithful s.scalars) :
    (¬ AllFinite s.fixedScalars → ofText s.toText = .error .wrongShape) ∧
    (AllFinite s.fixedScalars → ofText s.toText = .ok (s.stored Float32.isFinite)) ∧
    ((∀ t, ofText s.toText = .ok t → t.root = s.root ∧ t.objects = s.objects) ↔
      (AllFinite s.fixedScalars → AllFinite s.looseScalars)) := by
  refine ⟨ofText_toText_of_not_finite hreads, ofText_toText_of_finite hreads,
    fun hsame hfixed => ?_, fun himplies t ht => ?_⟩
  · have hstored := hsame _ (ofText_toText_of_finite hreads hfixed)
    exact stored_objects_eq_iff.mp hstored.2
  · by_cases hfixed : AllFinite s.fixedScalars
    · rw [ofText_toText_of_finite hreads hfixed] at ht
      cases ht
      exact ⟨rfl, stored_objects_eq_iff.mpr (himplies hfixed)⟩
    · rw [ofText_toText_of_not_finite hreads hfixed] at ht
      cases ht

/-- A clip with an infinite inset. -/
def unboundedClip : Scene Float32 where
  objects := #[{ content := .insetClip (some (.ofBits 0x7F800000)) none (some 2.5) none }]

theorem unboundedClip_reload :
    Faithful unboundedClip.scalars ∧
      ofText unboundedClip.toText = .ok (unboundedClip.stored Float32.isFinite) ∧
      ¬ ∀ t, ofText unboundedClip.toText = .ok t →
        t.root = unboundedClip.root ∧ t.objects = unboundedClip.objects := by
  have hreads : Faithful unboundedClip.scalars := by decide +kernel
  have hfixed : AllFinite unboundedClip.fixedScalars := by decide +kernel
  have hloose : ¬ AllFinite unboundedClip.looseScalars := by decide +kernel
  obtain ⟨-, hstored, hsame⟩ := reload_iff unboundedClip hreads
  exact ⟨hreads, hstored hfixed, fun h => hloose (hsame.mp h hfixed)⟩

/-- A clip whose inset is too large for single precision. -/
def overflowText : String :=
  "\x7b\"root\":0,\"objects\":[\x7b\"type\":\"InsetClip\",\"left_inset\":1e39\x7d]\x7d"

/-- **A reload can change a scene and not tell**: the inset is loaded as infinite, and comes back
unset. -/
theorem reload_alters_overflow :
    ∃ s t, ofText overflowText = .ok s ∧ ofText s.toText = .ok t ∧ t.objects ≠ s.objects := by
  have hcheck : (ofText overflowText).toOption.all (fun s => decide (Faithful s.scalars ∧
      AllFinite s.fixedScalars ∧ ¬ AllFinite s.looseScalars)) = true := by decide +kernel
  have hloads : (ofText overflowText).isOk = true := by decide +kernel
  cases hs : ofText overflowText with
  | error fault =>
    rw [hs] at hloads
    cases hloads
  | ok s =>
    rw [hs] at hcheck
    obtain ⟨hreads, hfixed, hloose⟩ := of_decide_eq_true hcheck
    refine ⟨s, _, rfl, ofText_toText_of_finite hreads hfixed, fun h => ?_⟩
    exact hloose (stored_objects_eq_iff.mp h)

end Scene
end Diorama
