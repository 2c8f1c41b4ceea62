/-
  The identifiers in emitted code.

  A method is called by the name of its object: a base name, or one with a number or marks behind
  it, each after an underscore (`IsName`).  So a name has the characters of an identifier, and a
  name without an underscore is a base name of one word.  None of these is the name of the method
  that hands out the root, and none is one letter, as it would have to be for its field to be called
  like that of the compositor.
-/
import Mathlib
import Diorama.Proofs.MethodCalls
import Diorama.Proofs.NumberedNames

namespace Diorama

/-! ## Names -/

/-- Letters, digits and underscores, with a capital letter first. -/
structure IsIdentifier (name : String) : Prop where
  capitalized : IsCapitalized name
  chars : ∀ c ∈ name.toList, c.isAlphanum = true ∨ c = '_'

/-- A base name, with nothing behind it or with an underscore and more. -/
def IsName (name : String) : Prop :=
  ∃ base tail, IsBase base ∧ name.toList = base.toList ++ tail ∧ (∀ c ∈ tail.head?, c = '_') ∧
    ∀ c ∈ tail, c.isAlphanum = true ∨ c = '_'

/-- A base is a name by itself. -/
theorem IsBase.isName {base : String} (h : IsBase base) : IsName base :=
  ⟨base, [], h, (List.append_nil _).symm, by simp, by simp⟩

namespace IsName

variable {name : String}

/-- A word behind an underscore. -/
theorem append (h : IsName name) {rest : String} {w : List Char} (hrest : rest.toList = '_' :: w)
    (hw : IsWord w) : IsName (name ++ rest) := by
  obtain ⟨base, tail, hbase, hname, hstart, htail⟩ := h
  refine ⟨base, tail ++ '_' :: w, hbase, ?_, ?_, ?_⟩
  · rw [String.toList_append, hname, hrest, List.append_assoc]
  · cases tail with
    | nil => simp
    | cons c tail => exact hstart
  · refine List.forall_mem_append.mpr ⟨htail, List.forall_mem_cons.mpr ⟨.inr rfl, ?_⟩⟩
    exact fun c hc => .inl (hw c hc)

/-- A name with a number behind it is a name. -/
theorem numbered (h : IsName name) (size index : Nat) :
    IsName (Names.numbered name size index) := by
  rcases Nat.lt_or_ge 1 size with hmany | hone
  · rw [Names.numbered_eq hmany, String.append_assoc]
    refine h.append (w := (Names.numeral size index).toList) ?_ fun c hc => ?_
    · rw [String.toList_append]
      rfl
    · rw [Char.isAlphanum, Names.isDigit_numeral _ _ c hc, Bool.or_true]
  · rw [Names.numbered, if_neg (Nat.not_lt.mpr hone)]
    exact h

/-- A name with a mark behind it is a name. -/
theorem marked (h : IsName name) : IsName (name ++ "_x") :=
  h.append (w := ['x']) rfl (List.forall_mem_singleton.mpr rfl)

/-- Names have letters, digits and underscores. -/
theorem chars (h : IsName name) : ∀ c ∈ name.toList, c.isAlphanum = true ∨ c = '_' := by
  obtain ⟨base, tail, hbase, hname, -, htail⟩ := h
  rw [hname]
  exact List.forall_mem_append.mpr ⟨hbase.chars, htail⟩

/-- A name of one word stands for a kind of object or of animation. -/
theorem of_underscore_notMem (h : IsName name) (hword : '_' ∉ name.toList) :
    (∃ k : Kind, name = k.label) ∨ ∃ k : ValueKind, name = k.name ++ "KeyFrameAnimation" := by
  obtain ⟨base, tail, hbase, hname, htail, -⟩ := h
  have hnil : tail = [] := by
    cases tail with
    | nil => rfl
    | cons c tail =>
      obtain rfl : c = '_' := htail c rfl
      rw [hname] at hword
      exact absurd (List.mem_append_right _ List.mem_cons_self) hword
  rw [hnil, List.append_nil] at hname
  obtain rfl := String.toList_inj.mp hname
  cases hbase with
  | label k => exact .inl ⟨k, rfl⟩
  | keyFrames k => exact .inr ⟨k, rfl⟩
  | brush c =>
    rw [toList_brush] at hword
    exact absurd (List.mem_append_right _ List.mem_cons_self) hword
  | animation k hfirst hlast =>
    rw [toList_animation] at hword
    exact absurd (List.mem_append_right _ List.mem_cons_self) hword

/-- A word that stands for no kind is no name. -/
theorem ne_word (h : IsName name) {w : String} (hword : '_' ∉ w.toList)
    (hlabel : ∀ k : Kind, w ≠ k.label)
    (hframes : ∀ k : ValueKind, w ≠ k.name ++ "KeyFrameAnimation") :
    name ≠ w := by
  rintro rfl
  rcases h.of_underscore_notMem hword with ⟨k, hk⟩ | ⟨k, hk⟩
  · exact hlabel k hk
  · exact hframes k hk

/-- No object is given the name of the method for the root. -/
theorem ne_createRoot (h : IsName name) : name ≠ "CreateRoot" :=
  h.ne_word (by decide) (fun k => by cases k <;> decide) (fun k => by cases k <;> decide)

/-- The field of a method is not that of the compositor. -/
theorem fieldName_ne_compositorName (h : IsName name) (hcapital : IsCapitalized name) :
    fieldName name ≠ Language.compositorName := by
  have hletter : IsCapitalized "C" := rfl
  have hne : name ≠ "C" :=
    h.ne_word (by decide) (fun k => by cases k <;> decide) (fun k => by cases k <;> decide)
  exact fun heq => hne (fieldName_injective hcapital hletter heq)

end IsName

/-- Every object is given a name in this sense. -/
theorem Names.isName_ofScene {s : Scene Float32} {id : ObjectId} {name : String}
    (h : (ofScene s).get? id = some name) : IsName name :=
  ofScene_induction (fun o => o.isBase_baseName.isName)
    (fun _ size index hname => hname.numbered size index) (fun _ hname => hname.marked) h

/-! ## Emitted code -/

namespace Scene

variable {s : Scene Float32} {settings : CodeSettings} {lang : Language}

/-- **The identifiers of emitted code are well formed and never clash**: the names of methods with
that of the method for the root, and the fields of cached objects with that of the compositor. -/
theorem emit_identifiers {code : GeneratedCode}
    (h : s.emit (Names.ofScene s) settings lang = .ok code) :
    (∀ m ∈ code.instantiator.methods, IsIdentifier m.name) ∧
    ("CreateRoot" :: code.instantiator.methods.map (·.name)).Nodup ∧
    (Language.compositorName ::
      (code.instantiator.methods.filter (·.isCached)).map fun m => fieldName m.name).Nodup ∧
    ∀ m ∈ code.instantiator.methods, ∀ m' ∈ code.instantiator.methods,
      fieldName m.name = fieldName m'.name → m.name = m'.name := by
  obtain ⟨ix, hmakes⟩ := Instantiator.makes_of_ofScene (ofScene_of_emit h)
  have hname : ∀ m ∈ code.instantiator.methods, IsName m.name ∧ IsCapitalized m.name := by
    intro m hm
    obtain ⟨o, -, -, hmake⟩ := hmakes.exists_object hm
    exact ⟨Names.isName_ofScene hmake.name, Names.isCapitalized_ofScene hmake.name⟩
  have hfield : ∀ m ∈ code.instantiator.methods, ∀ m' ∈ code.instantiator.methods,
      fieldName m.name = fieldName m'.name → m.name = m'.name := fun m hm m' hm' =>
    fieldName_injective (hname m hm).2 (hname m' hm').2
  -- methods make different objects, so equal names would be equal methods
  have hmethods : code.instantiator.methods.Nodup := hmakes.nodup_objects.of_map
  refine ⟨fun m hm => ⟨(hname m hm).2, (hname m hm).1.chars⟩, ?_, ?_, hfield⟩
  · refine List.nodup_cons.mpr
      ⟨fun hmem => ?_, hmethods.map_on fun m hm m' hm' => hmakes.eq_of_name hm hm'⟩
    obtain ⟨m, hm, heq⟩ := List.mem_map.mp hmem
    exact (hname m hm).1.ne_createRoot heq
  · refine List.nodup_cons.mpr
      ⟨fun hmem => ?_, (hmethods.filter _).map_on fun m hm m' hm' heq => ?_⟩
    · obtain ⟨m, hm, heq⟩ := List.mem_map.mp hmem
      have hm := List.mem_of_mem_filter hm
      exact (hname m hm).1.fieldName_ne_compositorName (hname m hm).2 heq
    · have hm := List.mem_of_mem_filter hm
      have hm' := List.mem_of_mem_filter hm'
      exact hmakes.eq_of_name hm hm' (hfield m hm m' hm' heq)

/-- A visual with two properties that an animation sets to what is no number. -/
def blackout : Scene Float32 where
  objects := #[
    { content := .containerVisual {} [⟨1⟩, ⟨1⟩]
      attached := { animators := [⟨"Opacity", ⟨2⟩, none⟩, ⟨"Offset.X", ⟨2⟩, none⟩] } },
    { content := .shapeVisual {} [] },
    { content := .keyFrameAnimation { frames := [⟨1, .scalar (.ofBits 0x7FC00000), none⟩] } }]

/-- The methods that make it. -/
def blackoutMethods : Instantiator where
  methods := [
    { object := ⟨1⟩
      name := "ShapeVisual"
      typeName := "ShapeVisual"
      isCached := true
      statements := [.create (some "_shapeVisual") (.compositor "CreateShapeVisual" [])]
      description := none },
    { object := ⟨2⟩
      name := "ScalarAnimation_NaN_to_NaN"
      typeName := "ScalarKeyFrameAnimation"
      isCached := true
      statements := [
        .create (some "_scalarAnimation_NaN_to_NaN")
          (.compositor "CreateScalarKeyFrameAnimation" []),
        .set "Duration" (.timeSpan 0),
        .invoke none "InsertKeyFrame" [.number 1, .number (.ofBits 0x7FC00000)]]
      description := none },
    { object := ⟨0⟩
      name := "ContainerVisual"
      typeName := "ContainerVisual"
      isCached := false
      statements := [
        .create none (.compositor "CreateContainerVisual" []),
        .invoke (some "Children") "InsertAtTop" [.call ⟨⟨1⟩, "ShapeVisual"⟩],
        .invoke (some "Children") "InsertAtTop" [.call ⟨⟨1⟩, "ShapeVisual"⟩],
        .invoke none "StartAnimation" [.text "Opacity", .call ⟨⟨2⟩, "ScalarAnimation_NaN_to_NaN"⟩],
        .invoke none "StartAnimation" [.text "Offset.X", .call ⟨⟨2⟩, "ScalarAnimation_NaN_to_NaN"⟩]]
      description := none }]
  root := "ContainerVisual"

/-- The names of the blackout, one of them with values that are no numbers. -/
theorem blackout_names : Names.ofScene blackout =
    ⟨[(⟨0⟩, "ContainerVisual"), (⟨1⟩, "ShapeVisual"), (⟨2⟩, "ScalarAnimation_NaN_to_NaN")]⟩ := by
  cbv

theorem blackout_ofScene :
    Instantiator.ofScene blackout (Names.ofScene blackout) = .ok blackoutMethods := by
  rw [blackout_names]
  cbv

theorem blackout_identifiers : ∃ code,
    blackout.emit (Names.ofScene blackout) {} .cSharp = .ok code ∧
    IsIdentifier "ScalarAnimation_NaN_to_NaN" ∧
    code.instantiator.methods.map (·.name) =
      ["ShapeVisual", "ScalarAnimation_NaN_to_NaN", "ContainerVisual"] ∧
    ("CreateRoot" :: code.instantiator.methods.map (·.name)).Nodup ∧
    ["_c", "_shapeVisual", "_scalarAnimation_NaN_to_NaN"].Nodup := by
  have hemit := emit_of_ofScene blackout_ofScene {} .cSharp
  obtain ⟨hidentifiers, hnames, hfields, -⟩ := emit_identifiers hemit
  exact ⟨_, hemit, hidentifiers _ (List.mem_cons_of_mem _ List.mem_cons_self), rfl, hnames, hfields⟩

end Scene
end Diorama
