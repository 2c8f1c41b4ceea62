/-
  The methods of a scene as a list.

  Methods are written in the order in which the index leaves their objects, and controllers are
  passed over.  So the list holds every other reachable object once, an object after all that it
  refers to, and the root last (`Instantiator.Makes.root_last`).

  Whether an object is kept in a field is decided by a count that another walk takes.  It counts
  slots, not objects and not calls: a child listed twice counts twice, and the slots of controllers
  and slots for controllers count too.  `Scene.heldTwice_iff` says what the count means.
-/
import Mathlib
import Diorama.Proofs.FiledReferences
import Diorama.Proofs.MethodCalls

namespace Diorama

/-! ## Where an object is held -/

namespace Scene

variable {K : Type} {s : Scene K}

/-- An object that the root reaches holds another one in a slot. -/
def Holds (s : Scene K) (holder : ObjectId) (slot : Slot) (id : ObjectId) : Prop :=
  s.Reaches s.root holder ∧ ∃ o, s.get? holder = some o ∧ ⟨slot, id⟩ ∈ o.references

/-- Two slots hold the object, of different objects or of one. -/
def HeldTwice (s : Scene K) (id : ObjectId) : Prop :=
  ∃ a slot b slot', s.Holds a slot id ∧ s.Holds b slot' id ∧ (a, slot) ≠ (b, slot')

/-- The slots that hold an object, each with its holder. -/
def holders (s : Scene K) (id : ObjectId) : List (ObjectId × Slot) :=
  s.reachable.flatMap fun a =>
    ((s.referencesOf a).filter (·.target = id)).map fun r => (a, r.slot)

theorem length_holders (s : Scene K) (id : ObjectId) :
    (s.holders id).length = s.slotTargets.count id := by
  have hcount : ∀ a, (s.targetsOf a).count id =
      (((s.referencesOf a).filter (·.target = id)).map fun r => (a, r.slot)).length := by
    intro a
    rw [targetsOf_eq_map, List.count, List.countP_map, List.countP_eq_length_filter,
      List.length_map]
    rfl
  rw [holders, slotTargets, List.length_flatMap, List.count_flatMap]
  exact congrArg List.sum (List.map_congr_left fun a _ => (hcount a).symm)

/-- No slot holds two references, and no object is reached twice. -/
theorem nodup_holders (s : Scene K) (id : ObjectId) : (s.holders id).Nodup := by
  rw [holders, List.nodup_flatMap]
  refine ⟨fun a _ => ?_, s.reachable_nodup.imp fun {a b} hne => ?_⟩
  · refine List.Nodup.of_map Prod.snd ?_
    rw [List.map_map]
    exact (s.nodup_slots_referencesOf a).sublist (List.filter_sublist.map _)
  · intro e he he'
    obtain ⟨r, -, rfl⟩ := List.mem_map.mp he
    obtain ⟨r', -, heq⟩ := List.mem_map.mp he'
    exact hne (congrArg Prod.fst heq).symm

theorem mem_holders_iff (hreach : ∀ a, a ∈ s.reachable ↔ s.Reaches s.root a) {a id : ObjectId}
    {slot : Slot} : (a, slot) ∈ s.holders id ↔ s.Holds a slot id := by
  constructor
  · intro h
    obtain ⟨b, hb, h⟩ := List.mem_flatMap.mp h
    obtain ⟨⟨slot', target⟩, hr, heq⟩ := List.mem_map.mp h
    obtain ⟨rfl, rfl⟩ := Prod.mk.inj heq
    obtain ⟨hheld, htarget⟩ := List.mem_filter.mp hr
    obtain rfl : target = id := of_decide_eq_true htarget
    exact ⟨(hreach b).mp hb, mem_referencesOf_iff.mp hheld⟩
  · rintro ⟨ha, ho⟩
    refine List.mem_flatMap.mpr ⟨a, (hreach a).mpr ha, List.mem_map.mpr ⟨⟨slot, id⟩, ?_, rfl⟩⟩
    exact List.mem_filter.mpr ⟨mem_referencesOf_iff.mpr ho, decide_eq_true rfl⟩

/-- **What the count of an object means**: it is more than one if two slots hold the object. -/
theorem heldTwice_iff (hreach : ∀ a, a ∈ s.reachable ↔ s.Reaches s.root a) {id : ObjectId} :
    s.HeldTwice id ↔ 1 < s.slotTargets.count id := by
  rw [← length_holders, ← List.toFinset_card_of_nodup (s.nodup_holders id), Finset.one_lt_card_iff]
  constructor
  · rintro ⟨a, slot, b, slot', ha, hb, hne⟩
    exact ⟨(a, slot), (b, slot'), List.mem_toFinset.mpr ((mem_holders_iff hreach).mpr ha),
      List.mem_toFinset.mpr ((mem_holders_iff hreach).mpr hb), hne⟩
  · rintro ⟨⟨a, slot⟩, ⟨b, slot'⟩, ha, hb, hne⟩
    exact ⟨a, slot, b, slot', (mem_holders_iff hreach).mp (List.mem_toFinset.mp ha),
      (mem_holders_iff hreach).mp (List.mem_toFinset.mp hb), hne⟩

end Scene

/-! ## The order of methods -/

namespace Instantiator.Makes

variable {s : Scene Float32} {names : Names} {ix : Index} {i : Instantiator}
  (h : Makes s names ix i)

include h

/-- Exactly what the root reaches is indexed. -/
theorem mem_ids_iff_reaches {id : ObjectId} : id ∈ ix.ids ↔ s.Reaches s.root id := by
  rw [h.sound.mem_ids_iff, h.sound.ranked.mem_reachable_iff h.sound.root_mem]

/-- The objects that have methods are those that are reachable and no controllers. -/
theorem mem_objects_iff {id : ObjectId} : id ∈ i.methods.map (·.object) ↔
    s.Reaches s.root id ∧ ∃ o, s.get? id = some o ∧ o.kind ≠ .animationController := by
  constructor
  · intro hid
    obtain ⟨m, hm, rfl⟩ := List.mem_map.mp hid
    obtain ⟨o, hid, ho, hmakes⟩ := h.exists_object hm
    exact ⟨h.mem_ids_iff_reaches.mp hid, o, ho, hmakes.kind⟩
  · rintro ⟨hreach, o, ho, hkind⟩
    obtain ⟨k, m, hm, hmakes⟩ := h.exists_method (h.mem_ids_iff_reaches.mpr hreach) ho hkind
    exact List.mem_map.mpr ⟨m, List.mem_of_getElem? hm, hmakes.object⟩

/-- A method comes after those of all that its object refers to. -/
theorem lt_of_refers {j k : Nat} {m m' : Method} (hm : i.methods[j]? = some m)
    (hm' : i.methods[k]? = some m') (hrefers : s.Refers m.object m'.object) : k < j := by
  obtain ⟨o, hid, -, -⟩ := h.exists_object (List.mem_of_getElem? hm)
  exact h.lt_of_rank_lt hm hm' (h.sound.rank_lt hid hrefers).2

/-- **The root comes last**, since it ranks above all that it reaches. -/
theorem root_last : i.methods.getLast?.map (·.object) = some s.root := by
  obtain ⟨o, ho, -⟩ := h.sound.object _ h.sound.root_mem
  obtain ⟨k, m, hm, hmakes⟩ := h.exists_method_of_isMade h.sound.root_mem ho (by simp [isMade])
  obtain ⟨hk, hget⟩ := List.getElem?_eq_some_iff.mp hm
  have hlast : i.methods.length - 1 < i.methods.length := by omega
  obtain ⟨p, hid, -, -⟩ := h.exists_object (List.getElem_mem hlast)
  have hle := (h.sound.ranked.reaches_lower h.sound.root_mem (h.sound.reached _ hid)).2
  have hsame : k = i.methods.length - 1 := by
    by_contra hne
    have hranked := List.pairwise_iff_getElem.mp h.methods_ranked k _ hk hlast (by omega)
    rw [hget, hmakes.object] at hranked
    omega
  rw [List.getLast?_eq_getElem?, ← hsame, hm, Option.map_some, hmakes.object]

theorem isCached_iff {m : Method} (hm : m ∈ i.methods) :
    m.isCached = true ↔ s.HeldTwice m.object := by
  obtain ⟨o, -, -, hmakes⟩ := h.exists_object hm
  rw [hmakes.isCached, decide_eq_true_iff, Scene.heldTwice_iff]
  exact fun a => h.sound.ranked.mem_reachable_iff h.sound.root_mem

end Instantiator.Makes

/-! ## Emitted code -/

namespace Scene

variable {s : Scene Float32} {settings : CodeSettings} {lang : Language}

/-- The methods stand for the objects of a scene. -/
structure ListedBy (s : Scene Float32) (methods : List WrittenMethod) : Prop where
  once : (methods.map (·.object)).Nodup
  objects : ∀ id, id ∈ methods.map (·.object) ↔
    s.Reaches s.root id ∧ ∃ o, s.get? id = some o ∧ o.kind ≠ .animationController
  /-- Whatever slot an object refers to another one by, the other one comes first. -/
  descends : ∀ (j k : Nat) (m m' : WrittenMethod), methods[j]? = some m → methods[k]? = some m' →
    s.Refers m.object m'.object → k < j
  root_last : methods.getLast?.map (·.object) = some s.root
  cached : ∀ m ∈ methods, m.isCached = true ↔ s.HeldTwice m.object

/-- **The list of emitted methods**: one for every reachable object that is no controller, after
those of all that it refers to, and the root last.  An object is kept in a field exactly if two
slots hold it. -/
theorem emit_methods {code : GeneratedCode}
    (h : s.emit (Names.ofScene s) settings lang = .ok code) : s.ListedBy code.written := by
  obtain ⟨ix, hmakes⟩ := Instantiator.makes_of_ofScene (ofScene_of_emit h)
  have hobjects : code.written.map (·.object) = code.instantiator.methods.map (·.object) := by
    rw [GeneratedCode.written, List.map_map]
    rfl
  have hat : ∀ {k : Nat} {w : WrittenMethod}, code.written[k]? = some w →
      ∃ m, code.instantiator.methods[k]? = some m ∧ m.write code.language = w := by
    intro k w hw
    rw [GeneratedCode.written, List.getElem?_map] at hw
    exact Option.map_eq_some_iff.mp hw
  refine
    { once := hobjects ▸ hmakes.nodup_objects
      objects := fun id => by rw [hobjects, hmakes.mem_objects_iff]
      descends := fun j k w w' hw hw' hrefers => ?_
      root_last := ?_
      cached := fun w hw => ?_ }
  · obtain ⟨m, hm, rfl⟩ := hat hw
    obtain ⟨m', hm', rfl⟩ := hat hw'
    exact hmakes.lt_of_refers hm hm' hrefers
  · rw [← hmakes.root_last, GeneratedCode.written, List.getLast?_map, Option.map_map]
    rfl
  · obtain ⟨m, hm, rfl⟩ := List.mem_map.mp hw
    exact hmakes.isCached_iff hm

/-- A visual that lists a child twice and fades; a controller runs on the animation too. -/
def metronome : Scene Float32 where
  root := ⟨0⟩
  objects := #[
    { content := .containerVisual {} [⟨1⟩, ⟨1⟩]
      attached := { animators := [⟨"Opacity", ⟨2⟩, some ⟨3⟩⟩] } },
    { content := .shapeVisual {} [] },
    { content := .expressionAnimation { expression := "beat" } },
    { content := .animationController false
      attached := { animators := [⟨"Progress", ⟨2⟩, none⟩] } }]

/-- The methods that make it.  One call is for the animation, but it is kept: the controller holds
it as well. -/
def metronomeMethods : Instantiator where
  methods := [
    { object := ⟨1⟩
      name := "ShapeVisual"
      typeName := "ShapeVisual"
      isCached := true
      statements := [.create (some "_shapeVisual") (.compositor "CreateShapeVisual" [])]
      description := none },
    { object := ⟨2⟩
      name := "ExpressionAnimation"
      typeName := "ExpressionAnimation"
      isCached := true
      statements := [
        .create (some "_expressionAnimation")
          (.compositor "CreateExpressionAnimation" [.text "beat"])]
      description := none },
    { object := ⟨0⟩
      name := "ContainerVisual"
      typeName := "ContainerVisual"
      isCached := false
      statements := [
        .create none (.compositor "CreateContainerVisual" []),
        .invoke (some "Children") "InsertAtTop" [.call ⟨⟨1⟩, "ShapeVisual"⟩],
        .invoke (some "Children") "InsertAtTop" [.call ⟨⟨1⟩, "ShapeVisual"⟩],
        .invoke none "StartAnimation" [.text "Opacity", .call ⟨⟨2⟩, "ExpressionAnimation"⟩]]
      description := none }]
  root := "ContainerVisual"

theorem metronome_ofScene :
    Instantiator.ofScene metronome (Names.ofScene metronome) = .ok metronomeMethods := by
  cbv

theorem metronome_methods : ∃ code, metronome.emit (Names.ofScene metronome) {} .cSharp = .ok code ∧
    metronome.ListedBy code.written ∧ metronome.HeldTwice ⟨1⟩ ∧ metronome.HeldTwice ⟨2⟩ ∧
    ¬ metronome.HeldTwice ⟨0⟩ := by
  have hemit := emit_of_ofScene metronome_ofScene {} .cSharp
  have hlisted := emit_methods hemit
  refine ⟨_, hemit, hlisted, ?_, ?_, ?_⟩
  · exact (hlisted.cached _ List.mem_cons_self).mp rfl
  · exact (hlisted.cached _ (List.mem_cons_of_mem _ List.mem_cons_self)).mp rfl
  · intro htwice
    have hkept := (hlisted.cached _ (List.mem_cons_of_mem _ (List.mem_cons_of_mem _
      List.mem_cons_self))).mpr htwice
    cases hkept

end Scene
end Diorama
