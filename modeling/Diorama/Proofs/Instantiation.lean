/-
  Running the methods of a scene makes its objects, each once.

  The methods of an emitted scene are well made (`wellmade_of_makes`): names and fields are
  distinct, calls lead down the index, and an object that is kept in no field stands in one slot at
  most.  So the call that makes the root comes to an end, and what it leaves is a copy of the scene
  (`Scene.Instantiated`): one object for each one that is used, and all slots with the same id hold
  the same object.

  Slots for controllers are counted as well when it is decided what is kept in a field, but they are
  not called.  So an object is called for no more often than it is counted, and one without a field
  once at most.
-/
import Mathlib
import Diorama.Proofs.MethodRuns

namespace Diorama

/-! ## The methods of a scene are well made -/

namespace Instantiator

variable {s : Scene Float32} {ix : Index} {i : Instantiator}

section

variable (h : Makes s (Names.ofScene s) ix i)

include h

/-- An object has the method that is written for it, and this one only. -/
theorem Makes.methodOf?_eq_some_iff {id : ObjectId} {m : Method} :
    i.methodOf? id = some m ↔ m ∈ i.methods ∧ m.object = id := by
  refine ⟨mem_of_methodOf?, ?_⟩
  rintro ⟨hm, hobject⟩
  cases hfind : i.methodOf? id with
  | none =>
    have hnot := List.find?_eq_none.mp hfind m hm
    simp [hobject] at hnot
  | some m' =>
    obtain ⟨hm', hobject'⟩ := mem_of_methodOf? hfind
    rw [h.eq_of_object hm hm' (hobject.trans hobject'.symm)]

/-- A call finds the method of the object it is for, if there is one. -/
theorem Makes.find?_call {m : Method} (hm : m ∈ i.methods) {c : Call} (hc : c ∈ m.calls) :
    i.find? c.method = i.methodOf? c.object := by
  obtain ⟨hname, hmem, -⟩ := h.called hm hc
  obtain ⟨p, hp, -⟩ := h.sound.object _ hmem
  by_cases hkind : p.kind = .animationController
  · rw [h.find?_of_controller hp hkind hname]
    cases hfind : i.methodOf? c.object with
    | none => rfl
    | some m' =>
      obtain ⟨hm', hobject⟩ := mem_of_methodOf? hfind
      obtain ⟨o, -, ho, hmakes⟩ := h.exists_object hm'
      rw [hobject] at ho
      obtain rfl := Option.some.inj (hp.symm.trans ho)
      exact absurd hkind hmakes.kind
  · obtain ⟨j, m', hj, hmakes⟩ := h.exists_method hmem hp hkind
    have hmem' := List.mem_of_getElem? hj
    have hsame : m'.name = c.method := Option.some.inj (hmakes.name.symm.trans hname)
    rw [h.find?_eq_some_iff.mpr ⟨hmem', hsame⟩, h.methodOf?_eq_some_iff.mpr ⟨hmem', hmakes.object⟩]

/-- An object is called for no more often than it stands in slots. -/
theorem Makes.count_calls_le (b : ObjectId) :
    (i.methods.flatMap fun m => m.calls.map (·.object)).count b ≤ s.slotTargets.count b := by
  have hsub : (i.methods.flatMap fun m => m.calls.map (·.object)).Sublist
      (i.methods.flatMap fun m => s.targetsOf m.object) := by
    refine List.Sublist.flatMap_right _ fun m hm => ?_
    obtain ⟨o, -, ho, hmakes⟩ := h.exists_object hm
    rw [hmakes.calls.objects, Scene.targetsOf_of_get? ho]
    exact List.filter_sublist.map _
  have hsubset : i.methods.map (·.object) ⊆ s.reachable := by
    intro id hid
    obtain ⟨m, hm, rfl⟩ := List.mem_map.mp hid
    obtain ⟨o, hid, -, -⟩ := h.exists_object hm
    exact h.sound.mem_ids_iff.mp hid
  refine (hsub.count_le b).trans ?_
  have hle := count_flatMap_le h.nodup_objects hsubset s.targetsOf b
  rwa [List.flatMap_map] at hle

/-- Methods call down in rank, from the root on. -/
theorem wellmade_of_makes : i.Wellmade ix.rank s.root where
  object m hm := h.methodOf?_eq_some_iff.mpr ⟨hm, rfl⟩
  field m hm m' hm' f hf hf' := by
    obtain ⟨o, -, -, hmakes⟩ := h.exists_object hm
    obtain ⟨o', -, -, hmakes'⟩ := h.exists_object hm'
    obtain ⟨-, hf⟩ := Option.ite_none_right_eq_some.mp hf
    obtain ⟨-, hf'⟩ := Option.ite_none_right_eq_some.mp hf'
    refine h.eq_of_name hm hm' (fieldName_injective (Names.isCapitalized_ofScene hmakes.name)
      (Names.isCapitalized_ofScene hmakes'.name) ?_)
    exact (Option.some.inj hf).trans (Option.some.inj hf').symm
  creates m hm := by
    obtain ⟨o, -, -, hmakes⟩ := h.exists_object hm
    exact hmakes.creates
  finds m hm c hc := h.find?_call hm hc
  descends m hm c hc := (h.called hm hc).2.2
  -- an object without a field is referred to once at most, and so is its method called
  single m hm hcached := by
    obtain ⟨o, -, -, hmakes⟩ := h.exists_object hm
    have hcount : ¬ 1 < s.slotTargets.count m.object := by
      rw [hmakes.isCached] at hcached
      simpa using hcached
    have hle := h.count_calls_le m.object
    omega
  rooted := by
    obtain ⟨o, ho, -⟩ := h.sound.object _ h.sound.root_mem
    obtain ⟨k, m, hk, hmakes⟩ :=
      h.exists_method_of_isMade h.sound.root_mem ho (by simp [isMade])
    have hm := List.mem_of_getElem? hk
    refine ⟨m, h.methodOf?_eq_some_iff.mpr ⟨hm, hmakes.object⟩, h.find?_eq_some_iff.mpr ⟨hm, ?_⟩⟩
    exact Option.some.inj (hmakes.name.symm.trans h.root)

end

end Instantiator

/-! ## What is made -/

namespace Scene

variable {s : Scene Float32} {settings : CodeSettings} {lang : Language}

/-- The object gets a method. -/
def Emits (s : Scene Float32) (id : ObjectId) : Prop :=
  id ∈ s.reachable ∧ ∃ o, s.get? id = some o ∧ o.kind ≠ .animationController

/-- An object that gets a method has the other one in a slot that is not for controllers. -/
def Uses (s : Scene Float32) (a b : ObjectId) : Prop :=
  s.Emits a ∧ ∃ o, s.get? a = some o ∧ ∃ r ∈ o.references, r.slot.isCalled = true ∧ r.target = b

/-- What has run made the objects of a scene. -/
structure Instantiated (s : Scene Float32) (i : Instantiator) (made : Option Nat) (mem : Memory) :
    Prop where
  emitted : ∀ id, (∃ m ∈ i.methods, m.object = id) ↔ s.Emits id
  /-- No object was made twice. -/
  once : mem.runs.Nodup
  /-- The objects that are used were made, and no others. -/
  ran : ∀ id, id ∈ mem.runs ↔ s.Emits id ∧ Relation.ReflTransGen s.Uses s.root id
  /-- An object was handed what stands in its slots, those for controllers apart. -/
  handed : ∀ (k : Nat) id o, mem.runs[k]? = some id → s.get? id = some o →
    (mem.handed.filter (·.run = k)).map (·.object) = o.callees
  /-- All that were handed an object were handed the same one, the one that was made. -/
  shared : ∀ d ∈ mem.handed, d.made = mem.runs.idxOf? d.object
  root : s.root ∈ mem.runs ∧ made = mem.runs.idxOf? s.root

end Scene

namespace Instantiator

variable {s : Scene Float32} {ix : Index} {i : Instantiator}
  (h : Makes s (Names.ofScene s) ix i)

include h

/-- A method is written exactly for what is emitted. -/
theorem Makes.emits_iff {id : ObjectId} : (∃ m ∈ i.methods, m.object = id) ↔ s.Emits id := by
  constructor
  · rintro ⟨m, hm, rfl⟩
    obtain ⟨o, hid, ho, hmakes⟩ := h.exists_object hm
    exact ⟨h.sound.mem_ids_iff.mp hid, o, ho, hmakes.kind⟩
  · rintro ⟨hid, o, ho, hkind⟩
    obtain ⟨k, m, hk, hmakes⟩ := h.exists_method (h.sound.mem_ids_iff.mpr hid) ho hkind
    exact ⟨m, List.mem_of_getElem? hk, hmakes.object⟩

theorem Makes.methodOf?_isSome_iff {id : ObjectId} :
    (i.methodOf? id).isSome = true ↔ s.Emits id := by
  rw [← h.emits_iff, Option.isSome_iff_exists]
  exact exists_congr fun m => h.methodOf?_eq_some_iff

/-- The method of an object calls for what stands in its slots. -/
theorem Makes.callsOf_eq {id : ObjectId} {o : Object Float32} (hid : s.Emits id)
    (ho : s.get? id = some o) : i.callsOf id = o.callees := by
  obtain ⟨m, hm⟩ := Option.isSome_iff_exists.mp (h.methodOf?_isSome_iff.mpr hid)
  obtain ⟨hmem, rfl⟩ := mem_of_methodOf? hm
  obtain ⟨o', -, ho', hmakes⟩ := h.exists_object hmem
  obtain rfl := Option.some.inj (ho.symm.trans ho')
  rw [callsOf_of_methodOf? hm, hmakes.calls.objects]

/-- Methods call each other as the objects use each other. -/
theorem Makes.calls_iff {a b : ObjectId} : i.Calls a b ↔ s.Uses a b := by
  have hcallees : ∀ o : Object Float32, b ∈ o.callees ↔
      ∃ r ∈ o.references, r.slot.isCalled = true ∧ r.target = b := by
    intro o
    simp only [Object.callees, Reference.called, List.mem_map, List.mem_filter, and_assoc]
  constructor
  · intro hcalls
    have ha : s.Emits a := by
      refine h.methodOf?_isSome_iff.mp ?_
      cases hm : i.methodOf? a with
      | some m => rfl
      | none =>
        rw [Calls, callsOf, hm] at hcalls
        cases hcalls
    obtain ⟨-, o, ho, -⟩ := id ha
    rw [Calls, h.callsOf_eq ha ho] at hcalls
    exact ⟨ha, o, ho, (hcallees o).mp hcalls⟩
  · rintro ⟨ha, o, ho, hslot⟩
    rw [Calls, h.callsOf_eq ha ho]
    exact (hcallees o).mpr hslot

/-- A run that is over has made the objects of the scene. -/
theorem Makes.instantiated {made : Option Nat} {mem : Memory}
    (hmem : i.Finished ix.rank s.root made mem) : s.Instantiated i made mem := by
  have hi := wellmade_of_makes h
  have hran : ∀ id, id ∈ mem.runs ↔ s.Emits id ∧ Relation.ReflTransGen s.Uses s.root id := by
    intro id
    have hcalls : i.Calls = s.Uses := funext₂ fun a b => propext h.calls_iff
    rw [hmem.mem_runs_iff hi, h.methodOf?_isSome_iff, hcalls]
  refine ⟨fun id => h.emits_iff, hmem.nodup_runs hi, hran, ?_, ?_, ?_, hmem.made_eq hi hmem.gives⟩
  · intro k id o hk ho
    rw [(hmem.doneAt hi hk).handed]
    exact h.callsOf_eq ((hran id).mp (List.mem_of_getElem? hk)).1 ho
  · exact fun d hd => hmem.made_eq hi (hmem.right.delivered d hd)
  · obtain ⟨m, hm, -⟩ := hi.rooted
    refine (hmem.mem_runs_iff hi).mpr ⟨?_, .refl⟩
    rw [hm]
    rfl

end Instantiator

namespace Scene

variable {s : Scene Float32} {settings : CodeSettings} {lang : Language}

/-- **Running emitted code makes every object once.**  The call that makes the root comes to an end,
with no more calls inside each other than there are objects. -/
theorem emit_instantiates {code : GeneratedCode}
    (h : s.emit (Names.ofScene s) settings lang = .ok code) : ∃ made mem,
    (∀ depth, s.reachable.length ≤ depth →
      code.instantiator.createRoot depth = some (made, mem)) ∧
    s.Instantiated code.instantiator made mem := by
  obtain ⟨ix, hmakes⟩ := Instantiator.makes_of_ofScene (ofScene_of_emit h)
  obtain ⟨made, mem, hrun, hfinished⟩ :=
    Instantiator.exists_finished (Instantiator.wellmade_of_makes hmakes)
  refine ⟨made, mem, fun depth hdepth => hrun depth ?_, hmakes.instantiated hfinished⟩
  have hrank := hmakes.sound.rank_lt_size hmakes.sound.root_mem
  have hlength : ix.size ≤ s.reachable.length := by
    rw [Index.size_eq_length_ids]
    exact (List.subperm_of_subset hmakes.sound.nodup fun id hid =>
      hmakes.sound.mem_ids_iff.mp hid).length_le
  omega

/-- What making `tableau` leaves behind. -/
def tableauMemory : Memory where
  runs := [⟨0⟩, ⟨1⟩, ⟨3⟩, ⟨2⟩, ⟨4⟩]
  fields := [("_spriteShape", 2)]
  handed := [
    ⟨1, ⟨3⟩, some 2⟩,
    ⟨0, ⟨1⟩, some 1⟩,
    ⟨3, ⟨3⟩, some 2⟩,
    ⟨0, ⟨2⟩, some 3⟩,
    ⟨0, ⟨4⟩, some 4⟩]

/-- The shape of `tableau` is made once, though two visuals have it. -/
theorem tableau_instantiates : ∃ code,
    tableau.emit (Names.ofScene tableau) {} .cSharp = .ok code ∧
    code.instantiator.createRoot 6 = some (some 0, tableauMemory) ∧
    tableau.Instantiated code.instantiator (some 0) tableauMemory := by
  have hemit := emit_of_ofScene tableau_ofScene {} .cSharp
  have hcreated : tableauMethods.createRoot 6 = some (some 0, tableauMemory) := by cbv
  obtain ⟨made, mem, hrun, hinstantiated⟩ := emit_instantiates hemit
  have hlength : tableau.reachable.length = 6 := by cbv
  cases hcreated.symm.trans (hrun 6 (by omega))
  exact ⟨_, hemit, hcreated, hinstantiated⟩

end Scene
end Diorama
