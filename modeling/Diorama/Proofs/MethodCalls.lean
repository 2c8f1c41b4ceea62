/-
  Methods call methods before them.

  A scene that is emitted has one method for every reachable object that is not a controller, after
  the methods of what the object refers to (`Instantiator.Makes`).  So a call goes to a method
  before the one that makes it.

  There is one exception.  Controllers have no method, and nothing keeps a controller out of a slot
  of another kind, such as a parameter of an expression.  Then a method is called that does not
  exist (`stray`).  Nothing else can go wrong: `emit_calls` says that all calls lead to methods
  before exactly if controllers stand in slots for controllers only.
-/
import Mathlib
import Diorama.Code.CSharp
import Diorama.Code.Source
import Diorama.Proofs.BodyDrafts
import Diorama.Proofs.DistinctNames
import Diorama.Proofs.Indexability

namespace Diorama

/-! ## The methods of a scene -/

/-- The calls that a method makes, in order. -/
def Method.calls (m : Method) : List Call := m.statements.flatMap Statement.calls

/-- A method makes an object of a scene. -/
structure Method.Makes (s : Scene Float32) (names : Names) (id : ObjectId) (o : Object Float32)
    (m : Method) : Prop where
  object : m.object = id
  name : names.get? id = some m.name
  kind : o.kind ≠ .animationController
  isCached : m.isCached = decide (1 < s.slotTargets.count id)
  calls : names.Calling o.callees m.calls
  creates : ∃ before creation after, m.statements = before ++ .create m.field? creation :: after ∧
    (∀ line ∈ before, line.isPlain = true) ∧ ∀ line ∈ after, line.isPlain = true

/-- No method is written for an animation controller. -/
theorem Body.kind_of_ofContent {names : Names} {id : ObjectId} {content : Content Float32}
    {body : Body} (h : ofContent names id content = .ok body) :
    content.kind ≠ .animationController := by
  intro hkind
  cases content with
  | animationController paused => cases h
  | _ => cases hkind

/-- A method makes the object that it is written for. -/
theorem Method.makes_of_ofObject {s : Scene Float32} {names : Names} {id : ObjectId}
    {o : Object Float32} {m : Method}
    (h : Method.ofObject s names (s.slotTargets.count id) id o = .ok m) : m.Makes s names id o := by
  obtain ⟨name, hname, h⟩ := exists_of_bind_ok h
  obtain ⟨body, hbody, h⟩ := exists_of_bind_ok h
  cases h
  obtain ⟨plain, hplain, -⟩ := exists_of_bind_ok hbody
  have hsaying := Body.saying_ofObject hbody
  refine ⟨rfl, Names.get?_of_name hname, Body.kind_of_ofContent hplain, rfl, ?_, ?_⟩
  · have hcalls := hsaying.calling
    rw [Body.calls, List.append_assoc] at hcalls
    rw [Method.calls, List.flatMap_append]
    exact hcalls
  · exact ⟨body.before, body.creation, body.after, by simp [Method.field?], hsaying.before,
      hsaying.after⟩

namespace Instantiator

variable {s : Scene Float32} {names : Names} {ix : Index} {i : Instantiator}

/-- The methods make the objects that get one, in order. -/
structure Makes (s : Scene Float32) (names : Names) (ix : Index) (i : Instantiator) : Prop where
  index : Index.build s = .ok ix
  methods : List.Forall₂ (fun e m => Method.Makes s names e.1 e.2 m) (made s ix) i.methods
  root : names.get? s.root = some i.root

/-- The methods of a scene make its objects. -/
theorem makes_of_ofScene (h : ofScene s names = .ok i) : ∃ ix, Makes s names ix i := by
  obtain ⟨ix, hix, h⟩ := exists_of_bind_ok h
  obtain ⟨methods, hmethods, h⟩ := exists_of_bind_ok h
  obtain ⟨root, hroot, h⟩ := exists_of_bind_ok h
  cases h
  refine ⟨ix, hix, ?_, Names.get?_of_name hroot⟩
  exact (forall₂_of_mapM_ok hmethods).imp fun _ _ => Method.makes_of_ofObject

/-! ## Which objects get a method -/

/-- What stands for a position in the list of objects that get a method. -/
theorem made_step {p : Nat} {id : ObjectId} {o : Object Float32} :
    (do
      let id ← ix.ids[p]?
      let o ← s.get? id
      if isMade s id o then some (id, o) else none) = some (id, o) ↔
    ix.ids[p]? = some id ∧ s.get? id = some o ∧ isMade s id o = true := by
  constructor
  · intro h
    obtain ⟨a, ha, h⟩ := Option.bind_eq_some_iff.mp h
    obtain ⟨b, hb, h⟩ := Option.bind_eq_some_iff.mp h
    split at h
    · rename_i hmade
      cases h
      exact ⟨ha, hb, hmade⟩
    · cases h
  · rintro ⟨hid, ho, hmade⟩
    simp [hid, ho, hmade]

/-- An object gets a method if it is indexed and either no controller or the root. -/
theorem mem_made_iff (hix : ix.Sound s) {id : ObjectId} {o : Object Float32} :
    (id, o) ∈ made s ix ↔ id ∈ ix.ids ∧ s.get? id = some o ∧ isMade s id o = true := by
  constructor
  · intro h
    obtain ⟨p, -, hp⟩ := List.mem_filterMap.mp h
    obtain ⟨hid, ho, hmade⟩ := made_step.mp hp
    exact ⟨List.mem_of_getElem? hid, ho, hmade⟩
  · rintro ⟨hid, ho, hmade⟩
    refine List.mem_filterMap.mpr ⟨ix.ids.idxOf id, hix.idxOf_mem_postOrder hid, ?_⟩
    exact made_step.mpr ⟨Index.Sound.getElem?_idxOf hid, ho, hmade⟩

/-- The objects that get a method come by rank. -/
theorem made_ranked (hix : ix.Sound s) :
    (made s ix).Pairwise fun a b => ix.rank a.1 < ix.rank b.1 := by
  have hnodup : ix.postOrder.Nodup := hix.postOrder_perm.nodup_iff.mpr List.nodup_range
  have hrank : ∀ (k p : Nat) (id : ObjectId), ix.postOrder[k]? = some p → ix.ids[p]? = some id →
      ix.rank id = k := by
    intro k p id hk hp
    obtain ⟨hplt, rfl⟩ := List.getElem?_eq_some_iff.mp hp
    obtain ⟨hklt, rfl⟩ := List.getElem?_eq_some_iff.mp hk
    rw [Index.rank, hix.nodup.idxOf_getElem, hnodup.idxOf_getElem]
  rw [made, List.pairwise_filterMap, List.pairwise_iff_getElem]
  rintro k l hk hl hkl ⟨a, o⟩ ha ⟨b, o'⟩ hb
  have hka := hrank k _ a (List.getElem?_eq_getElem hk) (made_step.mp ha).1
  have hlb := hrank l _ b (List.getElem?_eq_getElem hl) (made_step.mp hb).1
  show ix.rank a < ix.rank b
  omega

namespace Makes

variable (h : Makes s names ix i)

include h

theorem sound : ix.Sound s := Index.sound_of_build h.index

/-- The method at a place makes the object at that place. -/
theorem exists_made {k : Nat} {m : Method} (hm : i.methods[k]? = some m) :
    ∃ id o, (made s ix)[k]? = some (id, o) ∧ id ∈ ix.ids ∧ s.get? id = some o ∧
      m.Makes s names id o := by
  obtain ⟨hklt, rfl⟩ := List.getElem?_eq_some_iff.mp hm
  obtain ⟨hlen, hall⟩ := List.forall₂_iff_get.mp h.methods
  have hk : k < (made s ix).length := by omega
  obtain ⟨hid, ho, -⟩ := (mem_made_iff h.sound).mp (List.getElem_mem hk)
  exact ⟨_, _, List.getElem?_eq_getElem hk, hid, ho, hall k hk hklt⟩

/-- Every method makes some indexed object. -/
theorem exists_object {m : Method} (hm : m ∈ i.methods) :
    ∃ o, m.object ∈ ix.ids ∧ s.get? m.object = some o ∧ m.Makes s names m.object o := by
  obtain ⟨k, hk⟩ := List.getElem?_of_mem hm
  obtain ⟨id, o, -, hid, ho, hmakes⟩ := h.exists_made hk
  obtain rfl := hmakes.object
  exact ⟨o, hid, ho, hmakes⟩

/-- Every reachable object that gets a method has one. -/
theorem exists_method_of_isMade {id : ObjectId} {o : Object Float32} (hid : id ∈ ix.ids)
    (ho : s.get? id = some o) (hmade : isMade s id o = true) :
    ∃ (k : Nat) (m : Method), i.methods[k]? = some m ∧ m.Makes s names id o := by
  have hmem : (id, o) ∈ made s ix := (mem_made_iff h.sound).mpr ⟨hid, ho, hmade⟩
  obtain ⟨k, hklt, hget⟩ := List.getElem_of_mem hmem
  obtain ⟨hlen, hall⟩ := List.forall₂_iff_get.mp h.methods
  have hm : k < i.methods.length := by omega
  refine ⟨k, _, List.getElem?_eq_getElem hm, ?_⟩
  have hmakes := hall k hklt hm
  rwa [List.get_eq_getElem, hget] at hmakes

/-- Every indexed object that is no controller is made by a method. -/
theorem exists_method {id : ObjectId} {o : Object Float32} (hid : id ∈ ix.ids)
    (ho : s.get? id = some o) (hkind : o.kind ≠ .animationController) :
    ∃ (k : Nat) (m : Method), i.methods[k]? = some m ∧ m.Makes s names id o :=
  h.exists_method_of_isMade hid ho (by simp [isMade, hkind])

/-- Methods come by the rank of their objects. -/
theorem methods_ranked : i.methods.Pairwise fun m m' => ix.rank m.object < ix.rank m'.object := by
  rw [List.pairwise_iff_getElem]
  intro k l hk hl hkl
  obtain ⟨a, o, ha, -, -, hm⟩ := h.exists_made (List.getElem?_eq_getElem hk)
  obtain ⟨b, o', hb, -, -, hm'⟩ := h.exists_made (List.getElem?_eq_getElem hl)
  obtain ⟨hka, ha⟩ := List.getElem?_eq_some_iff.mp ha
  obtain ⟨hlb, hb⟩ := List.getElem?_eq_some_iff.mp hb
  have hlt := List.pairwise_iff_getElem.mp (made_ranked h.sound) k l hka hlb hkl
  rwa [ha, hb, ← hm.object, ← hm'.object] at hlt

/-- Of two methods, the one whose object ranks lower comes first. -/
theorem lt_of_rank_lt {j k : Nat} {m m' : Method} (hm : i.methods[j]? = some m)
    (hm' : i.methods[k]? = some m') (hlt : ix.rank m'.object < ix.rank m.object) : k < j := by
  obtain ⟨hj, rfl⟩ := List.getElem?_eq_some_iff.mp hm
  obtain ⟨hk, rfl⟩ := List.getElem?_eq_some_iff.mp hm'
  rcases Nat.lt_trichotomy k j with hkj | rfl | hjk
  · exact hkj
  · exact absurd hlt (Nat.lt_irrefl _)
  · have hranked := List.pairwise_iff_getElem.mp h.methods_ranked j k hj hk hjk
    omega

/-- No object is made by two methods. -/
theorem nodup_objects : (i.methods.map (·.object)).Nodup :=
  List.pairwise_map.mpr (h.methods_ranked.imp fun hlt heq => by simp [heq] at hlt)

/-- Methods of one object are one method. -/
theorem eq_of_object {m m' : Method} (hm : m ∈ i.methods) (hm' : m' ∈ i.methods)
    (hobject : m.object = m'.object) : m = m' :=
  List.inj_on_of_nodup_map h.nodup_objects hm hm' hobject

end Makes

/-! ## Methods are found by name -/

section

variable (h : Makes s (Names.ofScene s) ix i)

include h

/-- Methods of one name are one method. -/
theorem Makes.eq_of_name {m m' : Method} (hm : m ∈ i.methods) (hm' : m' ∈ i.methods)
    (hname : m.name = m'.name) : m = m' := by
  obtain ⟨o, -, -, hmakes⟩ := h.exists_object hm
  obtain ⟨o', -, -, hmakes'⟩ := h.exists_object hm'
  exact h.eq_of_object hm hm' (Names.ofScene_injective hmakes.name (hname ▸ hmakes'.name))

/-- A method is found under its name, as no two methods have one name. -/
theorem Makes.find?_eq_some_iff {name : String} {m : Method} :
    i.find? name = some m ↔ m ∈ i.methods ∧ m.name = name := by
  constructor
  · intro hfind
    exact ⟨List.mem_of_find?_eq_some hfind, by simpa using List.find?_some hfind⟩
  · rintro ⟨hm, hname⟩
    cases hfind : i.find? name with
    | none =>
      have hnot := List.find?_eq_none.mp hfind m hm
      simp [hname] at hnot
    | some m' =>
      have hname' : m'.name = name := by simpa using List.find?_some hfind
      rw [h.eq_of_name hm (List.mem_of_find?_eq_some hfind) (hname.trans hname'.symm)]

/-- No method has the name of a controller. -/
theorem Makes.find?_of_controller {id : ObjectId} {o : Object Float32} {name : String}
    (ho : s.get? id = some o) (hkind : o.kind = .animationController)
    (hname : (Names.ofScene s).get? id = some name) : i.find? name = none := by
  cases hfind : i.find? name with
  | none => rfl
  | some m =>
    obtain ⟨hm, rfl⟩ := h.find?_eq_some_iff.mp hfind
    obtain ⟨o', -, ha, hmakes⟩ := h.exists_object hm
    obtain rfl := Names.ofScene_injective hname hmakes.name
    obtain rfl := Option.some.inj (ho.symm.trans ha)
    exact absurd hkind hmakes.kind

end

/-! ## Where calls lead -/

/-- A call of the method at a place leads to a method before it, for the object it is meant for. -/
def LeadsBack (i : Instantiator) (k : Nat) (c : Call) : Prop :=
  ∃ (j : Nat) (m : Method), j < k ∧ i.methods[j]? = some m ∧ m.object = c.object ∧
    i.find? c.method = some m

/-- All calls lead to methods before. -/
def CallsBack (i : Instantiator) : Prop :=
  ∀ (k : Nat) (m : Method), i.methods[k]? = some m → ∀ c ∈ m.calls, i.LeadsBack k c

/-- A call is for something that the object refers to. -/
theorem Makes.called (h : Makes s names ix i) {m : Method} (hm : m ∈ i.methods) {c : Call}
    (hc : c ∈ m.calls) :
    names.get? c.object = some c.method ∧ c.object ∈ ix.ids ∧
      ix.rank c.object < ix.rank m.object := by
  obtain ⟨o, hid, ho, hmakes⟩ := h.exists_object hm
  have hcallee : c.object ∈ o.callees := by
    rw [← hmakes.calls.objects]
    exact List.mem_map_of_mem hc
  have hrefers : s.Refers m.object c.object := by
    obtain ⟨r, hr, hr'⟩ := List.mem_map.mp hcallee
    rw [← hr']
    exact Scene.refers_of_get? ho (List.mem_map_of_mem (List.mem_of_mem_filter hr))
  obtain ⟨hmem, hlt⟩ := h.sound.rank_lt hid hrefers
  exact ⟨hmakes.calls.named c hc, hmem, hlt⟩

/-- **A call leads to a method before**, unless it is for a controller. -/
theorem Makes.leadsBack (h : Makes s (Names.ofScene s) ix i) {k : Nat} {m : Method}
    (hm : i.methods[k]? = some m) {c : Call} (hc : c ∈ m.calls) {p : Object Float32}
    (hp : s.get? c.object = some p) (hkind : p.kind ≠ .animationController) : i.LeadsBack k c := by
  obtain ⟨hname, hmem, hlt⟩ := h.called (List.mem_of_getElem? hm) hc
  obtain ⟨j, m', hj, hmakes⟩ := h.exists_method hmem hp hkind
  have hnames : m'.name = c.method := Option.some.inj (hmakes.name.symm.trans hname)
  refine ⟨j, m', ?_, hj, hmakes.object, h.find?_eq_some_iff.mpr ⟨List.mem_of_getElem? hj, hnames⟩⟩
  rw [← hmakes.object] at hlt
  exact h.lt_of_rank_lt hm hj hlt

end Instantiator

namespace Scene

variable {s : Scene Float32} {names : Names} {settings : CodeSettings} {lang : Language}

/-- Emission is instantiation, written out in a language. -/
theorem emit_of_ofScene {i : Instantiator} (h : Instantiator.ofScene s names = .ok i)
    (settings : CodeSettings) (lang : Language) :
    s.emit names settings lang = .ok ⟨lang, i, lang.source settings i⟩ := by
  rw [emit, h]
  rfl

/-- The methods of emitted code are those of the scene. -/
theorem ofScene_of_emit {code : GeneratedCode} (h : s.emit names settings lang = .ok code) :
    Instantiator.ofScene s names = .ok code.instantiator := by
  obtain ⟨i, hi, h⟩ := exists_of_bind_ok h
  cases h
  exact hi

/-- Of the objects that have methods, none holds a controller in a slot that is called. -/
def ControllersApart (s : Scene Float32) : Prop :=
  ∀ a ∈ s.reachable, ∀ o, s.get? a = some o → o.kind ≠ .animationController →
    ∀ r ∈ o.references, r.slot.isCalled = true → ∀ p, s.get? r.target = some p →
      p.kind ≠ .animationController

/-- **Where the calls of emitted code lead**: each to a method before, or to no method at all, if it
is for a controller.  So all of them lead to methods before exactly if controllers stand in the
slots for controllers only. -/
theorem emit_calls {code : GeneratedCode}
    (h : s.emit (Names.ofScene s) settings lang = .ok code) :
    (∀ (k : Nat) (m : Method), code.instantiator.methods[k]? = some m → ∀ c ∈ m.calls,
      code.instantiator.LeadsBack k c ∨
      (∃ p, s.get? c.object = some p ∧ p.kind = .animationController) ∧
        code.instantiator.find? c.method = none) ∧
    (code.instantiator.CallsBack ↔ s.ControllersApart) := by
  obtain ⟨ix, hmakes⟩ := Instantiator.makes_of_ofScene (ofScene_of_emit h)
  -- a call leads back to an earlier method, or its object is a controller and has none
  have hcases : ∀ (k : Nat) (m : Method), code.instantiator.methods[k]? = some m →
      ∀ c ∈ m.calls, code.instantiator.LeadsBack k c ∨
        (∃ p, s.get? c.object = some p ∧ p.kind = .animationController) ∧
          code.instantiator.find? c.method = none := by
    intro k m hm c hc
    obtain ⟨hname, hmem, -⟩ := hmakes.called (List.mem_of_getElem? hm) hc
    obtain ⟨p, hp, -⟩ := hmakes.sound.object _ hmem
    by_cases hkind : p.kind = .animationController
    · exact .inr ⟨⟨p, hp, hkind⟩, hmakes.find?_of_controller hp hkind hname⟩
    · exact .inl (hmakes.leadsBack hm hc hp hkind)
  refine ⟨hcases, fun hback a ha o ho hkind r hr hcalled p hp hcontroller => ?_,
    fun hapart k m hm c hc => ?_⟩
  · -- the method of the holder calls the controller
    have hid := hmakes.sound.mem_ids_iff.mpr ha
    obtain ⟨k, m, hm, hmake⟩ := hmakes.exists_method hid ho hkind
    have hcallee : r.target ∈ m.calls.map (·.object) := by
      rw [hmake.calls.objects]
      exact List.mem_map_of_mem (List.mem_filter.mpr ⟨hr, hcalled⟩)
    obtain ⟨c, hc, hobject⟩ := List.mem_map.mp hcallee
    rw [← hobject] at hp
    obtain ⟨j, m', -, -, -, hfind⟩ := hback k m hm c hc
    rw [hmakes.find?_of_controller hp hcontroller (hmake.calls.named c hc)] at hfind
    cases hfind
  -- without calls to controllers the first case is left
  · rcases hcases k m hm c hc with hback | ⟨⟨p, hp, hcontroller⟩, -⟩
    · exact hback
    · exfalso
      obtain ⟨o, ha, ho, hmake⟩ := hmakes.exists_object (List.mem_of_getElem? hm)
      have hcallee : c.object ∈ o.callees := by
        rw [← hmake.calls.objects]
        exact List.mem_map_of_mem hc
      obtain ⟨r, hr, hr'⟩ := List.mem_map.mp hcallee
      obtain ⟨hr, hcalled⟩ := List.mem_filter.mp hr
      rw [← hr'] at hp
      exact hapart _ (hmakes.sound.mem_ids_iff.mp ha) o ho hmake.kind r hr hcalled p hp hcontroller

/-- Two visuals that share a shape, under one that fades while a controller is paused. -/
def tableau : Scene Float32 where
  root := ⟨0⟩
  objects := #[
    { content := .containerVisual {} [⟨1⟩, ⟨2⟩]
      attached := { animators := [⟨"Opacity", ⟨4⟩, some ⟨5⟩⟩] } },
    { content := .shapeVisual {} [⟨3⟩] },
    { content := .shapeVisual {} [⟨3⟩] },
    { content := .spriteShape {} },
    { content := .expressionAnimation { expression := "fade" } },
    { content := .animationController true }]

/-- The methods that make it. -/
def tableauMethods : Instantiator where
  methods := [
    { object := ⟨3⟩
      name := "SpriteShape"
      typeName := "CompositionSpriteShape"
      isCached := true
      statements := [.create (some "_spriteShape") (.compositor "CreateSpriteShape" [])]
      description := none },
    { object := ⟨1⟩
      name := "ShapeVisual_0"
      typeName := "ShapeVisual"
      isCached := false
      statements := [
        .create none (.compositor "CreateShapeVisual" []),
        .append "Shapes" (.call ⟨⟨3⟩, "SpriteShape"⟩)]
      description := none },
    { object := ⟨2⟩
      name := "ShapeVisual_1"
      typeName := "ShapeVisual"
      isCached := false
      statements := [
        .create none (.compositor "CreateShapeVisual" []),
        .append "Shapes" (.call ⟨⟨3⟩, "SpriteShape"⟩)]
      description := none },
    { object := ⟨4⟩
      name := "ExpressionAnimation"
      typeName := "ExpressionAnimation"
      isCached := false
      statements := [.create none (.compositor "CreateExpressionAnimation" [.text "fade"])]
      description := none },
    { object := ⟨0⟩
      name := "ContainerVisual"
      typeName := "ContainerVisual"
      isCached := false
      statements := [
        .create none (.compositor "CreateContainerVisual" []),
        .invoke (some "Children") "InsertAtTop" [.call ⟨⟨1⟩, "ShapeVisual_0"⟩],
        .invoke (some "Children") "InsertAtTop" [.call ⟨⟨2⟩, "ShapeVisual_1"⟩],
        .invoke none "StartAnimation" [.text "Opacity", .call ⟨⟨4⟩, "ExpressionAnimation"⟩],
        .openScope,
        .findController "Opacity",
        .pauseController,
        .closeScope]
      description := none }]
  root := "ContainerVisual"

theorem tableau_ofScene :
    Instantiator.ofScene tableau (Names.ofScene tableau) = .ok tableauMethods := by
  cbv

theorem tableau_calls : ∃ code, tableau.emit (Names.ofScene tableau) {} .cSharp = .ok code ∧
    code.instantiator = tableauMethods ∧ code.instantiator.CallsBack := by
  have hemit := emit_of_ofScene tableau_ofScene {} .cSharp
  refine ⟨_, hemit, rfl, (emit_calls hemit).2.mpr ?_⟩
  have hreachable : tableau.reachable = [⟨0⟩, ⟨1⟩, ⟨3⟩, ⟨2⟩, ⟨4⟩, ⟨5⟩] := by cbv
  intro a ha o ho _ r hr hcalled p hp hkind
  rw [hreachable] at ha
  fin_cases ha <;> cases ho <;> fin_cases hr <;> cases hp
  · cases hkind
  · cases hkind
  · cases hkind
  · -- the slot for the controller is not called
    cases hcalled
  · cases hkind
  · cases hkind

/-- A visual that fades by an expression, which reads a controller. -/
def stray : Scene Float32 where
  root := ⟨0⟩
  objects := #[
    { content := .containerVisual {} []
      attached := { animators := [⟨"Opacity", ⟨1⟩, none⟩] } },
    { content := .expressionAnimation { expression := "c.Progress", parameters := [⟨"c", ⟨2⟩⟩] } },
    { content := .animationController false }]

/-- The methods that make it: the first one calls a method for the controller. -/
def strayMethods : Instantiator where
  methods := [
    { object := ⟨1⟩
      name := "ExpressionAnimation"
      typeName := "ExpressionAnimation"
      isCached := false
      statements := [
        .create none (.compositor "CreateExpressionAnimation" [.text "c.Progress"]),
        .invoke none "SetReferenceParameter" [.text "c", .call ⟨⟨2⟩, "AnimationController"⟩]]
      description := none },
    { object := ⟨0⟩
      name := "ContainerVisual"
      typeName := "ContainerVisual"
      isCached := false
      statements := [
        .create none (.compositor "CreateContainerVisual" []),
        .invoke none "StartAnimation" [.text "Opacity", .call ⟨⟨1⟩, "ExpressionAnimation"⟩]]
      description := none }]
  root := "ContainerVisual"

theorem stray_ofScene : Instantiator.ofScene stray (Names.ofScene stray) = .ok strayMethods := by
  cbv

/-- There are scenes that are emitted though a call leads nowhere. -/
theorem stray_call_leads_nowhere : ∃ code,
    stray.emit (Names.ofScene stray) {} .cSharp = .ok code ∧ ¬ code.instantiator.CallsBack := by
  refine ⟨_, emit_of_ofScene stray_ofScene {} .cSharp, fun hback => ?_⟩
  have hcall : (⟨⟨2⟩, "AnimationController"⟩ : Call) ∈
      strayMethods.methods.head?.elim [] Method.calls := by decide
  obtain ⟨j, m, -, -, -, hfind⟩ := hback 0 _ rfl _ hcall
  cases hfind

end Scene
end Diorama
