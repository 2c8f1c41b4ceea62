/-
  Bodies but for the names in them.

  The statements that make an object depend on the names of other objects by their calls only.  So a
  body is known before any name is: as a draft, which is a body for every way to name objects.  A
  run that makes a body asks for the names of what the draft calls, fails if one is missing, and
  fills the others in (`Asks`).

  Of the draft itself all is known that other modules ask of a body (`Body.Drafted`): it calls what
  stands in the slots of the object, in order; under other names it is the same but for the names in
  its calls; the texts in it are those of the object; its words are printable; and it creates the
  object in one place.

  Every kind of object is gone through once, in `Body.composes_ofContent`, where its draft is laid
  out next to the run that fills it in.  What is attached is added in `Body.composes_ofObject`, and
  the rest is read off that:  calls (`Body.saying_ofObject`), other names
  (`Body.restates_ofObject`), literals (`Body.texts_ofObject`) and success
  (`Body.ofObject_succeedsIff`).
-/
import Mathlib
import Diorama.Proofs.Outcome
import Diorama.Proofs.StatementViews

namespace Diorama

/-! ## Runs under a condition -/

/-- The run succeeds exactly under a condition, and never fails for want of a name. -/
structure SucceedsIff {α : Type} (x : Except SceneError α) (P : Prop) : Prop where
  succeeds : Succeeds x ↔ P
  named : ∀ id, x ≠ .error (.unnamed id)

namespace SucceedsIff

variable {α β : Type} {P Q : Prop} {x : Except SceneError α}

/-- A run that succeeds, under a condition that holds. -/
theorem accepted (hx : Succeeds x) (hP : P) : SucceedsIff x P := by
  refine ⟨⟨fun _ => hP, fun _ => hx⟩, fun id herror => ?_⟩
  obtain ⟨a, ha⟩ := hx
  rw [herror] at ha
  cases ha

/-- A run that fails, not for want of a name, under a condition that does not hold. -/
theorem refused {e : SceneError} (he : ∀ id, e ≠ .unnamed id) (hP : ¬ P) :
    SucceedsIff (.error e : Except SceneError α) P := by
  refine ⟨⟨?_, fun h => absurd h hP⟩, fun id herror => he id (Except.error.inj herror)⟩
  rintro ⟨a, ha⟩
  cases ha

theorem congr (h : SucceedsIff x P) (hPQ : P ↔ Q) : SucceedsIff x Q :=
  ⟨h.succeeds.trans hPQ, h.named⟩

/-- The second run is made only after the first. -/
theorem bind {f : α → Except SceneError β} (h : SucceedsIff x P)
    (hf : ∀ a, x = .ok a → SucceedsIff (f a) Q) : SucceedsIff (x >>= f) (P ∧ Q) := by
  cases hx : x with
  | error e =>
    refine refused (fun id he => h.named id (he ▸ hx)) fun hPQ => ?_
    obtain ⟨a, ha⟩ := h.succeeds.mpr hPQ.1
    rw [hx] at ha
    cases ha
  | ok a =>
    have hP : P := h.succeeds.mp ⟨a, hx⟩
    exact (hf a hx).congr (by simp [hP])

/-- The results are put together at the end. -/
theorem map {f : α → β} (h : SucceedsIff x P) : SucceedsIff (x >>= fun a => pure (f a)) P :=
  (h.bind fun a _ => accepted ⟨f a, rfl⟩ trivial).congr (iff_of_eq (and_true P))

/-- A run over a list stops at the first entry that is refused. -/
theorem mapM {f : α → Except SceneError β} {P : α → Prop} {as : List α}
    (h : ∀ a ∈ as, SucceedsIff (f a) (P a)) : SucceedsIff (as.mapM f) (∀ a ∈ as, P a) := by
  induction as with
  | nil => exact accepted ⟨[], rfl⟩ (by simp)
  | cons a as ih =>
    rw [List.mapM_cons, List.forall_mem_cons]
    refine (h a List.mem_cons_self).bind fun b _ => ?_
    exact (ih fun c hc => h c (List.mem_cons_of_mem _ hc)).map

end SucceedsIff

/-! ## Runs that ask for names -/

/-- A run that asks for the names of these objects and does as `y` says, which leaves the names
open. -/
structure Asks {α : Type} (x : Names → Except SceneError α) (ids : List ObjectId)
    (y : Except SceneError ((ObjectId → String) → α)) : Prop where
  /-- With all the names, the open ones are filled in. -/
  covered : ∀ {names : Names}, names.Covers ids → x names = y >>= fun v => .ok (v names.nameOf)
  /-- It succeeds only with all the names. -/
  covers : ∀ {names : Names} {a : α}, x names = .ok a → names.Covers ids

namespace Asks

variable {α β γ : Type} {x : Names → Except SceneError α} {ids ids' : List ObjectId}
  {y : Except SceneError ((ObjectId → String) → α)} {v : (ObjectId → String) → α}

/-- A result is the open one with the names filled in. -/
theorem exists_of_ok (h : Asks x ids y) {names : Names} {a : α} (hx : x names = .ok a) :
    ∃ v, y = .ok v ∧ a = v names.nameOf := by
  have hy := h.covered (h.covers hx)
  rw [hx] at hy
  cases y with
  | error e => cases hy
  | ok v => exact ⟨v, rfl, Except.ok.inj hy⟩

/-- A run that asks for no names. -/
theorem fixed (x : Except SceneError α) : Asks (fun _ => x) [] (x >>= fun a => .ok fun _ => a) where
  covered _ := by cases x <;> rfl
  covers _ := by simp [Names.Covers]

/-- A value by itself asks for no name. -/
theorem pure (a : α) : Asks (fun _ => .ok a) [] (.ok fun _ => a) := fixed (.ok a)

/-- A run that fails whatever the names are asks for any. -/
theorem refusal (e : SceneError) (ids : List ObjectId) :
    Asks (fun _ => .error e : Names → Except SceneError α) ids (.error e) where
  covered _ := rfl
  covers h := by cases h

/-- A call asks for the name of its object. -/
theorem call (id : ObjectId) :
    Asks (fun names => names.call id) [id] (.ok fun name => .under name id) where
  covered h := by
    rw [Names.call, h.name (List.mem_singleton_self id)]
    rfl
  covers h := by
    obtain ⟨name, hname, -⟩ := exists_of_bind_ok h
    intro a ha
    rw [List.mem_singleton.mp ha]
    exact ⟨name, Names.get?_of_name hname⟩

/-- What is made of a value asks for the names that the value asks for. -/
theorem map (h : Asks x ids y) (f : α → β) :
    Asks (fun names => x names >>= fun a => .ok (f a)) ids
      (y >>= fun v => .ok fun name => f (v name)) where
  covered hnames := by
    rw [h.covered hnames]
    cases y <;> rfl
  covers hx := by
    obtain ⟨a, ha, -⟩ := exists_of_bind_ok hx
    exact h.covers ha

/-- One run after another, which asks for the same names whatever the first one gives. -/
theorem bind {k : α → Names → Except SceneError β} {w : α → (ObjectId → String) → β}
    (h : Asks x ids (.ok v)) (hk : ∀ a, Asks (k a) ids' (.ok (w a))) :
    Asks (fun names => x names >>= fun a => k a names) (ids ++ ids')
      (.ok fun name => w (v name) name) where
  covered hnames := by
    obtain ⟨hids, hids'⟩ := hnames.of_append
    rw [h.covered hids]
    exact (hk _).covered hids'
  covers hx := by
    obtain ⟨a, ha, hx⟩ := exists_of_bind_ok hx
    exact (h.covers ha).append ((hk a).covers hx)

/-- Two runs whose results are put together. -/
theorem map₂ {x' : Names → Except SceneError β} {y' : Except SceneError ((ObjectId → String) → β)}
    (h : Asks x ids y) (h' : Asks x' ids' y') (f : α → β → γ) :
    Asks (fun names => x names >>= fun a => x' names >>= fun b => .ok (f a b)) (ids ++ ids')
      (y >>= fun v => y' >>= fun v' => .ok fun name => f (v name) (v' name)) where
  covered hnames := by
    obtain ⟨hids, hids'⟩ := hnames.of_append
    rw [h.covered hids, h'.covered hids']
    cases y with
    | error e => rfl
    | ok v => cases y' <;> rfl
  covers hx := by
    obtain ⟨a, ha, hx⟩ := exists_of_bind_ok hx
    obtain ⟨b, hb, -⟩ := exists_of_bind_ok hx
    exact (h.covers ha).append (h'.covers hb)

/-- A run over a list asks entry by entry. -/
theorem mapM {f : β → Names → Except SceneError α} {ids : β → List ObjectId}
    {v : β → (ObjectId → String) → α} (h : ∀ b, Asks (f b) (ids b) (.ok (v b))) (l : List β) :
    Asks (fun names => l.mapM fun b => f b names) (l.flatMap ids)
      (.ok fun name => l.map fun b => v b name) := by
  induction l with
  | nil => exact pure []
  | cons b l ih =>
    simp only [List.mapM_cons]
    exact (h b).map₂ ih List.cons

/-- Something for every object of a list. -/
theorem each (f : Call → α) (ids : List ObjectId) :
    Asks (fun names => ids.mapM fun id => do return f (← names.call id)) ids
      (.ok fun name => ids.map fun id => f (.under name id)) := by
  have h := mapM (fun id => (call id).map f) ids
  rwa [List.flatMap_singleton'] at h

end Asks

/-! ## Drafts -/

/-- Arguments that are known but for the names in them: they call these objects and give these
texts. -/
structure Argument.Drafted (ids : List ObjectId) (texts : List String)
    (args : (ObjectId → String) → List Argument) : Prop where
  calls : ∀ name, (args name).flatMap Argument.calls = ids.map (Call.under name)
  named : ∀ name name', (args name).map (·.named name') = args name'
  texts : ∀ name, (args name).flatMap Argument.texts = texts
  legible : ∀ name, ((args name).flatMap Argument.words).all isPrintable = true

/-- Statements that are known but for the names in them: they call these objects, give these texts,
and create nothing. -/
structure Statement.Drafted (ids : List ObjectId) (texts : List String)
    (lines : (ObjectId → String) → List Statement) : Prop where
  calls : ∀ name, (lines name).flatMap Statement.calls = ids.map (Call.under name)
  named : ∀ name name', (lines name).map (·.named name') = lines name'
  texts : ∀ name, quoted (lines name) = texts
  plain : ∀ name, ∀ line ∈ lines name, line.isPlain = true
  legible : ∀ name, ∀ line ∈ lines name, line.isLegible = true

/-- A creation that is known but for the names in it. -/
structure Creation.Drafted (ids : List ObjectId) (texts : List String)
    (creation : (ObjectId → String) → Creation) : Prop where
  calls : ∀ name, (creation name).calls = ids.map (Call.under name)
  named : ∀ name name', (creation name).named name' = creation name'
  texts : ∀ name, (creation name).texts = texts
  legible : ∀ name, (creation name).words.all isPrintable = true

/-- A body that is known but for the names in it. -/
structure Body.Drafted (ids : List ObjectId) (texts : List String)
    (body : (ObjectId → String) → Body) : Prop where
  calls : ∀ name, (body name).calls = ids.map (Call.under name)
  named : ∀ name name', (body name).named name' = body name'
  texts : ∀ name, (body name).texts = texts
  plain : ∀ name, ∀ line ∈ (body name).before ++ (body name).after, line.isPlain = true
  legible : ∀ name, ∀ line ∈ (body name).before ++ (body name).after, line.isLegible = true
  creation : ∀ name, (body name).creation.words.all isPrintable = true

namespace Argument.Drafted

variable {ids ids' : List ObjectId} {texts texts' : List String}
  {args args' : (ObjectId → String) → List Argument}

theorem nil : Drafted [] [] fun _ => [] :=
  ⟨fun _ => rfl, fun _ _ => rfl, fun _ => rfl, fun _ => rfl⟩

/-- Arguments in a row call and cite one list after the other. -/
theorem append (h : Drafted ids texts args) (h' : Drafted ids' texts' args') :
    Drafted (ids ++ ids') (texts ++ texts') fun name => args name ++ args' name where
  calls name := by rw [List.flatMap_append, h.calls, h'.calls, List.map_append]
  named name name' := by rw [List.map_append, h.named, h'.named]
  texts name := by rw [List.flatMap_append, h.texts, h'.texts]
  legible name := by rw [List.flatMap_append, List.all_append, h.legible, h'.legible, Bool.and_self]

/-- A value. -/
theorem fixed {a : Argument} (hcalls : a.calls = []) (htexts : a.texts = texts)
    (hlegible : a.words.all isPrintable = true) : Drafted [] texts fun _ => [a] where
  calls _ := by rw [List.flatMap_singleton, hcalls, List.map_nil]
  named _ _ := by rw [List.map_singleton, a.named_of_calls_nil hcalls]
  texts _ := by rw [List.flatMap_singleton, htexts]
  legible _ := by rwa [List.flatMap_singleton]

/-- A value before others. -/
theorem cons {a : Argument} (h : Drafted ids texts args) (hcalls : a.calls = [])
    (htexts : a.texts ++ texts = texts') (hlegible : a.words.all isPrintable = true) :
    Drafted ids texts' fun name => a :: args name :=
  htexts ▸ (fixed hcalls rfl hlegible).append h

/-- An object. -/
theorem call (id : ObjectId) : Drafted [id] [] fun name => [.call (.under name id)] :=
  ⟨fun _ => rfl, fun _ _ => rfl, fun _ => rfl, fun _ => rfl⟩

/-- An object that may be missing. -/
theorem optionalCall (target : Option ObjectId) :
    Drafted target.toList [] fun name => target.toList.map fun id => .call (.under name id) := by
  cases target with
  | none => exact nil
  | some id => exact call id

end Argument.Drafted

namespace Creation.Drafted

variable {ids : List ObjectId} {texts : List String}

/-- Something that the compositor makes. -/
theorem compositor {method : String} {args : (ObjectId → String) → List Argument}
    (hmethod : isPrintable method = true) (h : Argument.Drafted ids texts args) :
    Drafted ids texts fun name => .compositor method (args name) where
  calls := h.calls
  named name name' := congrArg (Creation.compositor method) (h.named name name')
  texts := h.texts
  legible name := by rw [words, List.all_cons, hmethod, h.legible, Bool.and_self]

/-- A path has at most its source to call. -/
theorem path (source : Option ObjectId) :
    Drafted source.toList [] fun name => .path (source.map (Call.under name)) := by
  cases source <;> exact ⟨fun _ => rfl, fun _ _ => rfl, fun _ => rfl, fun _ => rfl⟩

/-- A group calls its geometries in order. -/
theorem group (geometries : List ObjectId) (mode : FillMode) :
    Drafted geometries [] fun name => .group (geometries.map (Call.under name)) mode where
  calls _ := rfl
  named _ _ := by
    show Creation.group ((geometries.map _).map _) mode = _
    rw [List.map_map]
    rfl
  texts _ := rfl
  legible _ := rfl

end Creation.Drafted

namespace Statement.Drafted

variable {ids ids' : List ObjectId} {texts texts' : List String}
  {lines lines' : (ObjectId → String) → List Statement}

theorem nil : Drafted [] [] fun _ => [] :=
  ⟨fun _ => rfl, fun _ _ => rfl, fun _ => rfl, by simp, by simp⟩

/-- Statements in a row call and cite one list after the other. -/
theorem append (h : Drafted ids texts lines) (h' : Drafted ids' texts' lines') :
    Drafted (ids ++ ids') (texts ++ texts') fun name => lines name ++ lines' name where
  calls name := by rw [List.flatMap_append, h.calls, h'.calls, List.map_append]
  named name name' := by rw [List.map_append, h.named, h'.named]
  texts name := by
    rw [← h.texts name, ← h'.texts name]
    exact List.flatMap_append
  plain name := List.forall_mem_append.mpr ⟨h.plain name, h'.plain name⟩
  legible name := List.forall_mem_append.mpr ⟨h.legible name, h'.legible name⟩

/-- Statements that call nothing and give no texts, after others. -/
theorem append_mute (h : Drafted ids texts lines) (h' : Drafted [] [] lines') :
    Drafted ids texts fun name => lines name ++ lines' name := by
  have hall := h.append h'
  rwa [List.append_nil, List.append_nil] at hall

/-- Statements that call nothing and give no texts, before others. -/
theorem mute_append (h : Drafted [] [] lines) (h' : Drafted ids texts lines') :
    Drafted ids texts fun name => lines name ++ lines' name :=
  h.append h'

/-- A statement that calls nothing. -/
theorem fixed {line : Statement} (hcalls : line.calls = []) (htexts : line.texts = texts)
    (hplain : line.isPlain = true) (hlegible : line.isLegible = true) :
    Drafted [] texts fun _ => [line] where
  calls _ := by rw [List.flatMap_singleton, hcalls, List.map_nil]
  named _ _ := by rw [List.map_singleton, line.named_of_calls_nil hcalls]
  texts _ := by rw [quoted, List.flatMap_singleton, htexts]
  plain _ := List.forall_mem_singleton.mpr hplain
  legible _ := List.forall_mem_singleton.mpr hlegible

/-- Statements for every entry of a list. -/
theorem flatMap {α : Type} {ids : α → List ObjectId} {texts : α → List String}
    {lines : α → (ObjectId → String) → List Statement}
    (h : ∀ a, Drafted (ids a) (texts a) (lines a)) (l : List α) :
    Drafted (l.flatMap ids) (l.flatMap texts) fun name => l.flatMap fun a => lines a name := by
  induction l with
  | nil => exact nil
  | cons a l ih => exact (h a).append ih

/-- A statement for every entry of a list. -/
theorem map {α : Type} {ids : α → List ObjectId} {texts : α → List String}
    {line : α → (ObjectId → String) → Statement}
    (h : ∀ a, Drafted (ids a) (texts a) fun name => [line a name]) (l : List α) :
    Drafted (l.flatMap ids) (l.flatMap texts) fun name => l.map fun a => line a name := by
  simp only [List.map_eq_flatMap]
  exact flatMap h l

/-- Lines that call nothing and cite nothing stay so in any number. -/
theorem flatMap_mute {α : Type} {lines : α → List Statement}
    (h : ∀ a, Drafted [] [] fun _ => lines a) (l : List α) :
    Drafted [] [] fun _ => l.flatMap lines := by
  have hall := flatMap h l
  have hnone : ∀ {β : Type}, l.flatMap (fun _ => ([] : List β)) = [] :=
    List.flatMap_eq_nil_iff.mpr fun _ _ => rfl
  rwa [hnone, hnone] at hall

theorem map_mute {α : Type} {line : α → Statement} (h : ∀ a, Drafted [] [] fun _ => [line a])
    (l : List α) : Drafted [] [] fun _ => l.map line := by
  simp only [List.map_eq_flatMap]
  exact flatMap_mute h l

/-- A statement that calls some objects. -/
theorem one {line : (ObjectId → String) → Statement}
    (hcalls : ∀ name, (line name).calls = ids.map (Call.under name))
    (hnamed : ∀ name name', (line name).named name' = line name')
    (htexts : ∀ name, (line name).texts = texts) (hplain : ∀ name, (line name).isPlain = true)
    (hlegible : ∀ name, (line name).isLegible = true) :
    Drafted ids texts fun name => [line name] where
  calls name := by rw [List.flatMap_singleton, hcalls]
  named name name' := by rw [List.map_singleton, hnamed]
  texts name := by rw [quoted, List.flatMap_singleton, htexts]
  plain name := List.forall_mem_singleton.mpr (hplain name)
  legible name := List.forall_mem_singleton.mpr (hlegible name)

/-- A method of the object. -/
theorem invoke {part : Option String} {method : String} {args : (ObjectId → String) → List Argument}
    (hpart : part.toList.all isPrintable = true) (hmethod : isPrintable method = true)
    (h : Argument.Drafted ids texts args) :
    Drafted ids texts fun name => [.invoke part method (args name)] := by
  refine one h.calls (fun name name' => ?_) h.texts (fun _ => rfl) fun name => ?_
  · exact congrArg (Statement.invoke part method) (h.named name name')
  · rw [isLegible, words, List.all_append, List.all_cons, hpart, hmethod, h.legible]
    rfl

/-- An object is added to a collection. -/
theorem append_call {collection : String} (h : isPrintable collection = true) (id : ObjectId) :
    Drafted [id] [] fun name => [.append collection (.call (.under name id))] :=
  one (fun _ => rfl) (fun _ _ => rfl) (fun _ => rfl) (fun _ => rfl)
    fun _ => by simp [isLegible, words, Argument.words, h]

/-- A statement for every object of a list. -/
theorem each {line : ObjectId → (ObjectId → String) → Statement}
    (h : ∀ id, Drafted [id] [] fun name => [line id name]) (ids : List ObjectId) :
    Drafted ids [] fun name => ids.map fun id => line id name := by
  have hall := map h ids
  rwa [List.flatMap_singleton', List.flatMap_eq_nil_iff.mpr fun _ _ => rfl] at hall

/-- Setting a value that is no text. -/
theorem setSome {α : Type} {property : String} {spell : α → Argument}
    (h : ∀ a, Drafted [] [] fun _ => [.set property (spell a)]) (value : Option α) :
    Drafted [] [] fun _ => Body.setSome property spell value :=
  map_mute h value.toList

/-- Setting a text cites it, if there is one. -/
theorem setText {property : String} (h : isPrintable property = true) (value : Option String) :
    Drafted [] value.toList fun _ => Body.setSome property .text value := by
  cases value with
  | none => exact nil
  | some text =>
    have hlegible : (Statement.set property (.text text)).isLegible = true := by
      simp [isLegible, words, Argument.words, h]
    exact fixed rfl rfl rfl hlegible

/-- Setting a property to an object calls the object, if there is one. -/
theorem setCall (property : String) (h : isPrintable property = true) (target : Option ObjectId) :
    Drafted target.toList [] fun name =>
      Body.setSome property (fun id => .call (.under name id)) target := by
  cases target with
  | none => exact nil
  | some id =>
    exact one (fun _ => rfl) (fun _ _ => rfl) (fun _ => rfl) (fun _ => rfl)
      fun _ => by simp [isLegible, words, Argument.words, h]

end Statement.Drafted

/-! ## Runs with drafts -/

/-- A run that asks for these names and succeeds exactly under a condition, with a draft of a
kind. -/
def Composes {α : Type} (D : ((ObjectId → String) → α) → Prop) (x : Names → Except SceneError α)
    (ids : List ObjectId) (P : Prop) : Prop :=
  ∃ y, Asks x ids y ∧ SucceedsIff y P ∧ ∀ v, y = .ok v → D v

namespace Composes

variable {α β γ : Type} {D : ((ObjectId → String) → α) → Prop} {x : Names → Except SceneError α}
  {ids ids' : List ObjectId} {P Q : Prop}

/-- A run that has a draft, under a condition that holds. -/
theorem accepted {v : (ObjectId → String) → α} (hasks : Asks x ids (.ok v)) (hv : D v) (hP : P) :
    Composes D x ids P := by
  refine ⟨_, hasks, .accepted ⟨v, rfl⟩ hP, fun v' hv' => ?_⟩
  cases hv'
  exact hv

/-- A run that fails whatever the names are, under a condition that does not hold. -/
theorem refused {e : SceneError} (he : ∀ id, e ≠ .unnamed id) (hP : ¬ P) :
    Composes D (fun _ => .error e) ids P :=
  ⟨_, .refusal e ids, .refused he hP, fun _ hv => by cases hv⟩

theorem congr (h : Composes D x ids P) (hPQ : P ↔ Q) : Composes D x ids Q := by
  obtain ⟨y, hasks, hsucceeds, hdraft⟩ := h
  exact ⟨y, hasks, hsucceeds.congr hPQ, hdraft⟩

theorem of_eq {x' : Names → Except SceneError α} (h : Composes D x ids P)
    (hx : ∀ names, x names = x' names) : Composes D x' ids P :=
  (funext hx : x = x') ▸ h

/-- Two runs whose results are put together. -/
theorem map₂ {D' : ((ObjectId → String) → β) → Prop} {D'' : ((ObjectId → String) → γ) → Prop}
    {x' : Names → Except SceneError β} (f : α → β → γ) (h : Composes D x ids P)
    (h' : Composes D' x' ids' Q)
    (hD : ∀ v v', D v → D' v' → D'' fun name => f (v name) (v' name)) :
    Composes D'' (fun names => x names >>= fun a => x' names >>= fun b => .ok (f a b))
      (ids ++ ids') (P ∧ Q) := by
  obtain ⟨y, hasks, hsucceeds, hdraft⟩ := h
  obtain ⟨y', hasks', hsucceeds', hdraft'⟩ := h'
  refine ⟨_, hasks.map₂ hasks' f, hsucceeds.bind fun _ _ => hsucceeds'.map, fun w hw => ?_⟩
  obtain ⟨v, hv, hw⟩ := exists_of_bind_ok hw
  obtain ⟨v', hv', hw⟩ := exists_of_bind_ok hw
  cases hw
  exact hD v v' (hdraft v hv) (hdraft' v' hv')

/-- A run that is refused in the end, whatever it has found. -/
theorem refuse {D' : ((ObjectId → String) → β) → Prop} (h : Composes D x ids P) (e : SceneError)
    (he : ∀ id, e ≠ .unnamed id) (hQ : ¬ Q) (ids' : List ObjectId) :
    Composes D' (fun names => x names >>= fun _ => .error e) (ids ++ ids') Q := by
  have hrefused : Composes (fun _ : (ObjectId → String) → β => False) (fun _ => .error e) ids' Q :=
    refused he hQ
  refine (map₂ (fun _ b => b) h hrefused fun _ _ _ hfalse => hfalse.elim).congr ?_
  exact ⟨fun hPQ => hPQ.2, fun hq => absurd hq hQ⟩

/-- A run over a list whose statements are put together. -/
theorem mapM {f : β → Names → Except SceneError (List Statement)} {ids : β → List ObjectId}
    {texts : β → List String} {P : β → Prop}
    (h : ∀ b, Composes (Statement.Drafted (ids b) (texts b)) (f b) (ids b) (P b)) (l : List β) :
    Composes (Statement.Drafted (l.flatMap ids) (l.flatMap texts))
      (fun names => (l.mapM fun b => f b names) >>= fun groups => .ok groups.flatten)
      (l.flatMap ids) (∀ b ∈ l, P b) := by
  induction l with
  | nil => exact accepted (.pure []) .nil (by simp)
  | cons b l ih =>
    have hall := map₂ (· ++ ·) (h b) ih fun _ _ => Statement.Drafted.append
    rw [← List.forall_mem_cons] at hall
    refine hall.of_eq fun names => ?_
    rw [List.mapM_cons]
    cases f b names with
    | error e => rfl
    | ok group => cases l.mapM fun b => f b names <;> rfl

end Composes

/-! ## What is asked of an object -/

/-- The animator has no controller, or an object that is one. -/
def Animator.Controlled (s : Scene Float32) (a : Animator) : Prop :=
  ∀ c, a.controller = some c → ∃ p, s.get? c = some p ∧ p.kind = .animationController

/-- What is asked of an object before a method is written for it. -/
structure Object.Emittable (s : Scene Float32) (o : Object Float32) : Prop where
  made : o.kind ≠ .animationController
  supported : o.kind ≠ .external
  /-- Paths and geometries have nothing attached. -/
  bare : o.kind = .path ∨ o.kind = .geometry → o.attached = {}
  controlled : ∀ a ∈ o.attached.animators, a.Controlled s

/-- Nothing is attached if nothing can be seen of it. -/
theorem Attachments.isEmpty_iff {K : Type} {a : Attachments K} : a.isEmpty = true ↔ a = {} := by
  constructor
  · intro h
    obtain ⟨comment, short, long, ⟨entries, hentries⟩, animators⟩ := a
    simp only [isEmpty, hasText, PropertyBag.isEmpty, Bool.and_eq_true, List.isEmpty_iff,
      Bool.not_eq_true', Bool.or_eq_false_iff, Option.isSome_eq_false_iff,
      Option.isNone_iff_eq_none] at h
    obtain ⟨⟨rfl, rfl⟩, ⟨rfl, rfl⟩, rfl⟩ := h
    rfl
  · rintro rfl
    rfl

namespace Body

/-! ## Properties -/

/-- A property that refers to an object asks for its name. -/
theorem asks_setCall (property : String) (target : Option ObjectId) :
    Asks (fun names => setCall names property target) target.toList
      (.ok fun name => setSome property (fun id => .call (.under name id)) target) := by
  cases target with
  | none => exact .pure []
  | some id => exact (Asks.call id).map fun c => [Statement.set property (.call c)]

/-- An optional call asks for one name at most. -/
theorem asks_optionalCall (target : Option ObjectId) :
    Asks (fun names => optionalCall names target) target.toList
      (.ok fun name => target.toList.map fun id => .call (.under name id)) := by
  cases target with
  | none => exact .pure []
  | some id => exact (Asks.call id).map fun c => [Argument.call c]

/-- Settings of a transform are numbers only. -/
theorem drafted_shapeSettings (t : ShapeTransform Float32) :
    Statement.Drafted [] [] fun _ => shapeSettings t := by
  repeat' refine Statement.Drafted.append_mute ?_ ?_
  all_goals exact .setSome (fun _ => .fixed rfl rfl rfl rfl) _

theorem drafted_trimSettings (t : Trim Float32) :
    Statement.Drafted [] [] fun _ => trimSettings t := by
  repeat' refine Statement.Drafted.append_mute ?_ ?_
  all_goals exact .setSome (fun _ => .fixed rfl rfl rfl rfl) _

theorem drafted_strokeSettings (s : Stroke Float32) :
    Statement.Drafted [] [] fun _ => strokeSettings s := by
  refine .append_mute (.append_mute (.append_mute (.append_mute (.append_mute (.append_mute
    (.append_mute (.append_mute ?_ ?_) ?_) ?_) ?_) ?_) ?_) ?_) ?_
  · exact .setSome (fun _ => .fixed rfl rfl rfl rfl) _
  · exact .setSome (fun _ => .fixed rfl rfl rfl rfl) _
  · exact .setSome (fun cap => .fixed rfl rfl rfl (by cases cap <;> rfl)) _
  · exact .setSome (fun cap => .fixed rfl rfl rfl (by cases cap <;> rfl)) _
  · exact .setSome (fun cap => .fixed rfl rfl rfl (by cases cap <;> rfl)) _
  · exact .setSome (fun join => .fixed rfl rfl rfl (by cases join <;> rfl)) _
  · exact .setSome (fun _ => .fixed rfl rfl rfl rfl) _
  · exact .map_mute (fun _ => .fixed rfl rfl rfl rfl) _
  · exact .setSome (fun _ => .fixed rfl rfl rfl rfl) _

/-- The settings of a visual call its clip. -/
theorem exists_draft_visualSettings (v : Visual Float32) :
    ∃ lines, Asks (fun names => visualSettings names v) v.clip.toList (.ok lines) ∧
      Statement.Drafted v.clip.toList [] lines := by
  refine ⟨_, (asks_setCall "Clip" v.clip).map _, ?_⟩
  refine .mute_append ?_ (.setCall "Clip" rfl v.clip)
  repeat' refine Statement.Drafted.append_mute ?_ ?_
  all_goals exact .setSome (fun _ => .fixed rfl rfl rfl rfl) _

/-! ## Figures and animations -/

/-- Figures are numbers only. -/
theorem drafted_figuresStatements (mode : Option FillMode) (figures : List (Figure Float32)) :
    Statement.Drafted [] [] fun _ => figuresStatements mode figures := by
  have hsegment : ∀ g : Segment Float32, Statement.Drafted [] [] fun _ => [segmentStatement g] := by
    intro g
    cases g <;> exact .fixed rfl rfl rfl rfl
  have hend : ∀ closed : Bool, (Statement.build "EndFigure"
      [.choice "CanvasFigureLoop" (if closed then "Closed" else "Open")]).isLegible = true := by
    decide
  have hfigure : ∀ f : Figure Float32, Statement.Drafted [] [] fun _ => figureStatements f := by
    intro f
    refine .append_mute (.mute_append (.fixed rfl rfl rfl rfl) ?_)
      (.fixed rfl rfl rfl (hend f.closed))
    exact .map_mute hsegment f.segments
  refine .append_mute (.mute_append (.fixed rfl rfl rfl rfl) ?_) (.flatMap_mute hfigure figures)
  exact .map_mute (fun m => .fixed rfl rfl rfl (by cases m <;> rfl)) mode.toList

/-- A key frame calls its path and its easing. -/
theorem exists_draft_frameStatement (frame : KeyFrame Float32) :
    ∃ line, Asks (fun names => frameStatement names frame)
        (frame.value.callees ++ frame.easing.toList) (.ok line) ∧
      Statement.Drafted (frame.value.callees ++ frame.easing.toList) frame.value.texts
        fun name => [line name] := by
  obtain ⟨progress, value, easing⟩ := frame
  have hvalue : ∃ (method : String) (argument : (ObjectId → String) → Argument),
      Asks (fun names => frameValue names value) value.callees
        (.ok fun name => (method, argument name)) ∧ isPrintable method = true ∧
      Argument.Drafted value.callees value.texts fun name => [argument name] := by
    cases value with
    | path id =>
      exact ⟨_, _, (Asks.call id).map fun c => ("InsertKeyFrame", Argument.call c), rfl, .call id⟩
    | _ => exact ⟨_, _, .pure _, rfl, .fixed rfl rfl rfl⟩
  obtain ⟨method, argument, hasks, hmethod, hdraft⟩ := hvalue
  refine ⟨_, hasks.bind fun a => (asks_optionalCall easing).map _, ?_⟩
  have hargs := hdraft.append (.optionalCall easing)
  rw [List.append_nil] at hargs
  exact .invoke rfl hmethod (.cons hargs rfl rfl rfl)

/-- A parameter calls its object and cites its name. -/
theorem exists_draft_parameterStatement (p : Parameter) :
    ∃ line, Asks (fun names => parameterStatement names p) [p.object] (.ok line) ∧
      Statement.Drafted [p.object] [p.name] fun name => [line name] :=
  ⟨_, (Asks.call p.object).map _, .invoke rfl rfl (.cons (.call p.object) rfl rfl rfl)⟩

/-- A run over a list that makes a statement for every entry. -/
theorem exists_draft_mapM {α : Type} {f : α → Names → Except SceneError Statement}
    {ids : α → List ObjectId} {texts : α → List String}
    (h : ∀ a, ∃ line, Asks (f a) (ids a) (.ok line) ∧
      Statement.Drafted (ids a) (texts a) fun name => [line name]) (l : List α) :
    ∃ lines, Asks (fun names => l.mapM fun a => f a names) (l.flatMap ids) (.ok lines) ∧
      Statement.Drafted (l.flatMap ids) (l.flatMap texts) lines := by
  choose line hasks hdraft using h
  exact ⟨_, .mapM hasks l, .map hdraft l⟩

/-! ## Objects -/

namespace Drafted

variable {ids ids' : List ObjectId} {texts texts' : List String} {typeName : String}
  {before after : (ObjectId → String) → List Statement} {creation : (ObjectId → String) → Creation}

/-- A body from its parts. -/
theorem of_parts (hbefore : Statement.Drafted [] [] before)
    (hcreation : Creation.Drafted ids texts creation)
    (hafter : Statement.Drafted ids' texts' after) :
    Drafted (ids ++ ids') (texts ++ texts') fun name =>
      ⟨typeName, before name, creation name, after name⟩ where
  calls name := by
    rw [Body.calls, hbefore.calls, hcreation.calls, hafter.calls, List.map_append]
    rfl
  named name name' := by
    rw [Body.named, hbefore.named, hcreation.named, hafter.named]
  texts name := by
    rw [Body.texts, hbefore.texts, hcreation.texts, hafter.texts]
    rfl
  plain name := List.forall_mem_append.mpr ⟨hbefore.plain name, hafter.plain name⟩
  legible name := List.forall_mem_append.mpr ⟨hbefore.legible name, hafter.legible name⟩
  creation := hcreation.legible

/-- A body that calls something only when it creates the object. -/
theorem of_creation (hbefore : Statement.Drafted [] [] before)
    (hcreation : Creation.Drafted ids texts creation) (hafter : Statement.Drafted [] [] after) :
    Drafted ids texts fun name => ⟨typeName, before name, creation name, after name⟩ := by
  rw [← List.append_nil ids, ← List.append_nil texts]
  exact of_parts hbefore hcreation hafter

/-- A body of something that the compositor makes without arguments. -/
theorem of_after {method : String} (hmethod : isPrintable method = true)
    (hafter : Statement.Drafted ids texts after) :
    Drafted ids texts fun name => ⟨typeName, [], .compositor method [], after name⟩ :=
  of_parts .nil (.compositor hmethod .nil) hafter

/-- Statements are added at the end of a body. -/
theorem attach {body : (ObjectId → String) → Body} {lines : (ObjectId → String) → List Statement}
    (h : Drafted ids texts body) (h' : Statement.Drafted ids' texts' lines) :
    Drafted (ids ++ ids') (texts ++ texts') fun name =>
      { body name with after := (body name).after ++ lines name } where
  calls name := by
    rw [List.map_append, ← h.calls, ← h'.calls, Body.calls, Body.calls, List.flatMap_append,
      List.append_assoc _ _ (List.flatMap _ (lines name))]
  named name name' := by
    rw [← h.named name name', ← h'.named name name', Body.named, Body.named, List.map_append]
  texts name := by
    rw [← h.texts name, ← h'.texts name, Body.texts, Body.texts, Statement.quoted,
      Statement.quoted, List.flatMap_append, ← List.append_assoc]
    rfl
  plain name := by
    rw [← List.append_assoc]
    exact List.forall_mem_append.mpr ⟨h.plain name, h'.plain name⟩
  legible name := by
    rw [← List.append_assoc]
    exact List.forall_mem_append.mpr ⟨h.legible name, h'.legible name⟩
  creation := h.creation

end Drafted

/-- An outline calls the geometries it refers to. -/
theorem exists_draft_ofOutline (outline : Outline Float32) :
    ∃ body, Asks (fun names => ofOutline names outline)
        (Reference.called (Content.geometry outline).references) (.ok body) ∧
      Drafted (Reference.called (Content.geometry outline).references) [] body := by
  cases outline with
  | figures mode figures =>
    refine ⟨_, .pure _, .of_creation (drafted_figuresStatements mode figures) ?_ .nil⟩
    exact ⟨fun _ => rfl, fun _ _ => rfl, fun _ => rfl, fun _ => rfl⟩
  | group mode geometries =>
    rw [Content.references, Reference.called_many fun _ => rfl]
    have hcalls := Asks.mapM Asks.call geometries
    rw [List.flatMap_singleton'] at hcalls
    exact ⟨_, hcalls.map _, .of_creation .nil (.group geometries _) .nil⟩
  | transformed source matrix =>
    refine ⟨_, (Asks.call source).map _, .of_creation .nil ?_ .nil⟩
    exact ⟨fun _ => rfl, fun _ _ => rfl, fun _ => rfl, fun _ => rfl⟩

/-- **The draft of every kind of object** that has code, next to the run that fills it in. -/
theorem exists_draft_ofContent (id : ObjectId) {content : Content Float32}
    (hcontroller : content.kind ≠ .animationController) (hexternal : content.kind ≠ .external) :
    ∃ body, Asks (fun names => ofContent names id content) (Reference.called content.references)
        (.ok body) ∧
      Drafted (Reference.called content.references) content.texts body := by
  -- in each case: the references as lists of ids, then what is asked for, then what is drafted
  cases content with
  | containerVisual visual children =>
    rw [Content.references, Reference.called_append, Reference.called_one rfl,
      Reference.called_many fun _ => rfl]
    obtain ⟨settings, hsettings, hdraft⟩ := exists_draft_visualSettings visual
    refine ⟨_, hsettings.bind fun a => (Asks.each _ children).map _,
      .of_after rfl (hdraft.append ?_)⟩
    exact .each (fun child => .invoke rfl rfl (.call child)) children
  | shapeVisual visual shapes =>
    rw [Content.references, Reference.called_append, Reference.called_one rfl,
      Reference.called_many fun _ => rfl]
    obtain ⟨settings, hsettings, hdraft⟩ := exists_draft_visualSettings visual
    refine ⟨_, hsettings.bind fun a => (Asks.each _ shapes).map _, .of_after rfl (hdraft.append ?_)⟩
    exact .each (fun shape => .append_call rfl shape) shapes
  | containerShape transform shapes =>
    rw [Content.references, Reference.called_many fun _ => rfl]
    refine ⟨_, (Asks.each _ shapes).map _, .of_after rfl ?_⟩
    exact .mute_append (drafted_shapeSettings transform)
      (.each (fun shape => .append_call rfl shape) shapes)
  | spriteShape sprite =>
    rw [Content.references, Reference.called_append, Reference.called_append,
      Reference.called_one rfl, Reference.called_one rfl, Reference.called_one rfl,
      List.append_assoc]
    refine ⟨_, (asks_setCall "Geometry" sprite.geometry).bind fun a =>
      (asks_setCall "FillBrush" sprite.fillBrush).bind fun b =>
        (asks_setCall "StrokeBrush" sprite.strokeBrush).map _, ?_⟩
    rw [← List.append_assoc]
    have hgeometry := (drafted_shapeSettings sprite.transform).mute_append
      (.setCall "Geometry" rfl sprite.geometry)
    have hbrushes := (hgeometry.append (.setCall "FillBrush" rfl sprite.fillBrush)).append
      (.setCall "StrokeBrush" rfl sprite.strokeBrush)
    exact .of_after rfl (hbrushes.append_mute (drafted_strokeSettings sprite.stroke))
  | ellipseGeometry trim center radius =>
    refine ⟨_, .pure _,
      .of_after rfl (.append_mute (.append_mute ?_ ?_) (drafted_trimSettings trim))⟩
    all_goals exact .setSome (fun _ => .fixed rfl rfl rfl rfl) _
  | rectangleGeometry trim offset size =>
    refine ⟨_, .pure _,
      .of_after rfl (.append_mute (.append_mute ?_ ?_) (drafted_trimSettings trim))⟩
    all_goals exact .setSome (fun _ => .fixed rfl rfl rfl rfl) _
  | roundedRectangleGeometry trim offset size cornerRadius =>
    refine ⟨_, .pure _, .of_after rfl (.append_mute (.append_mute (.append_mute ?_ ?_) ?_)
      (drafted_trimSettings trim))⟩
    all_goals exact .setSome (fun _ => .fixed rfl rfl rfl rfl) _
  | pathGeometry trim p =>
    rw [Content.references, Reference.called_one rfl]
    exact ⟨_, (asks_optionalCall p).map _,
      .of_creation .nil (.compositor rfl (.optionalCall p)) (drafted_trimSettings trim)⟩
  | path source =>
    rw [Content.references, Reference.called_one rfl]
    have hsource : Asks (fun names => source.mapM names.call) source.toList
        (.ok fun name => source.map (Call.under name)) := by
      cases source with
      | none => exact .pure none
      | some id => exact (Asks.call id).map some
    exact ⟨_, hsource.map _, .of_creation .nil (.path source) .nil⟩
  | geometry outline => exact exists_draft_ofOutline outline
  | colorBrush color =>
    refine ⟨_, .pure _, .of_creation .nil (.compositor rfl ?_) .nil⟩
    cases color with
    | none => exact .nil
    | some c => exact .fixed rfl rfl rfl
  | insetClip left top right bottom =>
    refine ⟨_, .pure _, .of_after rfl (.append_mute (.append_mute (.append_mute ?_ ?_) ?_) ?_)⟩
    all_goals exact .setSome (fun _ => .fixed rfl rfl rfl rfl) _
  | geometricClip g =>
    rw [Content.references, Reference.called_one rfl]
    exact ⟨_, (asks_optionalCall g).map _,
      .of_creation .nil (.compositor rfl (.optionalCall g)) .nil⟩
  | linearEasing => exact ⟨_, .pure _, .of_after rfl .nil⟩
  | cubicBezierEasing control1 control2 =>
    refine ⟨_, .pure _, .of_creation .nil (.compositor rfl ?_) .nil⟩
    exact .cons (.fixed rfl rfl rfl) rfl rfl rfl
  | stepEasing steps initialSingle finalSingle =>
    refine ⟨_, .pure _, .of_after rfl (.append_mute (.append_mute ?_ ?_) ?_)⟩
    all_goals exact .setSome (fun _ => .fixed rfl rfl rfl rfl) _
  | keyFrameAnimation a =>
    rw [Content.references, Reference.called_numbered _ _ Reference.called_ofKeyFrame]
    obtain ⟨frames, hframes, hdraft⟩ := exists_draft_mapM exists_draft_frameStatement a.frames
    have hhead : Statement.Drafted [] a.target.toList fun _ =>
        .set "Duration" (.timeSpan a.duration.toInt) :: setSome "Target" .text a.target :=
      .mute_append (.fixed rfl rfl rfl rfl) (.setText rfl a.target)
    exact ⟨_, hframes.map _, .of_after (by cases a.kind <;> rfl) (hhead.append hdraft)⟩
  | expressionAnimation a =>
    rw [Content.references, Reference.called_many fun _ => rfl, Content.texts, List.map_eq_flatMap,
      List.map_eq_flatMap]
    obtain ⟨parameters, hparameters, hdraft⟩ :=
      exists_draft_mapM exists_draft_parameterStatement a.parameters
    have hcreation : Creation.Drafted [] [a.expression] fun _ =>
        .compositor "CreateExpressionAnimation" [.text a.expression] :=
      .compositor rfl (.fixed rfl rfl rfl)
    have htarget : Statement.Drafted [] a.target.toList fun _ => setSome "Target" .text a.target :=
      .setText rfl a.target
    exact ⟨_, hparameters.map _, .of_parts .nil hcreation (htarget.append hdraft)⟩
  | propertySet => exact ⟨_, .pure _, .of_after rfl .nil⟩
  | animationController paused => exact absurd rfl hcontroller
  | external typeName => exact absurd rfl hexternal

/-- A body is composed exactly if its kind has code. -/
theorem composes_ofContent (id : ObjectId) (content : Content Float32) :
    Composes (Drafted (Reference.called content.references) content.texts)
      (fun names => ofContent names id content) (Reference.called content.references)
      (content.kind ≠ .animationController ∧ content.kind ≠ .external) := by
  by_cases hkinds : content.kind ≠ .animationController ∧ content.kind ≠ .external
  · obtain ⟨body, hasks, hdraft⟩ := exists_draft_ofContent id hkinds.1 hkinds.2
    exact .accepted hasks hdraft hkinds
  · cases content with
    | animationController paused => exact .refused (by simp) hkinds
    | external typeName => exact .refused (by simp) hkinds
    | _ => exact absurd ⟨by simp [Content.kind], by simp [Content.kind]⟩ hkinds

/-! ## What is attached -/

/-- A paused controller has to be found by the target of its animator. -/
theorem drafted_controllerStatements {s : Scene Float32} {a : Animator} {controller : ObjectId}
    (ha : a.controller = some controller) {lines : List Statement}
    (h : controllerStatements s a.target controller = .ok lines) :
    Statement.Drafted [] (if s.isPaused a then [a.target] else []) fun _ => lines := by
  rw [Scene.isPaused, ha, Option.bind_some]
  unfold controllerStatements at h
  split at h
  · cases h
  · rename_i o hget
    rw [hget]
    obtain ⟨attached, content⟩ := o
    cases content with
    | animationController paused =>
      cases paused with
      | false =>
        cases h
        exact .nil
      | true =>
        cases h
        have hfind : Statement.Drafted [] [a.target] fun _ => [.findController a.target] :=
          .fixed rfl rfl rfl rfl
        exact .mute_append (.fixed rfl rfl rfl rfl) (hfind.append_mute
          (.mute_append (.fixed rfl rfl rfl rfl) (.fixed rfl rfl rfl rfl)))
    | _ => cases h

/-- A controller is set up exactly if there is one. -/
theorem controllerStatements_succeedsIff (s : Scene Float32) (target : String)
    (controller : ObjectId) :
    SucceedsIff (controllerStatements s target controller)
      (∃ p, s.get? controller = some p ∧ p.kind = .animationController) := by
  unfold controllerStatements
  split
  case h_1 hget =>
    refine .refused (by simp) ?_
    rintro ⟨p, hp, -⟩
    rw [hget] at hp
    cases hp
  case h_2 o hget =>
    split
    case h_1 hcontent => exact .accepted ⟨_, rfl⟩ ⟨o, hget, by rw [Object.kind, hcontent]; rfl⟩
    case h_2 hcontent => exact .accepted ⟨_, rfl⟩ ⟨o, hget, by rw [Object.kind, hcontent]; rfl⟩
    case h_3 hpaused hrunning =>
      refine .refused (by simp) ?_
      rintro ⟨p, hp, hkind⟩
      obtain rfl := Option.some.inj (hget.symm.trans hp)
      rw [Object.kind] at hkind
      cases hcontent : o.content with
      | animationController paused =>
        cases paused with
        | true => exact hpaused hcontent
        | false => exact hrunning hcontent
      | _ =>
        rw [hcontent] at hkind
        cases hkind

/-- An animator calls its animation. -/
theorem composes_animatorStatements (s : Scene Float32) (a : Animator) :
    Composes (Statement.Drafted [a.animation] (s.cues a))
      (fun names => animatorStatements s names a) [a.animation] (a.Controlled s) := by
  have hstart : Statement.Drafted [a.animation] [a.target] fun name =>
      [.invoke none "StartAnimation" [.text a.target, .call (.under name a.animation)]] :=
    .invoke rfl rfl (.cons (.call a.animation) rfl rfl rfl)
  cases ha : a.controller with
  | none =>
    have hcues : s.cues a = [a.target] := by rw [Scene.cues, Scene.isPaused, ha]; rfl
    rw [hcues]
    have hcomposes := Composes.accepted (P := a.Controlled s) ((Asks.call a.animation).map fun c =>
      [Statement.invoke none "StartAnimation" [.text a.target, .call c]]) hstart
      (by simp [Animator.Controlled, ha])
    refine hcomposes.of_eq fun names => ?_
    rw [animatorStatements, ha]
    rfl
  | some controller =>
    have hcontroller : Composes (Statement.Drafted [] (if s.isPaused a then [a.target] else []))
        (fun _ => controllerStatements s a.target controller) []
        (∃ p, s.get? controller = some p ∧ p.kind = .animationController) := by
      refine ⟨_, .fixed _, (controllerStatements_succeedsIff s a.target controller).map, ?_⟩
      intro v hv
      obtain ⟨lines, hlines, hv⟩ := exists_of_bind_ok hv
      cases hv
      exact drafted_controllerStatements ha hlines
    have hcomposes := Composes.map₂ (· ++ ·)
      (.accepted (P := True) ((Asks.call a.animation).map fun c =>
        [Statement.invoke none "StartAnimation" [.text a.target, .call c]]) hstart trivial)
      hcontroller fun _ _ => Statement.Drafted.append
    refine (hcomposes.congr (by simp [Animator.Controlled, ha])).of_eq fun names => ?_
    rw [animatorStatements, ha]
    cases names.call a.animation <;> rfl

/-- What is attached calls the animations of its animators. -/
theorem composes_attachmentStatements (s : Scene Float32) (o : Object Float32) :
    Composes
      (Statement.Drafted (o.attached.animators.map (·.animation))
        (o.attached.comment.toList ++ o.attached.properties.entries.map (·.1) ++
          o.attached.animators.flatMap s.cues))
      (fun names => attachmentStatements s names o) (o.attached.animators.map (·.animation))
      (∀ a ∈ o.attached.animators, a.Controlled s) := by
  have hproperties : ∀ bag : Option String, bag.toList.all isPrintable = true →
      Statement.Drafted [] (o.attached.properties.entries.map (·.1)) fun _ =>
        o.attached.properties.entries.map fun entry =>
          .invoke bag (propertyValue entry.2).1 [.text entry.1, (propertyValue entry.2).2] := by
    intro bag hbag
    have hentry : ∀ entry : String × PropertyValue Float32, Statement.Drafted [] [entry.1] fun _ =>
        [.invoke bag (propertyValue entry.2).1 [.text entry.1, (propertyValue entry.2).2]] := by
      rintro ⟨name, value⟩
      cases value <;> simp only [propertyValue] <;>
        exact .invoke hbag rfl (.cons (.fixed rfl rfl rfl) rfl rfl rfl)
    have hall := Statement.Drafted.map hentry o.attached.properties.entries
    rwa [← List.map_eq_flatMap, List.flatMap_eq_nil_iff.mpr fun _ _ => rfl] at hall
  have hbag : (if o.kind = .propertySet then none else some "Properties").toList.all isPrintable =
      true := by
    split <;> rfl
  have hcomment : Statement.Drafted [] o.attached.comment.toList fun _ =>
      setSome "Comment" .text o.attached.comment := .setText rfl o.attached.comment
  have hfixed :=
    Composes.accepted (P := True) (.pure _) (hcomment.append (hproperties _ hbag)) trivial
  have hanimators := Composes.mapM (composes_animatorStatements s) o.attached.animators
  rw [← List.map_eq_flatMap] at hanimators
  have hall := Composes.map₂ (· ++ ·) hfixed hanimators fun _ _ => Statement.Drafted.append
  refine (hall.congr (iff_of_eq (true_and _))).of_eq fun names => ?_
  rw [attachmentStatements]
  cases o.attached.animators.mapM fun a => animatorStatements s names a <;> rfl

/-- Paths and geometries are all that can carry nothing. -/
theorem canCarry_eq_false_iff {kind : Kind} :
    canCarry kind = false ↔ kind = .path ∨ kind = .geometry := by
  cases kind <;> simp [canCarry]

/-- **The draft of an object**, next to the run that fills it in. -/
theorem composes_ofObject (s : Scene Float32) (id : ObjectId) (o : Object Float32) :
    Composes (Drafted o.callees (s.literals o)) (fun names => ofObject s names id o) o.callees
      (o.Emittable s) := by
  have hcontent := composes_ofContent id o.content
  rw [Object.callees_eq]
  -- what can carry attachments gets their statements behind its own
  by_cases hcarry : canCarry o.kind = true
  · have hfull : ¬ (o.kind = .path ∨ o.kind = .geometry) := by
      rw [← canCarry_eq_false_iff, hcarry]
      simp
    have hall := Composes.map₂ (fun body lines => { body with after := body.after ++ lines })
      hcontent (composes_attachmentStatements s o) fun _ _ => Drafted.attach
    refine (hall.congr ?_).of_eq fun names => ?_
    · exact ⟨fun h => ⟨h.1.1, h.1.2, fun hkind => absurd hkind hfull, h.2⟩,
        fun h => ⟨⟨h.made, h.supported⟩, h.controlled⟩⟩
    · simp only [ofObject, hcarry, if_true]
      rfl
  · have hempty : o.kind = .path ∨ o.kind = .geometry := by
      rwa [← canCarry_eq_false_iff, ← Bool.not_eq_true]
    -- a path or geometry is fine without attachments, and refused with them
    by_cases hbare : o.attached = {}
    · have hliterals : s.literals o = o.content.texts := by
        rw [Scene.literals, hbare]
        exact List.append_nil _
      rw [hliterals, hbare, List.map_nil, List.append_nil]
      refine (hcontent.congr ?_).of_eq fun names => ?_
      · exact ⟨fun h => ⟨h.1, h.2, fun _ => hbare, by simp [hbare]⟩,
          fun h => ⟨h.made, h.supported⟩⟩
      · simp only [ofObject, hcarry, Attachments.isEmpty_iff.mpr hbare, if_true]
        exact (bind_pure _).symm
    · have hisEmpty : ¬ o.attached.isEmpty = true := fun h => hbare (Attachments.isEmpty_iff.mp h)
      refine (hcontent.refuse (.unsupported id (o.kind.label ++ " with metadata") .emission)
        (by simp) (fun h => hbare (h.bare hempty)) _).of_eq fun names => ?_
      simp only [ofObject, hcarry, hisEmpty]
      rfl

end Body

/-! ## Calls -/

/-- Calls of the methods of these objects, each by its name. -/
structure Names.Calling (names : Names) (ids : List ObjectId) (calls : List Call) : Prop where
  objects : calls.map (·.object) = ids
  named : ∀ c ∈ calls, names.get? c.object = some c.method

/-- Covered objects are called by their names. -/
theorem Names.Covers.calling {names : Names} {ids : List ObjectId} (h : names.Covers ids) :
    names.Calling ids (ids.map (Call.under names.nameOf)) := by
  refine ⟨?_, fun c hc => ?_⟩
  · rw [List.map_map]
    exact List.map_id ids
  · obtain ⟨id, hid, rfl⟩ := List.mem_map.mp hc
    obtain ⟨name, hname⟩ := h id hid
    rw [Call.under, Names.nameOf, hname]
    rfl

namespace Body

variable {s : Scene Float32} {names names' : Names} {id : ObjectId} {o : Object Float32}
  {body body' : Body}

/-- A body that is made is a draft with the names filled in. -/
theorem exists_draft_ofObject (h : ofObject s names id o = .ok body) :
    ∃ draft, Drafted o.callees (s.literals o) draft ∧ names.Covers o.callees ∧
      ∀ {names' body'}, ofObject s names' id o = .ok body' → body' = draft names'.nameOf := by
  obtain ⟨y, hasks, -, hdraft⟩ := composes_ofObject s id o
  obtain ⟨draft, hy, -⟩ := hasks.exists_of_ok h
  refine ⟨draft, hdraft draft hy, hasks.covers h, fun h' => ?_⟩
  obtain ⟨draft', hy', rfl⟩ := hasks.exists_of_ok h'
  rw [Except.ok.inj (hy.symm.trans hy')]

/-- A body that calls the methods of these objects and creates nothing before or after the
object. -/
structure Saying (names : Names) (ids : List ObjectId) (body : Body) : Prop where
  calling : names.Calling ids body.calls
  before : ∀ line ∈ body.before, line.isPlain = true
  after : ∀ line ∈ body.after, line.isPlain = true

/-- **The body of an object calls what stands in its slots**, in order and but for controllers, and
creates the object once. -/
theorem saying_ofObject (h : ofObject s names id o = .ok body) : body.Saying names o.callees := by
  obtain ⟨draft, hdraft, hcovers, hbody⟩ := exists_draft_ofObject h
  obtain rfl := hbody h
  obtain ⟨hbefore, hafter⟩ := List.forall_mem_append.mp (hdraft.plain names.nameOf)
  refine ⟨?_, hbefore, hafter⟩
  rw [hdraft.calls]
  exact hcovers.calling

/-! ## Other names -/

/-- Bodies of two runs, the second under these names: they differ in names only, and their words are
printable. -/
structure Restates (names : Names) (body body' : Body) : Prop where
  renamed : body' = body.named names.nameOf
  before : ∀ line ∈ body.before, line.isLegible = true
  creation : body.creation.words.all isPrintable = true
  after : ∀ line ∈ body.after, line.isLegible = true

/-- **A body under other names** is the same body with the other names in its calls, and all that is
fixed in it is printable. -/
theorem restates_ofObject (h : ofObject s names id o = .ok body)
    (h' : ofObject s names' id o = .ok body') : body.Restates names' body' := by
  obtain ⟨draft, hdraft, -, hbody⟩ := exists_draft_ofObject h
  obtain rfl := hbody h
  obtain rfl := hbody h'
  obtain ⟨hbefore, hafter⟩ := List.forall_mem_append.mp (hdraft.legible names.nameOf)
  exact ⟨(hdraft.named _ _).symm, hbefore, hdraft.creation _, hafter⟩

/-! ## Literals -/

/-- **A body gives the texts of its object as literals**, in order, and no others. -/
theorem texts_ofObject (h : ofObject s names id o = .ok body) : body.texts = s.literals o := by
  obtain ⟨draft, hdraft, -, hbody⟩ := exists_draft_ofObject h
  rw [hbody h, hdraft.texts]

/-! ## Success -/

/-- **The body of an object is made exactly if the object can be emitted**, given names for what it
refers to. -/
theorem ofObject_succeedsIff (s : Scene Float32) (id : ObjectId) {o : Object Float32}
    (hnames : names.Covers o.callees) : SucceedsIff (ofObject s names id o) (o.Emittable s) := by
  obtain ⟨y, hasks, hsucceeds, -⟩ := composes_ofObject s id o
  rw [hasks.covered hnames]
  exact hsucceeds.map

end Body
end Diorama
