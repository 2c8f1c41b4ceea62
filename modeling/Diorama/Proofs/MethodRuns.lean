/-
  What it means to run the methods of an instantiator.

  A method that keeps its object in a field returns what the field holds, if it is set.  Otherwise
  the body runs:  its statements make their calls in order, and the creation of the object sets the
  field.  A call of a method that does not exist does nothing.  `Memory` keeps track of the bodies
  that were run, of the fields and of what was handed to whom; an object that is made is known by
  the number of the run that made it.

  Where calls lead to objects of lower rank, every call comes to an end (`serves_invoke`).  The
  invariant on the way says what holds of runs that are over (`Done`): their field is set and all
  they called for was handed to them.  The runs that are not over are those of the methods that wait
  for a call to return, and they all rank higher than what is called.

  An object whose method keeps it in a field is made once, since the field is set when it is called
  for again.  Any other object is called for in one slot at most, so it is made once if the object
  with that slot is.  That is an induction along the rank from above (`count_runs_le_one`).
-/
import Mathlib
import Diorama.Proofs.MethodCalls

namespace Diorama

/-! ## Counting what is called for -/

section

variable {α β : Type} [DecidableEq β]

/-- Only lists that have an element count for how often it occurs in all. -/
theorem count_flatMap_eq_filter (l : List α) (f : α → List β) (b : β) :
    (l.flatMap f).count b = ((l.filter fun a => b ∈ f a).flatMap f).count b := by
  induction l with
  | nil => rfl
  | cons a l ih =>
    by_cases hb : b ∈ f a
    · simp [hb, ih]
    · simp [hb, ih, List.count_eq_zero_of_not_mem hb]

/-- Nothing occurs more often in the lists for some than in the lists for all. -/
theorem count_flatMap_le {l l' : List α} (hnodup : l.Nodup) (hsubset : l ⊆ l') (f : α → List β)
    (b : β) : (l.flatMap f).count b ≤ (l'.flatMap f).count b := by
  obtain ⟨l'', hperm, hsub⟩ := List.subperm_of_subset hnodup hsubset
  rw [← (hperm.flatMap_right f).count_eq b]
  exact (hsub.flatMap f).count_le b

end

/-! ## Running methods -/

/-- What a run of a body got when it called for an object. -/
structure Delivery where
  run : Nat
  object : ObjectId
  made : Option Nat
deriving DecidableEq

/-- What running methods leaves behind. -/
structure Memory where
  /-- The objects whose bodies have been run, in the order in which they began. -/
  runs : List ObjectId := []
  /-- The fields that are set, to the numbers of runs. -/
  fields : List (String × Nat) := []
  /-- What has been handed to runs. -/
  handed : List Delivery := []
deriving DecidableEq

namespace Memory

/-- The body of an object begins to run. -/
def start (mem : Memory) (id : ObjectId) : Memory := { mem with runs := mem.runs ++ [id] }

/-- Something is handed to a run. -/
def hand (mem : Memory) (d : Delivery) : Memory := { mem with handed := mem.handed ++ [d] }

/-- What a statement of a run does besides its calls. -/
def after (mem : Memory) (run : Nat) : Statement → Memory
  | .create (some field) _ => { mem with fields := (field, run) :: mem.fields }
  | _ => mem

end Memory

/-- A way to call methods by name; there is no answer where it does not come to an end. -/
abbrev Caller := String → Memory → Option (Option Nat × Memory)

namespace Caller

/-- Makes calls one after the other and hands what they give to a run. -/
def deliver (call : Caller) (run : Nat) : List Call → Memory → Option Memory
  | [], mem => some mem
  | c :: rest, mem => do
    let (made, next) ← call c.method mem
    deliver call run rest (next.hand ⟨run, c.object, made⟩)

/-- Runs statements. -/
def perform (call : Caller) (run : Nat) : List Statement → Memory → Option Memory
  | [], mem => some mem
  | line :: rest, mem => do
    let next ← deliver call run line.calls mem
    perform call run rest (next.after run line)

end Caller

namespace Instantiator

/-- Calls the method of a name, with calls up to a depth. -/
def invoke (i : Instantiator) : Nat → Caller
  | 0, _, _ => none
  | depth + 1, name, mem =>
    match i.find? name with
    | none => some (none, mem)
    | some m =>
      match m.field?.bind fun field => mem.fields.lookup field with
      | some made => some (some made, mem)
      | none => do
        let next ← (i.invoke depth).perform mem.runs.length m.statements (mem.start m.object)
        return (some mem.runs.length, next)

/-- Calls the method that makes the root, with nothing made before. -/
def createRoot (i : Instantiator) (depth : Nat) : Option (Option Nat × Memory) :=
  i.invoke depth i.root {}

end Instantiator

/-! ## More depth makes no difference -/

namespace Caller

variable {call call' : Caller} {run : Nat}

/-- The second way answers as the first one wherever that has an answer. -/
def Extends (call call' : Caller) : Prop :=
  ∀ name mem answer, call name mem = some answer → call' name mem = some answer

theorem deliver_mono (h : call.Extends call') {cs : List Call} {mem mem' : Memory}
    (hrun : call.deliver run cs mem = some mem') : call'.deliver run cs mem = some mem' := by
  induction cs generalizing mem with
  | nil => exact hrun
  | cons c cs ih =>
    obtain ⟨⟨made, next⟩, hfirst, hrest⟩ := Option.bind_eq_some_iff.mp hrun
    exact Option.bind_eq_some_iff.mpr ⟨(made, next), h _ _ _ hfirst, ih hrest⟩

theorem perform_mono (h : call.Extends call') {lines : List Statement} {mem mem' : Memory}
    (hrun : call.perform run lines mem = some mem') : call'.perform run lines mem = some mem' := by
  induction lines generalizing mem with
  | nil => exact hrun
  | cons line lines ih =>
    obtain ⟨next, hfirst, hrest⟩ := Option.bind_eq_some_iff.mp hrun
    exact Option.bind_eq_some_iff.mpr ⟨next, deliver_mono h hfirst, ih hrest⟩

theorem deliver_append (call : Caller) (run : Nat) (cs cs' : List Call) (mem : Memory) :
    call.deliver run (cs ++ cs') mem = call.deliver run cs mem >>= call.deliver run cs' := by
  induction cs generalizing mem with
  | nil => rfl
  | cons c cs ih =>
    simp only [List.cons_append, deliver, bind, Option.bind_assoc]
    exact congrArg _ (funext fun x => ih _)

theorem perform_append (call : Caller) (run : Nat) (lines lines' : List Statement) (mem : Memory) :
    call.perform run (lines ++ lines') mem =
      call.perform run lines mem >>= call.perform run lines' := by
  induction lines generalizing mem with
  | nil => rfl
  | cons line lines ih =>
    simp only [List.cons_append, perform, bind, Option.bind_assoc]
    exact congrArg _ (funext fun x => ih _)

/-- Statements that create nothing only make their calls. -/
theorem perform_plain (call : Caller) (run : Nat) {lines : List Statement}
    (h : ∀ line ∈ lines, line.isPlain = true) (mem : Memory) :
    call.perform run lines mem = call.deliver run (lines.flatMap Statement.calls) mem := by
  induction lines generalizing mem with
  | nil => rfl
  | cons line lines ih =>
    obtain ⟨hline, hlines⟩ := List.forall_mem_cons.mp h
    have hnothing : ∀ next : Memory, next.after run line = next := by
      intro next
      cases line with
      | create field creation => cases hline
      | _ => rfl
    rw [List.flatMap_cons, deliver_append, perform]
    exact congrArg _ (funext fun next => by rw [hnothing next, ih hlines])

end Caller

namespace Instantiator

theorem invoke_mono (i : Instantiator) {depth depth' : Nat} (h : depth ≤ depth') :
    (i.invoke depth).Extends (i.invoke depth') := by
  induction depth generalizing depth' with
  | zero =>
    intro name mem answer hanswer
    cases hanswer
  | succ depth ih =>
    intro name mem answer hanswer
    obtain ⟨deeper, rfl⟩ : ∃ deeper, depth' = deeper + 1 := ⟨depth' - 1, by omega⟩
    rw [invoke] at hanswer ⊢
    cases hfind : i.find? name with
    | none => simpa only [hfind] using hanswer
    | some m =>
      simp only [hfind] at hanswer ⊢
      cases hfield : m.field?.bind fun field => mem.fields.lookup field with
      | some made => simpa only [hfield] using hanswer
      | none =>
        simp only [hfield] at hanswer ⊢
        obtain ⟨next, hrun, hdone⟩ := Option.bind_eq_some_iff.mp hanswer
        exact Option.bind_eq_some_iff.mpr
          ⟨next, Caller.perform_mono (ih (by omega)) hrun, hdone⟩

/-! ## Methods that are well made -/

/-- The method that makes an object. -/
def methodOf? (i : Instantiator) (id : ObjectId) : Option Method :=
  i.methods.find? fun m => m.object = id

/-- The objects that the method of an object calls for, in order. -/
def callsOf (i : Instantiator) (id : ObjectId) : List ObjectId :=
  (i.methodOf? id).elim [] fun m => m.calls.map (·.object)

/-- The method of one object calls for another one. -/
def Calls (i : Instantiator) (a b : ObjectId) : Prop := b ∈ i.callsOf a

/-- Every object has one method and one field, methods are called for objects of lower rank, and an
object without a field is called for in one place at most. -/
structure Wellmade (i : Instantiator) (rank : ObjectId → Nat) (root : ObjectId) : Prop where
  object : ∀ m ∈ i.methods, i.methodOf? m.object = some m
  field : ∀ m ∈ i.methods, ∀ m' ∈ i.methods, ∀ f, m.field? = some f → m'.field? = some f → m = m'
  creates : ∀ m ∈ i.methods, ∃ before creation after,
    m.statements = before ++ .create m.field? creation :: after ∧
      (∀ line ∈ before, line.isPlain = true) ∧ ∀ line ∈ after, line.isPlain = true
  finds : ∀ m ∈ i.methods, ∀ c ∈ m.calls, i.find? c.method = i.methodOf? c.object
  descends : ∀ m ∈ i.methods, ∀ c ∈ m.calls, rank c.object < rank m.object
  single : ∀ m ∈ i.methods, m.isCached = false →
    (i.methods.flatMap fun m' => m'.calls.map (·.object)).count m.object ≤ 1
  rooted : ∃ m, i.methodOf? root = some m ∧ i.find? i.root = some m

theorem mem_of_methodOf? {i : Instantiator} {id : ObjectId} {m : Method}
    (h : i.methodOf? id = some m) : m ∈ i.methods ∧ m.object = id :=
  ⟨List.mem_of_find?_eq_some h, by simpa using List.find?_some h⟩

theorem callsOf_of_methodOf? {i : Instantiator} {id : ObjectId} {m : Method}
    (h : i.methodOf? id = some m) : i.callsOf id = m.calls.map (·.object) := by
  rw [callsOf, h]
  rfl

variable {i : Instantiator} {rank : ObjectId → Nat} {root : ObjectId}

theorem Wellmade.rank_lt (hi : i.Wellmade rank root) {a b : ObjectId} (h : i.Calls a b) :
    rank b < rank a := by
  cases hm : i.methodOf? a with
  | none =>
    rw [Calls, callsOf, hm] at h
    cases h
  | some m =>
    rw [Calls, callsOf_of_methodOf? hm] at h
    obtain ⟨call, hcall, rfl⟩ := List.mem_map.mp h
    obtain ⟨hmem, rfl⟩ := mem_of_methodOf? hm
    exact hi.descends m hmem call hcall

/-- What a call leads to, and all that is called from there, ranks no higher. -/
theorem Wellmade.rank_le (hi : i.Wellmade rank root) {a b : ObjectId}
    (h : Relation.ReflTransGen i.Calls a b) : rank b ≤ rank a := by
  induction h with
  | refl => exact Nat.le_refl _
  | tail _ hbc ih =>
    have hlt := hi.rank_lt hbc
    omega

/-! ## Invariants -/

/-- What a call for an object gives: the number of a run of its body, or nothing if it has no
method. -/
def Gives (i : Instantiator) (mem : Memory) (id : ObjectId) : Option Nat → Prop
  | none => i.methodOf? id = none
  | some k => mem.runs[k]? = some id

/-- Fields hold their objects, what was handed over is what was called for, and an object with a
field was made once at most. -/
structure Right (i : Instantiator) (mem : Memory) : Prop where
  field : ∀ m ∈ i.methods, ∀ f k, m.field? = some f → mem.fields.lookup f = some k →
    mem.runs[k]? = some m.object
  delivered : ∀ d ∈ mem.handed, i.Gives mem d.object d.made
  bounded : ∀ d ∈ mem.handed, d.run < mem.runs.length
  once : ∀ m ∈ i.methods, m.isCached = true → mem.runs.count m.object ≤ 1
  method : ∀ id ∈ mem.runs, (i.methodOf? id).isSome = true

/-- A run of the body of an object is over. -/
structure Done (i : Instantiator) (mem : Memory) (k : Nat) (id : ObjectId) : Prop where
  field : ∀ m f, i.methodOf? id = some m → m.field? = some f → (mem.fields.lookup f).isSome = true
  handed : (mem.handed.filter (·.run = k)).map (·.object) = i.callsOf id

/-- All runs for objects below a rank are over. -/
def DoneBelow (i : Instantiator) (rank : ObjectId → Nat) (r : Nat) (mem : Memory) : Prop :=
  ∀ (k : Nat) (id : ObjectId), mem.runs[k]? = some id → rank id < r → i.Done mem k id

/-- Runs and deliveries are added, and fields stay set. -/
structure Grows (mem mem' : Memory) (new : List ObjectId) (given : List Delivery) : Prop where
  runs : mem'.runs = mem.runs ++ new
  handed : mem'.handed = mem.handed ++ given
  fields : ∀ f, (mem.fields.lookup f).isSome = true → (mem'.fields.lookup f).isSome = true

/-- Nothing of what others got is for a run. -/
theorem filter_run_eq_nil {given : List Delivery} {k : Nat} (h : ∀ d ∈ given, d.run ≠ k) :
    given.filter (·.run = k) = [] := by
  refine List.filter_eq_nil_iff.mpr fun d hd => ?_
  simpa using h d hd

namespace Grows

variable {mem mem' mem'' : Memory} {new new' : List ObjectId} {given given' : List Delivery}

theorem refl (mem : Memory) : Grows mem mem [] [] := ⟨by simp, by simp, fun _ h => h⟩

theorem trans (h : Grows mem mem' new given) (h' : Grows mem' mem'' new' given') :
    Grows mem mem'' (new ++ new') (given ++ given') where
  runs := by rw [h'.runs, h.runs, List.append_assoc]
  handed := by rw [h'.handed, h.handed, List.append_assoc]
  fields f hf := h'.fields f (h.fields f hf)

theorem runs_of_some (h : Grows mem mem' new given) {k : Nat} {id : ObjectId}
    (hk : mem.runs[k]? = some id) : mem'.runs[k]? = some id := by
  obtain ⟨hlt, -⟩ := List.getElem?_eq_some_iff.mp hk
  rw [h.runs, List.getElem?_append_left hlt, hk]

/-- A run is an old one or one that was added. -/
theorem runs_cases (h : Grows mem mem' new given) {k : Nat} {id : ObjectId}
    (hk : mem'.runs[k]? = some id) :
    mem.runs[k]? = some id ∨ mem.runs.length ≤ k ∧ new[k - mem.runs.length]? = some id := by
  rw [h.runs] at hk
  by_cases hlt : k < mem.runs.length
  · rw [List.getElem?_append_left hlt] at hk
    exact .inl hk
  · rw [List.getElem?_append_right (by omega)] at hk
    exact .inr ⟨by omega, hk⟩

theorem length_le (h : Grows mem mem' new given) : mem.runs.length ≤ mem'.runs.length := by
  rw [h.runs, List.length_append]
  omega

theorem gives (h : Grows mem mem' new given) {id : ObjectId} {made : Option Nat}
    (hgives : i.Gives mem id made) : i.Gives mem' id made := by
  cases made with
  | none => exact hgives
  | some k => exact h.runs_of_some hgives

/-- A run that gets nothing more stays over. -/
theorem done (h : Grows mem mem' new given) {k : Nat} {id : ObjectId} (hdone : i.Done mem k id)
    (hother : ∀ d ∈ given, d.run ≠ k) : i.Done mem' k id where
  field m f hm hf := h.fields f (hdone.field m f hm hf)
  handed := by
    rw [h.handed, List.filter_append, filter_run_eq_nil hother, List.append_nil]
    exact hdone.handed

end Grows

/-! ## What calls do -/

/-- A call for an object has come to an end. -/
structure Called (i : Instantiator) (rank : ObjectId → Nat) (r : Nat) (id : ObjectId)
    (mem : Memory) (made : Option Nat) (mem' : Memory) (new : List ObjectId)
    (given : List Delivery) : Prop where
  grows : Grows mem mem' new given
  right : i.Right mem'
  done : i.DoneBelow rank r mem'
  gives : i.Gives mem' id made
  reached : ∀ b ∈ new, Relation.ReflTransGen i.Calls id b
  later : ∀ d ∈ given, mem.runs.length ≤ d.run
  asked : ∀ b, new.count b ≤ [id].count b + (given.map (·.object)).count b
  called : (given.map (·.object)).Perm (new.flatMap i.callsOf)

/-- Calls of a run have come to an end, and what they gave was handed to the run. -/
structure Delivered (i : Instantiator) (rank : ObjectId → Nat) (r run : Nat) (cs : List Call)
    (mem mem' : Memory) (new : List ObjectId) (given : List Delivery) : Prop where
  grows : Grows mem mem' new given
  right : i.Right mem'
  done : i.DoneBelow rank r mem'
  reached : ∀ b ∈ new, ∃ c ∈ cs, Relation.ReflTransGen i.Calls c.object b
  later : ∀ d ∈ given, d.run = run ∨ mem.runs.length ≤ d.run
  own : (given.filter (·.run = run)).map (·.object) = cs.map (·.object)
  asked : ∀ b, new.count b ≤ (given.map (·.object)).count b
  called : (given.map (·.object)).Perm (cs.map (·.object) ++ new.flatMap i.callsOf)

namespace Delivered

variable {r run : Nat} {cs cs' : List Call} {mem mem' mem'' : Memory} {new new' : List ObjectId}
  {given given' : List Delivery}

theorem nil (hright : i.Right mem) (hdone : i.DoneBelow rank r mem) :
    i.Delivered rank r run [] mem mem [] [] :=
  ⟨.refl mem, hright, hdone, by simp, by simp, rfl, by simp, .nil⟩

theorem trans (h : i.Delivered rank r run cs mem mem' new given)
    (h' : i.Delivered rank r run cs' mem' mem'' new' given') :
    i.Delivered rank r run (cs ++ cs') mem mem'' (new ++ new') (given ++ given') where
  grows := h.grows.trans h'.grows
  right := h'.right
  done := h'.done
  reached := by
    intro b hb
    rcases List.mem_append.mp hb with hb | hb
    · obtain ⟨c, hc, hcb⟩ := h.reached b hb
      exact ⟨c, List.mem_append_left _ hc, hcb⟩
    · obtain ⟨c, hc, hcb⟩ := h'.reached b hb
      exact ⟨c, List.mem_append_right _ hc, hcb⟩
  later := by
    have hlength := h.grows.length_le
    intro d hd
    rcases List.mem_append.mp hd with hd | hd
    · exact h.later d hd
    · exact (h'.later d hd).imp_right hlength.trans
  own := by simp only [List.filter_append, List.map_append, h.own, h'.own]
  asked := by
    intro b
    have hfirst := h.asked b
    have hsecond := h'.asked b
    rw [List.map_append, List.count_append, List.count_append]
    omega
  called := by
    rw [List.map_append, List.map_append, List.flatMap_append]
    refine (h.called.append h'.called).trans ?_
    -- the calls of both lists come before what they led to
    rw [List.append_assoc, List.append_assoc]
    refine List.Perm.append_left _ ?_
    rw [← List.append_assoc, ← List.append_assoc]
    exact List.perm_append_comm.append_right _

/-- One call, and what it gave is handed over. -/
theorem of_called {c : Call} {made : Option Nat} (hrun : run < mem.runs.length)
    (hopen : ∀ id, mem.runs[run]? = some id → r ≤ rank id)
    (h : i.Called rank r c.object mem made mem' new given) :
    i.Delivered rank r run [c] mem (mem'.hand ⟨run, c.object, made⟩) new
      (given ++ [⟨run, c.object, made⟩]) := by
  have hlength := h.grows.length_le
  have hgrows : Grows mem' (mem'.hand ⟨run, c.object, made⟩) [] [⟨run, c.object, made⟩] :=
    ⟨by simp [Memory.hand], rfl, fun _ hf => hf⟩
  have hall := h.grows.trans hgrows
  rw [List.append_nil] at hall
  -- nothing of what came before was for this run
  have hnone : given.filter (·.run = run) = [] := by
    refine filter_run_eq_nil fun d hd => ?_
    have hlater := h.later d hd
    omega
  refine ⟨hall, ⟨h.right.field, ?_, ?_, h.right.once, h.right.method⟩, ?_, ?_, ?_, ?_, ?_, ?_⟩
  · intro d hd
    rcases List.mem_append.mp hd with hd | hd
    · exact h.right.delivered d hd
    · rw [List.mem_singleton.mp hd]
      exact h.gives
  · intro d hd
    rcases List.mem_append.mp hd with hd | hd
    · exact h.right.bounded d hd
    · rw [List.mem_singleton.mp hd]
      exact Nat.lt_of_lt_of_le hrun hlength
  · intro k id hk hlt
    refine hgrows.done (h.done k id hk hlt) fun d hd heq => ?_
    -- the run that gets something is not over yet, so its object is not below the rank
    rw [List.mem_singleton.mp hd] at heq
    subst heq
    obtain ⟨a, ha⟩ : ∃ a, mem.runs[run]? = some a := ⟨_, List.getElem?_eq_getElem hrun⟩
    have hsame : a = id := Option.some.inj ((h.grows.runs_of_some ha).symm.trans hk)
    have hle := hopen a ha
    rw [hsame] at hle
    omega
  · exact fun b hb => ⟨c, List.mem_cons_self, h.reached b hb⟩
  · intro d hd
    rcases List.mem_append.mp hd with hd | hd
    · exact .inr (h.later d hd)
    · rw [List.mem_singleton.mp hd]
      exact .inl rfl
  · simp [List.filter_append, hnone]
  · intro b
    have hasked := h.asked b
    rw [List.map_append, List.count_append]
    simp only [List.map_cons, List.map_nil] at hasked ⊢
    omega
  · rw [List.map_append]
    exact List.perm_append_comm.trans (h.called.append_left _)

/-- The creation of the object of a run sets its field. -/
theorem of_creation {m : Method} (creation : Creation) (hi : i.Wellmade rank root)
    (hm : m ∈ i.methods) (hrun : mem.runs[run]? = some m.object) (hright : i.Right mem)
    (hdone : i.DoneBelow rank r mem) :
    i.Delivered rank r run [] mem (mem.after run (.create m.field? creation)) [] [] := by
  cases hfield : m.field? with
  | none => exact .nil hright hdone
  | some f =>
    have hgrows : Grows mem (mem.after run (.create (some f) creation)) [] [] := by
      refine ⟨by simp [Memory.after], by simp [Memory.after], fun g hg => ?_⟩
      simp only [Memory.after, List.lookup_cons]
      split
      · rfl
      · exact hg
    refine ⟨hgrows, ⟨?_, hright.delivered, hright.bounded, hright.once, hright.method⟩, ?_, by simp,
      by simp, rfl, by simp, .nil⟩
    · intro m' hm' g k hg hk
      simp only [Memory.after, List.lookup_cons] at hk
      split at hk
      · rename_i hsame
        obtain rfl : g = f := by simpa using hsame
        obtain rfl := hi.field m hm m' hm' g hfield hg
        obtain rfl := Option.some.inj hk
        exact hrun
      · exact hright.field m' hm' g k hg hk
    · exact fun k id hk hlt => hgrows.done (hdone k id hk hlt) (by simp)

end Delivered

/-- A way to call methods that ends for objects below a rank. -/
def Serves (i : Instantiator) (rank : ObjectId → Nat) (r : Nat) (call : Caller) : Prop :=
  ∀ id name mem, rank id < r → i.find? name = i.methodOf? id → i.Right mem →
    i.DoneBelow rank r mem →
    ∃ made mem' new given, call name mem = some (made, mem') ∧
      i.Called rank r id mem made mem' new given

section

variable {r run : Nat} {call : Caller}

theorem deliver_spec (hcall : i.Serves rank r call) {cs : List Call}
    (hcs : ∀ c ∈ cs, rank c.object < r ∧ i.find? c.method = i.methodOf? c.object) {mem : Memory}
    {holder : ObjectId} (hrun : mem.runs[run]? = some holder) (hopen : r ≤ rank holder)
    (hright : i.Right mem) (hdone : i.DoneBelow rank r mem) :
    ∃ mem' new given, call.deliver run cs mem = some mem' ∧
      i.Delivered rank r run cs mem mem' new given := by
  induction cs generalizing mem with
  | nil => exact ⟨mem, [], [], rfl, .nil hright hdone⟩
  | cons c cs ih =>
    obtain ⟨⟨hlow, hfind⟩, hcs⟩ := List.forall_mem_cons.mp hcs
    obtain ⟨made, next, new, given, hanswer, hcalled⟩ :=
      hcall c.object c.method mem hlow hfind hright hdone
    obtain ⟨hlt, -⟩ := List.getElem?_eq_some_iff.mp hrun
    have hone := Delivered.of_called (c := c) hlt (fun id hid => by
      obtain rfl := Option.some.inj (hrun.symm.trans hid)
      exact hopen) hcalled
    obtain ⟨mem', new', given', hrest, hothers⟩ :=
      ih hcs (hone.grows.runs_of_some hrun) hone.right hone.done
    refine ⟨mem', _, _, ?_, hone.trans hothers⟩
    rw [Caller.deliver, hanswer]
    exact hrest

/-- A body makes the calls of its method and sets the field. -/
theorem perform_spec (hi : i.Wellmade rank root) {m : Method} (hm : m ∈ i.methods)
    (hcall : i.Serves rank (rank m.object) call) {mem : Memory}
    (hrun : mem.runs[run]? = some m.object) (hright : i.Right mem)
    (hdone : i.DoneBelow rank (rank m.object) mem) :
    ∃ mem' new given, call.perform run m.statements mem = some mem' ∧
      i.Delivered rank (rank m.object) run m.calls mem mem' new given ∧
      ∀ f, m.field? = some f → (mem'.fields.lookup f).isSome = true := by
  obtain ⟨before, creation, after, hstatements, hbefore, hafter⟩ := hi.creates m hm
  have hcalls : m.calls = before.flatMap Statement.calls ++
      ((Statement.create m.field? creation).calls ++ ([] ++ after.flatMap Statement.calls)) := by
    rw [Method.calls, hstatements, List.flatMap_append, List.flatMap_cons, List.nil_append]
  have hlow : ∀ c ∈ m.calls, rank c.object < rank m.object ∧
      i.find? c.method = i.methodOf? c.object :=
    fun c hc => ⟨hi.descends m hm c hc, hi.finds m hm c hc⟩
  rw [hcalls] at hlow
  simp only [List.forall_mem_append] at hlow
  obtain ⟨hlowBefore, hlowCreation, -, hlowAfter⟩ := hlow
  -- what the body does up to the creation, the creation, and what it does after
  obtain ⟨mem₁, new₁, given₁, hrun₁, h₁⟩ :=
    deliver_spec hcall hlowBefore hrun (Nat.le_refl _) hright hdone
  obtain ⟨mem₂, new₂, given₂, hrun₂, h₂⟩ := deliver_spec hcall hlowCreation
    (h₁.grows.runs_of_some hrun) (Nat.le_refl _) h₁.right h₁.done
  have hrunning := h₂.grows.runs_of_some (h₁.grows.runs_of_some hrun)
  have hset := Delivered.of_creation creation hi hm hrunning h₂.right h₂.done
  obtain ⟨mem₃, new₃, given₃, hrun₃, h₃⟩ := deliver_spec hcall hlowAfter
    (hset.grows.runs_of_some hrunning) (Nat.le_refl _) hset.right hset.done
  refine ⟨mem₃, _, _, ?_, hcalls ▸ h₁.trans (h₂.trans (hset.trans h₃)), fun f hf => ?_⟩
  · rw [hstatements, Caller.perform_append, Caller.perform_plain call run hbefore, hrun₁]
    simp only [bind, Option.bind_some, Caller.perform, hrun₂]
    rw [Caller.perform_plain call run hafter, hrun₃]
  · refine h₃.grows.fields f ?_
    simp [hf, Memory.after]

end

/-! ## Calls come to an end -/

section

variable {r : Nat} {mem : Memory} {m : Method}

theorem Grows.start (mem : Memory) (id : ObjectId) : Grows mem (mem.start id) [id] [] :=
  ⟨rfl, by simp [Memory.start], fun _ h => h⟩

/-- A body is run if the field is not set; then no run for the object came before. -/
theorem Right.start (hi : i.Wellmade rank root) (hm : m ∈ i.methods) (hlow : rank m.object < r)
    (hfield : (m.field?.bind fun f => mem.fields.lookup f) = none) (hright : i.Right mem)
    (hdone : i.DoneBelow rank r mem) : i.Right (mem.start m.object) where
  field m' hm' f k hf hk := (Grows.start mem m.object).runs_of_some (hright.field m' hm' f k hf hk)
  delivered d hd := (Grows.start mem m.object).gives (hright.delivered d hd)
  bounded d hd := Nat.lt_of_lt_of_le (hright.bounded d hd) (Grows.start mem m.object).length_le
  once m' hm' hcached := by
    have hcount : (mem.start m.object).runs.count m'.object =
        mem.runs.count m'.object + [m.object].count m'.object := List.count_append
    by_cases hsame : m.object = m'.object
    · obtain rfl : m = m' :=
        Option.some.inj ((hi.object m hm).symm.trans (hsame ▸ hi.object m' hm'))
      -- had the method run before, it would have left its object in the field
      have hnone : m.object ∉ mem.runs := by
        intro hmem
        obtain ⟨k, hk⟩ := List.getElem?_of_mem hmem
        have hf : m.field? = some (fieldName m.name) := by simp [Method.field?, hcached]
        have hsome := (hdone k _ hk hlow).field m _ (hi.object m hm) hf
        rw [hf, Option.bind_some] at hfield
        rw [hfield] at hsome
        cases hsome
      rw [hcount, List.count_eq_zero_of_not_mem hnone, List.count_singleton_self]
    · have hother : [m.object].count m'.object = 0 :=
        List.count_eq_zero_of_not_mem fun h => hsame (List.mem_singleton.mp h).symm
      rw [hcount, hother]
      exact hright.once m' hm' hcached
  method id hid := by
    rcases List.mem_append.mp hid with hid | hid
    · exact hright.method id hid
    · rw [List.mem_singleton.mp hid, hi.object m hm]
      rfl

theorem DoneBelow.start {id : ObjectId} (hlow : rank id < r) (hdone : i.DoneBelow rank r mem) :
    i.DoneBelow rank (rank id) (mem.start id) := by
  intro k b hk hb
  rcases (Grows.start mem id).runs_cases hk with hk | ⟨-, hk⟩
  · exact (Grows.start mem id).done (hdone k b hk (by omega)) (by simp)
  · obtain rfl := List.mem_singleton.mp (List.mem_of_getElem? hk)
    omega

section

variable {mem' : Memory} {new : List ObjectId} {given : List Delivery}
  (hi : i.Wellmade rank root) (hm : m ∈ i.methods)
  (hbody : i.Delivered rank (rank m.object) mem.runs.length m.calls (mem.start m.object) mem' new
    given)
  (hset : ∀ f, m.field? = some f → (mem'.fields.lookup f).isSome = true) (hright : i.Right mem)

include hi hm hbody

/-- What was run inside a body was called for there. -/
theorem Delivered.exists_call {b : ObjectId} (hb : b ∈ new) :
    ∃ c, i.Calls m.object c ∧ Relation.ReflTransGen i.Calls c b := by
  obtain ⟨c, hc, hcb⟩ := hbody.reached b hb
  refine ⟨c.object, ?_, hcb⟩
  rw [Calls, callsOf_of_methodOf? (hi.object m hm)]
  exact List.mem_map_of_mem hc

include hset hright

/-- A body that has run from the start is over. -/
theorem Delivered.done_run : i.Done mem' mem.runs.length m.object where
  field m' f hm' hf := by
    obtain rfl := Option.some.inj ((hi.object m hm).symm.trans hm')
    exact hset f hf
  handed := by
    -- nothing was handed to the run before it began
    have hfresh : mem.handed.filter (·.run = mem.runs.length) = [] := by
      refine filter_run_eq_nil fun d hd => ?_
      have hlt := hright.bounded d hd
      omega
    rw [((Grows.start mem m.object).trans hbody.grows).handed, List.filter_append, hfresh,
      List.nil_append, List.nil_append, hbody.own, callsOf_of_methodOf? (hi.object m hm)]

/-- A call that ran the body has come to an end. -/
theorem Called.of_run (hdone : i.DoneBelow rank r mem) :
    i.Called rank r m.object mem (some mem.runs.length) mem' (m.object :: new) given := by
  have hgrows : Grows mem mem' (m.object :: new) given :=
    (Grows.start mem m.object).trans hbody.grows
  have hlater : ∀ d ∈ given, mem.runs.length ≤ d.run := by
    intro d hd
    have hstart := (Grows.start mem m.object).length_le
    rcases hbody.later d hd with hd | hd
    · omega
    · exact hstart.trans hd
  refine ⟨hgrows, hbody.right, ?_, ?_, ?_, hlater, ?_, ?_⟩
  · -- a run is an earlier one, that of the body, or one inside
    intro k b hk hb
    rcases hgrows.runs_cases hk with hold | ⟨hge, hnew⟩
    · obtain ⟨hlt, -⟩ := List.getElem?_eq_some_iff.mp hold
      refine hgrows.done (hdone k b hold hb) fun d hd heq => ?_
      have hd := hlater d hd
      omega
    · cases hplace : k - mem.runs.length with
      | zero =>
        rw [hplace, List.getElem?_cons_zero] at hnew
        obtain rfl := Option.some.inj hnew
        obtain rfl : k = mem.runs.length := by omega
        exact hbody.done_run hi hm hset hright
      | succ j =>
        rw [hplace, List.getElem?_cons_succ] at hnew
        obtain ⟨c, hcall, hcb⟩ := hbody.exists_call hi hm (List.mem_of_getElem? hnew)
        have hlt := hi.rank_lt hcall
        have hle := hi.rank_le hcb
        exact hbody.done k b hk (by omega)
  · show mem'.runs[mem.runs.length]? = some m.object
    rw [hgrows.runs, List.getElem?_append_right (Nat.le_refl _), Nat.sub_self,
      List.getElem?_cons_zero]
  · intro b hb
    rcases List.mem_cons.mp hb with rfl | hb
    · exact .refl
    · obtain ⟨c, hcall, hcb⟩ := hbody.exists_call hi hm hb
      exact .head hcall hcb
  · intro b
    have hasked := hbody.asked b
    rw [← List.singleton_append, List.count_append]
    omega
  · rw [List.flatMap_cons, callsOf_of_methodOf? (hi.object m hm)]
    exact hbody.called

end

end

/-- **Calls come to an end** within as many levels as there are ranks. -/
theorem serves_invoke (hi : i.Wellmade rank root) {r depth : Nat} (hr : r ≤ depth) :
    i.Serves rank r (i.invoke depth) := by
  -- induction on the levels: what a method calls is ranked below its object
  induction depth generalizing r with
  | zero =>
    intro id name mem hlow
    omega
  | succ depth ih =>
    intro id name mem hlow hfind hright hdone
    cases hm : i.methodOf? id with
    | none =>
      refine ⟨none, mem, [], [], by rw [invoke, hfind, hm], .refl mem, hright, hdone, hm, by simp,
        by simp, by simp, .nil⟩
    | some m =>
      obtain ⟨hmem, rfl⟩ := mem_of_methodOf? hm
      cases hfield : m.field?.bind fun f => mem.fields.lookup f with
      -- the object was made before, and its field has it
      | some made =>
        obtain ⟨f, hf, hlookup⟩ := Option.bind_eq_some_iff.mp hfield
        refine ⟨some made, mem, [], [], ?_, .refl mem, hright, hdone,
          hright.field m hmem f made hf hlookup, by simp, by simp, by simp, .nil⟩
        simp only [invoke, hfind, hm, hfield]
      -- the body runs, with calls served by the levels below
      | none =>
        have hbegun : (mem.start m.object).runs[mem.runs.length]? = some m.object := by
          simp [Memory.start]
        obtain ⟨mem', new, given, hrun, hbody, hset⟩ := perform_spec hi hmem (ih (by omega)) hbegun
          (.start hi hmem hlow hfield hright hdone) (.start hlow hdone)
        refine ⟨some mem.runs.length, mem', m.object :: new, given, ?_,
          .of_run hi hmem hbody hset hright hdone⟩
        simp only [invoke, hfind, hm, hfield, hrun]
        rfl

/-! ## A whole run -/

/-- The call that makes the root has come to an end. -/
def Finished (i : Instantiator) (rank : ObjectId → Nat) (root : ObjectId) (made : Option Nat)
    (mem : Memory) : Prop :=
  i.Called rank (rank root + 1) root {} made mem mem.runs mem.handed

theorem exists_finished (hi : i.Wellmade rank root) : ∃ made mem,
    (∀ depth, rank root < depth → i.createRoot depth = some (made, mem)) ∧
      i.Finished rank root made mem := by
  obtain ⟨m, hm, hroot⟩ := hi.rooted
  have hright : i.Right {} := ⟨by simp, by simp, by simp, by simp, by simp⟩
  have hdone : i.DoneBelow rank (rank root + 1) {} := fun k id hk => by simp at hk
  obtain ⟨made, mem, new, given, hrun, hcalled⟩ := serves_invoke hi (Nat.le_refl (rank root + 1))
    root i.root {} (Nat.lt_succ_self _) (hroot.trans hm.symm) hright hdone
  have hruns : mem.runs = new := hcalled.grows.runs
  have hhanded : mem.handed = given := hcalled.grows.handed
  refine ⟨made, mem, fun depth hdepth => i.invoke_mono hdepth _ _ _ hrun, ?_⟩
  rw [Finished, hruns, hhanded]
  exact hcalled

namespace Finished

variable {made : Option Nat} {mem : Memory} (h : i.Finished rank root made mem)

include h

/-- Every run is over. -/
theorem doneAt (hi : i.Wellmade rank root) {k : Nat} {id : ObjectId} (hk : mem.runs[k]? = some id) :
    i.Done mem k id := by
  have hle := hi.rank_le (h.reached id (List.mem_of_getElem? hk))
  exact h.done k id hk (by omega)

/-- An object without a field is called for once at most, if the objects that call for it were made
once. -/
theorem count_calls_le_one (hi : i.Wellmade rank root) {m : Method} (hm : m ∈ i.methods)
    (hcached : m.isCached = false) (honce : ∀ a, i.Calls a m.object → mem.runs.count a ≤ 1) :
    (mem.runs.flatMap i.callsOf).count m.object ≤ 1 := by
  let callers := mem.runs.filter fun a => m.object ∈ i.callsOf a
  have hnodup : callers.Nodup := by
    refine List.nodup_iff_count_le_one.mpr fun a => ?_
    by_cases ha : a ∈ callers
    · have hcalls : m.object ∈ i.callsOf a := by simpa using (List.mem_filter.mp ha).2
      exact (List.filter_sublist.count_le a).trans (honce a hcalls)
    · rw [List.count_eq_zero_of_not_mem ha]
      exact Nat.zero_le _
  have hsubset : callers ⊆ i.methods.map (·.object) := by
    intro a ha
    obtain ⟨m', hm'⟩ := Option.isSome_iff_exists.mp (h.right.method a (List.mem_filter.mp ha).1)
    obtain ⟨hmem, rfl⟩ := mem_of_methodOf? hm'
    exact List.mem_map_of_mem hmem
  have hall : (i.methods.map (·.object)).flatMap i.callsOf =
      i.methods.flatMap fun m' => m'.calls.map (·.object) := by
    rw [List.flatMap_map]
    exact List.flatMap_congr fun m' hm' => callsOf_of_methodOf? (hi.object m' hm')
  calc (mem.runs.flatMap i.callsOf).count m.object
      = (callers.flatMap i.callsOf).count m.object := count_flatMap_eq_filter ..
    _ ≤ ((i.methods.map (·.object)).flatMap i.callsOf).count m.object :=
        count_flatMap_le hnodup hsubset ..
    _ ≤ 1 := hall ▸ hi.single m hm hcached

/-- The root is not called for. -/
theorem root_not_called (hi : i.Wellmade rank root) : root ∉ mem.runs.flatMap i.callsOf := by
  intro hroot
  obtain ⟨a, ha, hcalls⟩ := List.mem_flatMap.mp hroot
  have hle := hi.rank_le (h.reached a ha)
  have hlt := hi.rank_lt hcalls
  omega

/-- **Every object is made once at most.** -/
theorem count_runs_le_one (hi : i.Wellmade rank root) (b : ObjectId) : mem.runs.count b ≤ 1 := by
  -- from higher ranks to lower ones
  induction hrank : rank root - rank b using Nat.strong_induction_on generalizing b with
  | _ gap ih =>
  by_cases hb : b ∈ mem.runs
  · obtain ⟨m, hm⟩ := Option.isSome_iff_exists.mp (h.right.method b hb)
    obtain ⟨hmem, rfl⟩ := mem_of_methodOf? hm
    cases hcached : m.isCached with
    | true => exact h.right.once m hmem hcached
    | false =>
      have hasked := h.asked m.object
      rw [h.called.count_eq] at hasked
      by_cases hroot : m.object = root
      · rw [hroot, List.count_eq_zero_of_not_mem (h.root_not_called hi)] at hasked
        rw [hroot]
        simpa using hasked
      · have hnot : [root].count m.object = 0 :=
          List.count_eq_zero_of_not_mem fun h => hroot (List.mem_singleton.mp h)
        have hcalls := h.count_calls_le_one hi hmem hcached fun a ha => by
          have hlt := hi.rank_lt ha
          by_cases hrun : a ∈ mem.runs
          · have hle := hi.rank_le (h.reached a hrun)
            exact ih (rank root - rank a) (by omega) a rfl
          · rw [List.count_eq_zero_of_not_mem hrun]
            exact Nat.zero_le _
        omega
  · rw [List.count_eq_zero_of_not_mem hb]
    exact Nat.zero_le _

theorem nodup_runs (hi : i.Wellmade rank root) : mem.runs.Nodup :=
  List.nodup_iff_count_le_one.mpr (h.count_runs_le_one hi)

/-- What is handed to a run is the object that was made for it, if there is one. -/
theorem made_eq (hi : i.Wellmade rank root) {id : ObjectId} {given : Option Nat}
    (hgives : i.Gives mem id given) : given = mem.runs.idxOf? id := by
  cases given with
  | none =>
    refine (List.idxOf?_eq_none_iff.mpr fun hid => ?_).symm
    have hsome := h.right.method id hid
    rw [show i.methodOf? id = none from hgives] at hsome
    cases hsome
  | some k =>
    obtain ⟨hlt, rfl⟩ := List.getElem?_eq_some_iff.mp (show mem.runs[k]? = some id from hgives)
    refine (List.idxOf?_eq_some_iff.mpr ⟨hlt, rfl, fun j hj heq => ?_⟩).symm
    have hsame := (h.nodup_runs hi).getElem_inj_iff.mp heq
    omega

/-- **The objects that are made** are those with a method that calls lead to. -/
theorem mem_runs_iff (hi : i.Wellmade rank root) {b : ObjectId} :
    b ∈ mem.runs ↔ (i.methodOf? b).isSome = true ∧ Relation.ReflTransGen i.Calls root b := by
  have hgiven : ∀ {id given}, i.Gives mem id given → (i.methodOf? id).isSome = true →
      id ∈ mem.runs := by
    intro id given hgives hsome
    cases given with
    | none =>
      rw [show i.methodOf? id = none from hgives] at hsome
      cases hsome
    | some k => exact List.mem_of_getElem? hgives
  refine ⟨fun hb => ⟨h.right.method b hb, h.reached b hb⟩, ?_⟩
  rintro ⟨hmethod, hreached⟩
  induction hreached with
  | refl => exact hgiven h.gives hmethod
  | @tail a b _ hab ih =>
    have ha : a ∈ mem.runs := by
      refine ih ?_
      cases hm : i.methodOf? a with
      | some m => rfl
      | none =>
        rw [Calls, callsOf, hm] at hab
        cases hab
    obtain ⟨k, hk⟩ := List.getElem?_of_mem ha
    -- the run for the one before was handed the object
    rw [Calls, ← (h.doneAt hi hk).handed] at hab
    obtain ⟨d, hd, rfl⟩ := List.mem_map.mp hab
    exact hgiven (h.right.delivered d (List.mem_of_mem_filter hd)) hmethod

end Finished

end Instantiator
end Diorama
