/-
  Merging computes the least congruence.

  A relation of positions is a congruence if it relates any two objects that may be merged and have
  the same key, where the key names every referenced object by its class under that very relation.
  The classes that merging finds are the least such relation.

    * `sets_le_of_runRounds`  nothing is joined that a congruence keeps apart.  A key that was put
      on record is compared later, when classes have grown.  That does no harm: seen from a
      congruence, both keys name the same classes (`keyUnder_eq_map`), whenever they were made.
    * `closed_of_runRounds`   a round that leaves the number of classes as it was changed no class,
      so all its keys were made under the final classes, and equal ones were found together.

  Leastness does the rest: it leaves no choice to the order of the turns, and it makes every merge
  forced (`forced_of_isLeast`), since the relation "equal, or of equal keys" is a congruence below.
-/
import Mathlib
import Diorama.Merge.Classes
import Diorama.Proofs.DisjointSets
import Diorama.Proofs.Indexing
import Diorama.Proofs.Renaming
import Diorama.Proofs.WordScalars

namespace Diorama

/-! ## Keys under a relation -/

/-- The same key with other ids. -/
def MergeKey.mapIds (f : ObjectId → ObjectId) (k : MergeKey) : MergeKey :=
  ⟨k.content.mapIds f, k.animators.map (·.mapIds f)⟩

/-- The key under a composition of renamings. -/
theorem Object.mergeKey?_comp {K : Type} [Scalar K] (f g : ObjectId → ObjectId) (o : Object K) :
    o.mergeKey? (g ∘ f) = (o.mergeKey? f).map (·.mapIds g) := by
  unfold Object.mergeKey?
  by_cases h : o.isMergeable = true
  · have hanimators : ∀ l : List Animator,
        l.map (·.mapIds (g ∘ f)) = (l.map (·.mapIds f)).map (·.mapIds g) := by
      intro l
      simp
    simp only [h, if_true, Option.map_some, MergeKey.mapIds, Object.mapIds, Attachments.mapIds,
      hanimators, ← Content.mapScalars_mapIds, Content.mapIds_mapIds]
  · simp [h]

/-- A key tells the kind of its object. -/
theorem Object.kind_of_mergeKey? {K : Type} [Scalar K] {f : ObjectId → ObjectId} {o : Object K}
    {k : MergeKey} (h : o.mergeKey? f = some k) : k.content.kind = o.kind := by
  unfold Object.mergeKey? at h
  split at h
  · obtain rfl := Option.some.inj h
    simp [Object.mapIds, Object.kind]
  · cases h

namespace Merge

/-- The object at a position. -/
def objectAt? {K : Type} (s : Scene K) (ix : Index) (p : Nat) : Option (Object K) :=
  ix.ids[p]?.bind s.get?

/-- The id that stands for the class of an object: that of the least position of the class. -/
noncomputable def classId (ix : Index) (E : Setoid Nat) (id : ObjectId) : ObjectId :=
  match ix.position? id with
  | some p => ix.ids.getD (sInf {q | E p q}) id
  | none => id

/-- The key of the object at a position, if the object may be merged, with every referenced object
named by its class. -/
noncomputable def keyUnder {K : Type} [Scalar K] (s : Scene K) (ix : Index)
    (settings : OptimizerSettings) (E : Setoid Nat) (p : Nat) : Option MergeKey :=
  (objectAt? s ix p).bind fun o =>
    if o.isEligible settings then o.mergeKey? (classId ix E) else none

/-- Positions of equal keys are related. -/
def IsCongruence {K : Type} [Scalar K] (s : Scene K) (ix : Index) (settings : OptimizerSettings)
    (E : Setoid Nat) : Prop :=
  ∀ p q k, keyUnder s ix settings E p = some k → keyUnder s ix settings E q = some k → E p q

section

variable {K : Type} {s : Scene K} {ix : Index} {settings : OptimizerSettings}

/-- Only positions of the index hold objects. -/
theorem lt_size_of_objectAt? {p : Nat} {o : Object K} (h : objectAt? s ix p = some o) :
    p < ix.size := by
  obtain ⟨id, hid, -⟩ := Option.bind_eq_some_iff.mp h
  obtain ⟨hlt, -⟩ := List.getElem?_eq_some_iff.mp hid
  rwa [Index.size_eq_length_ids]

variable [Scalar K]

/-- A key belongs to an object that may be merged. -/
theorem exists_object_of_keyUnder {E : Setoid Nat} {p : Nat} {k : MergeKey}
    (h : keyUnder s ix settings E p = some k) :
    ∃ o, objectAt? s ix p = some o ∧ o.isEligible settings = true ∧
      o.mergeKey? (classId ix E) = some k := by
  obtain ⟨o, ho, hk⟩ := Option.bind_eq_some_iff.mp h
  split at hk
  · exact ⟨o, ho, by assumption, hk⟩
  · nomatch hk

/-- The least related position is not greater. -/
theorem least_related_le (E : Setoid Nat) (p : Nat) : sInf {q | E p q} ≤ p :=
  Nat.sInf_le (E.refl p)

/-- The least related position is related. -/
theorem related_least (E : Setoid Nat) (p : Nat) : E p (sInf {q | E p q}) :=
  Nat.sInf_mem (s := {q | E p q}) ⟨p, E.refl p⟩

/-- The class of an object is named by the object in its least position. -/
theorem classId_of_position? (E : Setoid Nat) {id : ObjectId} {p : Nat}
    (h : ix.position? id = some p) : ix.ids[sInf {q | E p q}]? = some (classId ix E id) := by
  obtain ⟨hlt, -⟩ := List.getElem?_eq_some_iff.mp (Index.position?_eq_some h)
  have hle := least_related_le E p
  have hget := List.getElem?_eq_getElem (show sInf {q | E p q} < ix.ids.length by omega)
  simp only [classId, h, List.getD_eq_getElem?_getD, hget, Option.getD_some]

/-- A coarser relation names the class of a class as it names the class of an object. -/
theorem classId_classId (hnodup : ix.ids.Nodup) {E F : Setoid Nat} (hEF : E ≤ F) (id : ObjectId) :
    classId ix F (classId ix E id) = classId ix F id := by
  cases hpos : ix.position? id with
  | none => simp [classId, hpos]
  | some p =>
    have hpos' : ix.position? (classId ix E id) = some (sInf {q | E p q}) :=
      Index.position?_of_getElem? hnodup (classId_of_position? E hpos)
    have hsame : {q | F (sInf {q | E p q}) q} = {q | F p q} := by
      ext q
      have hrel : F p (sInf {q | E p q}) := hEF (related_least E p)
      exact ⟨fun h => F.trans hrel h, fun h => F.trans (F.symm hrel) h⟩
    have h := classId_of_position? F hpos'
    rw [hsame, classId_of_position? F hpos] at h
    exact (Option.some.inj h).symm

/-- **Keys under a coarser relation** are those under a finer one with the classes renamed. -/
theorem keyUnder_eq_map (hnodup : ix.ids.Nodup) {E F : Setoid Nat} (hEF : E ≤ F) (p : Nat) :
    keyUnder s ix settings F p =
      (keyUnder s ix settings E p).map (·.mapIds (classId ix F)) := by
  have hcomp : classId ix F ∘ classId ix E = classId ix F :=
    funext (classId_classId hnodup hEF)
  unfold keyUnder
  cases objectAt? s ix p with
  | none => rfl
  | some o =>
    by_cases h : o.isEligible settings = true
    · simp only [Option.bind_some, h, if_true]
      rw [← Object.mergeKey?_comp, hcomp]
    · simp [h]

/-! ## Sets as a relation -/

/-- Positions in one set. -/
def inOneSet (d : DisjointSets) : Setoid Nat := Setoid.ker d.root

theorem inOneSet_iff {d : DisjointSets} {x y : Nat} : inOneSet d x y ↔ d.root x = d.root y :=
  Iff.rfl

/-- The root is the least position of its set. -/
theorem least_inOneSet (d : DisjointSets) (p : Nat) : sInf {q | inOneSet d p q} = d.root p := by
  refine Nat.le_antisymm (Nat.sInf_le ?_) ?_
  · exact (d.root_root p).symm
  · have h := related_least (inOneSet d) p
    rw [inOneSet_iff] at h
    rw [h]
    exact d.root_le _

/-- Representatives of the sets are the names of the classes that the sets stand for. -/
theorem canonical_eq_classId (ix : Index) (d : DisjointSets) :
    canonical ix d = classId ix (inOneSet d) := by
  funext id
  unfold canonical classId
  cases ix.position? id with
  | none => rfl
  | some p => simp only [least_inOneSet]

/-- A pass looks at the object at a position. -/
theorem keyAt?_eq (pass : Pass) (d : DisjointSets) (p : Nat) :
    keyAt? s ix settings pass d p = (objectAt? s ix p).bind fun o =>
      if pass.kinds.contains o.kind && o.isEligible settings then
        (o.mergeKey? (canonical ix d)).map fun k => (o.kind, k)
      else none := by
  unfold keyAt? objectAt?
  cases ix.ids[p]? with
  | none => rfl
  | some id =>
    show (s.get? id).bind _ = (s.get? id).bind _
    congr 1
    funext o
    split
    · cases o.mergeKey? (canonical ix d) <;> rfl
    · rfl

/-- What a pass takes at a position: the key of an object of one of its kinds. -/
theorem keyAt?_eq_some_iff {pass : Pass} {d : DisjointSets} {p : Nat} {kind : Kind}
    {k : MergeKey} :
    keyAt? s ix settings pass d p = some (kind, k) ↔
      kind ∈ pass.kinds ∧ k.content.kind = kind ∧
        keyUnder s ix settings (inOneSet d) p = some k := by
  rw [keyAt?_eq]
  unfold keyUnder
  cases objectAt? s ix p with
  | none => simp
  | some o =>
    simp only [Option.bind_some, canonical_eq_classId]
    -- a pass takes up a kind and what may be merged; the key is the same
    constructor
    · intro h
      split at h
      · rename_i htaken
        obtain ⟨hkind, heligible⟩ := Bool.and_eq_true_iff.mp htaken
        obtain ⟨k', hk', heq⟩ := Option.map_eq_some_iff.mp h
        obtain ⟨rfl, rfl⟩ := Prod.mk.inj heq
        rw [if_pos heligible]
        exact ⟨List.contains_iff_mem.mp hkind, Object.kind_of_mergeKey? hk', hk'⟩
      · nomatch h
    · rintro ⟨hmem, hkind, h⟩
      split at h
      · rename_i heligible
        have hok : o.kind = kind := (Object.kind_of_mergeKey? h).symm.trans hkind
        have htaken : (pass.kinds.contains o.kind && o.isEligible settings) = true := by
          rw [hok, heligible, List.contains_iff_mem.mpr hmem]
          rfl
        rw [if_pos htaken, h, hok]
        rfl
      · nomatch h

/-- Only positions of the index have keys. -/
theorem lt_size_of_keyUnder {E : Setoid Nat} {p : Nat} {k : MergeKey}
    (h : keyUnder s ix settings E p = some k) : p < ix.size := by
  obtain ⟨o, ho, -⟩ := exists_object_of_keyUnder h
  exact lt_size_of_objectAt? ho

/-! ## Nothing is joined that a congruence keeps apart -/

/-- Joining what is related joins nothing that is not. -/
theorem inOneSet_union_le {E : Setoid Nat} {d : DisjointSets} {a b : Nat} (ha : a < d.size)
    (hb : b < d.size) (hd : inOneSet d ≤ E) (hab : E a b) : inOneSet (d.union a b).2 ≤ E := by
  have hroot : ∀ x, E x (d.root x) := fun x => hd (d.root_root x).symm
  -- a position is related to its new root, whichever of the two old roots that is
  have hnew : ∀ x, E x ((d.union a b).2.root x) := by
    intro x
    rw [d.root_union ha hb]
    have hjoined : E (d.root a) (d.root b) :=
      E.trans (E.symm (hroot a)) (E.trans hab (hroot b))
    split
    · rename_i hx
      rcases Nat.le_total (d.root a) (d.root b) with hle | hle
      · rw [Nat.min_eq_left hle]
        rcases hx with hx | hx
        · exact hx ▸ hroot x
        · exact E.trans (hx ▸ hroot x) (E.symm hjoined)
      · rw [Nat.min_eq_right hle]
        rcases hx with hx | hx
        · exact E.trans (hx ▸ hroot x) hjoined
        · exact hx ▸ hroot x
    · exact hroot x
  intro x y hxy
  rw [inOneSet_iff] at hxy
  exact E.trans (hnew x) (E.symm (hxy ▸ hnew y))

theorem mem_of_lookup {first : List (MergeKey × Nat)} {k : MergeKey} {q : Nat}
    (h : first.lookup k = some q) : (k, q) ∈ first := by
  obtain ⟨l, r, rfl, -⟩ := List.lookup_eq_some_iff.mp h
  simp

/-- Joining changes no size. -/
theorem size_runPositions (pass : Pass) (order : List Nat) (first : List (MergeKey × Nat))
    (state : State) :
    (runPositions s ix settings pass order first state).sets.size = state.sets.size := by
  fun_induction runPositions s ix settings pass order first state with
  | case1 => rfl
  | case2 p rest first state hkey ih => exact ih
  | case3 p rest first state kind key hkey hnone ih => exact ih
  | case4 p rest first state kind key hkey q hsome joined sets hunion merges ih =>
    rw [ih, show sets = (state.sets.union q p).2 by rw [hunion], DisjointSets.size_union]

theorem size_runRound (turns : List Turn) (state : State) :
    (runRound s ix settings turns state).sets.size = state.sets.size := by
  induction turns generalizing state with
  | nil => rfl
  | cons turn turns ih =>
    exact (ih (runTurn s ix settings state turn)).trans (size_runPositions _ _ _ _)

section Below

variable {E : Setoid Nat} (hnodup : ix.ids.Nodup) (hE : IsCongruence s ix settings E)

include hnodup hE

/-- Going through positions stays below a congruence.  What is on record need not be up to date: it
is enough that the congruence sees the recorded key as the key of the recorded position. -/
theorem sets_le_of_runPositions (pass : Pass) (order : List Nat) (first : List (MergeKey × Nat))
    (state : State) (hsize : state.sets.size = ix.size) (hsets : inOneSet state.sets ≤ E)
    (hfirst : ∀ k q, (k, q) ∈ first →
      keyUnder s ix settings E q = some (k.mapIds (classId ix E))) :
    inOneSet (runPositions s ix settings pass order first state).sets ≤ E := by
  -- a key under smaller sets, renamed by the classes of the congruence, is the key under these
  have hkeyE : ∀ d : DisjointSets, inOneSet d ≤ E → ∀ p kind key,
      keyAt? s ix settings pass d p = some (kind, key) →
        keyUnder s ix settings E p = some (key.mapIds (classId ix E)) := by
    intro d hd p kind key hkey
    rw [keyUnder_eq_map hnodup hd, (keyAt?_eq_some_iff.mp hkey).2.2]
    rfl
  -- the invariant: first keys stay keys under the congruence, though sets grow during the turn
  fun_induction runPositions s ix settings pass order first state with
  | case1 => exact hsets
  | case2 p rest first state hkey ih => exact ih hsize hsets hfirst
  | case3 p rest first state kind key hkey hnone ih =>
    refine ih hsize hsets fun k q hmem => ?_
    rcases List.mem_cons.mp hmem with heq | hmem
    · obtain ⟨rfl, rfl⟩ := Prod.mk.inj heq
      exact hkeyE _ hsets _ _ _ hkey
    · exact hfirst k q hmem
  | case4 p rest first state kind key hkey q hsome joined sets hunion merges ih =>
    have hpE := hkeyE _ hsets _ _ _ hkey
    have hqE := hfirst key q (mem_of_lookup hsome)
    obtain rfl : sets = (state.sets.union q p).2 := by rw [hunion]
    refine ih (by simpa using hsize) (inOneSet_union_le ?_ ?_ hsets (hE q p _ hqE hpE)) hfirst
    · rw [hsize]
      exact lt_size_of_keyUnder hqE
    · rw [hsize]
      exact lt_size_of_keyUnder hpE

/-- A round joins nothing that a congruence keeps apart. -/
theorem sets_le_of_runRound (turns : List Turn) (state : State)
    (hsize : state.sets.size = ix.size) (hsets : inOneSet state.sets ≤ E) :
    inOneSet (runRound s ix settings turns state).sets ≤ E := by
  induction turns generalizing state with
  | nil => exact hsets
  | cons turn turns ih =>
    refine ih (runTurn s ix settings state turn) ?_ ?_
    · exact (size_runPositions _ _ _ _).trans hsize
    · exact sets_le_of_runPositions hnodup hE turn.pass turn.order [] state hsize hsets (by simp)

/-- **Nothing is joined that a congruence keeps apart**, however many rounds there are. -/
theorem sets_le_of_runRounds (turns : List Turn) (done : Nat) (state : State)
    (hsize : state.sets.size = ix.size) (hsets : inOneSet state.sets ≤ E) :
    inOneSet (runRounds s ix settings turns done state).1.sets ≤ E := by
  fun_induction runRounds s ix settings turns done state with
  | case1 done state next hlt ih =>
    exact ih ((size_runRound _ _).trans hsize)
      (sets_le_of_runRound hnodup hE turns state hsize hsets)
  | case2 done state next hge => exact sets_le_of_runRound hnodup hE turns state hsize hsets

end Below

/-! ## A round that joins nothing leaves nothing to join -/

/-- Keys depend on the roots only. -/
theorem keyAt?_congr {d d' : DisjointSets} (h : ∀ x, d'.root x = d.root x) (pass : Pass) (p : Nat) :
    keyAt? s ix settings pass d' p = keyAt? s ix settings pass d p := by
  have hcanonical : canonical ix d' = canonical ix d := by
    funext id
    unfold canonical
    simp only [h]
  unfold keyAt?
  rw [hcanonical]

theorem size_le_of_keyAt? {pass : Pass} {d : DisjointSets} {p : Nat} {kind : Kind} {k : MergeKey}
    (h : keyAt? s ix settings pass d p = some (kind, k)) : p < ix.size :=
  lt_size_of_keyUnder (keyAt?_eq_some_iff.mp h).2.2

/-- Positions of a turn with equal keys are in one set. -/
def ClosedOn (s : Scene K) (ix : Index) (settings : OptimizerSettings) (d : DisjointSets)
    (turn : Turn) : Prop :=
  ∀ p ∈ turn.order, ∀ q ∈ turn.order, ∀ entry,
    keyAt? s ix settings turn.pass d p = some entry →
    keyAt? s ix settings turn.pass d q = some entry → d.root p = d.root q

/-- Whether a turn has anything left to join depends on the roots only. -/
theorem ClosedOn.congr {d d' : DisjointSets} {turn : Turn} (h : ∀ x, d'.root x = d.root x)
    (hclosed : ClosedOn s ix settings d turn) : ClosedOn s ix settings d' turn := by
  intro p hp q hq entry hkp hkq
  rw [keyAt?_congr h] at hkp hkq
  rw [h, h]
  exact hclosed p hp q hq entry hkp hkq

variable (s ix settings)

/-- Going through positions never adds a set.  If it removes none, then it changes no root, and
every key has an anchor: all positions with that key are in the set of the anchor. -/
theorem anchored_of_runPositions (pass : Pass) (order : List Nat)
    (first : List (MergeKey × Nat)) (state : State) (hsize : state.sets.size = ix.size)
    (hfirst : ∀ k q, (k, q) ∈ first → q < ix.size) :
    (runPositions s ix settings pass order first state).sets.count ≤ state.sets.count ∧
      ((runPositions s ix settings pass order first state).sets.count = state.sets.count →
        (∀ x, (runPositions s ix settings pass order first state).sets.root x =
          state.sets.root x) ∧
        ∃ anchor : MergeKey → Nat, (∀ k q, first.lookup k = some q → anchor k = q) ∧
          ∀ p ∈ order, ∀ kind k, keyAt? s ix settings pass state.sets p = some (kind, k) →
            state.sets.root p = state.sets.root (anchor k)) := by
  fun_induction runPositions s ix settings pass order first state with
  | case1 first state =>
    refine ⟨Nat.le_refl _, fun _ => ⟨fun _ => rfl, fun k => (first.lookup k).getD 0, ?_, by simp⟩⟩
    intro k q hk
    simp [hk]
  | case2 p rest first state hkey ih =>
    obtain ⟨hle, hquiet⟩ := ih hsize hfirst
    refine ⟨hle, fun heq => ?_⟩
    obtain ⟨hroot, anchor, hlookup, hanchor⟩ := hquiet heq
    refine ⟨hroot, anchor, hlookup, fun x hx kind k hk => ?_⟩
    rcases List.mem_cons.mp hx with rfl | hx
    · rw [hkey] at hk
      nomatch hk
    · exact hanchor x hx kind k hk
  | case3 p rest first state kind key hkey hnone ih =>
    -- the position becomes the anchor of its key
    have hfirst' : ∀ k q, (k, q) ∈ (key, p) :: first → q < ix.size := by
      intro k q hmem
      rcases List.mem_cons.mp hmem with heq | hmem
      · obtain ⟨rfl, rfl⟩ := Prod.mk.inj heq
        exact size_le_of_keyAt? hkey
      · exact hfirst k q hmem
    obtain ⟨hle, hquiet⟩ := ih hsize hfirst'
    refine ⟨hle, fun heq => ?_⟩
    obtain ⟨hroot, anchor, hlookup, hanchor⟩ := hquiet heq
    have hself : anchor key = p := hlookup key p (by simp)
    refine ⟨hroot, anchor, fun k q hk => ?_, fun x hx kind' k hk => ?_⟩
    · have hne : ¬ k = key := by
        rintro rfl
        rw [hnone] at hk
        nomatch hk
      refine hlookup k q ?_
      rw [List.lookup_cons, beq_false_of_ne hne]
      exact hk
    · rcases List.mem_cons.mp hx with rfl | hx
      · rw [hkey] at hk
        obtain ⟨-, rfl⟩ := Prod.mk.inj (Option.some.inj hk)
        rw [hself]
      · exact hanchor x hx kind' k hk
  | case4 p rest first state kind key hkey q hsome joined sets hunion merges ih =>
    obtain rfl : sets = (state.sets.union q p).2 := by rw [hunion]
    have hq : q < state.sets.size := hsize ▸ hfirst key q (mem_of_lookup hsome)
    have hp : p < state.sets.size := hsize ▸ size_le_of_keyAt? hkey
    obtain ⟨hle, hquiet⟩ := ih (by simpa using hsize) hfirst
    have hle' := state.sets.count_union_le hq hp
    refine ⟨Nat.le_trans hle hle', fun heq => ?_⟩
    -- the number of sets stayed, so the two were in one set before
    have hsame : state.sets.root q = state.sets.root p := by
      by_contra hne
      have hlt := state.sets.count_union_lt hq hp hne
      simp only at hle heq
      omega
    have hroots := state.sets.root_union_of_eq hq hp hsame
    obtain ⟨hroot, anchor, hlookup, hanchor⟩ := hquiet (by simp only at hle heq ⊢; omega)
    refine ⟨fun x => (hroot x).trans (hroots x), anchor, hlookup, fun x hx kind' k hk => ?_⟩
    rcases List.mem_cons.mp hx with rfl | hx
    · rw [hkey] at hk
      obtain ⟨-, rfl⟩ := Prod.mk.inj (Option.some.inj hk)
      rw [hlookup key q hsome, hsame]
    · have := hanchor x hx kind' k (by rw [keyAt?_congr hroots]; exact hk)
      simpa only [hroots] using this

/-- A round that leaves the number of classes as it was joins nothing, so its keys were made under
the final classes. -/
theorem closed_of_runRound (turns : List Turn) (state : State)
    (hsize : state.sets.size = ix.size) :
    (runRound s ix settings turns state).sets.count ≤ state.sets.count ∧
      ((runRound s ix settings turns state).sets.count = state.sets.count →
        (∀ x, (runRound s ix settings turns state).sets.root x = state.sets.root x) ∧
        ∀ turn ∈ turns, ClosedOn s ix settings state.sets turn) := by
  induction turns generalizing state with
  | nil => exact ⟨Nat.le_refl _, fun _ => ⟨fun _ => rfl, by simp⟩⟩
  | cons turn turns ih =>
    have hturn :=
      anchored_of_runPositions s ix settings turn.pass turn.order [] state hsize (by simp)
    have hsize' : (runTurn s ix settings state turn).sets.size = ix.size :=
      (size_runPositions _ _ _ _).trans hsize
    obtain ⟨hle, hquiet⟩ := ih (runTurn s ix settings state turn) hsize'
    obtain ⟨hle', hquiet'⟩ := hturn
    change (runTurn s ix settings state turn).sets.count ≤ _ at hle'
    refine ⟨Nat.le_trans hle hle', fun heq => ?_⟩
    -- counts do not go up, so each turn by itself has left them as they were
    have heq₁ : (runTurn s ix settings state turn).sets.count = state.sets.count := by
      change (runRound s ix settings turns (runTurn s ix settings state turn)).sets.count = _ at heq
      omega
    obtain ⟨hroot', anchor, -, hanchor⟩ := hquiet' heq₁
    obtain ⟨hroot, hclosed⟩ := hquiet (heq.trans heq₁.symm)
    refine ⟨fun x => (hroot x).trans (hroot' x), fun other hother => ?_⟩
    rcases List.mem_cons.mp hother with rfl | hother
    · rintro p hp q hq ⟨kind, k⟩ hkp hkq
      rw [hanchor p hp kind k hkp, hanchor q hq kind k hkq]
    · exact (hclosed other hother).congr fun x => (hroot' x).symm

/-- **When the rounds end, no turn has anything left to join.** -/
theorem closed_of_runRounds (turns : List Turn) (done : Nat) (state : State)
    (hsize : state.sets.size = ix.size) :
    (runRounds s ix settings turns done state).1.sets.size = ix.size ∧
      ∀ turn ∈ turns,
        ClosedOn s ix settings (runRounds s ix settings turns done state).1.sets turn := by
  fun_induction runRounds s ix settings turns done state with
  | case1 done state next hlt ih => exact ih ((size_runRound _ _).trans hsize)
  | case2 done state next hge =>
    obtain ⟨hle, hquiet⟩ := closed_of_runRound s ix settings turns state hsize
    obtain ⟨hroot, hclosed⟩ := hquiet (Nat.le_antisymm hle (Nat.not_lt.mp hge))
    exact ⟨(size_runRound _ _).trans hsize, fun turn hturn => (hclosed turn hturn).congr hroot⟩

/-! ## Leastness -/

/-- Every category has a turn that goes through all positions. -/
def Complete (ix : Index) (turns : List Turn) : Prop :=
  ∀ pass ∈ passes, ∃ turn ∈ turns, turn.pass = pass ∧ ∀ p, p < ix.size → p ∈ turn.order

variable {s ix settings}

/-- Every object that has a key belongs to a category. -/
theorem exists_pass_of_mergeKey? {f : ObjectId → ObjectId} {o : Object K} {k : MergeKey}
    (h : o.mergeKey? f = some k) : ∃ pass ∈ passes, o.kind ∈ pass.kinds := by
  have hmergeable : o.isMergeable = true := by
    unfold Object.mergeKey? at h
    split at h
    · assumption
    · nomatch h
  unfold Object.isMergeable at hmergeable
  cases hkind : o.kind <;> simp [hkind] at hmergeable <;> simp [passes]

/-- Sets that no turn can join any further are a congruence. -/
theorem isCongruence_of_closed {turns : List Turn} {d : DisjointSets} (hturns : Complete ix turns)
    (hclosed : ∀ turn ∈ turns, ClosedOn s ix settings d turn) :
    IsCongruence s ix settings (inOneSet d) := by
  intro p q k hp hq
  obtain ⟨o, -, -, hkey⟩ := exists_object_of_keyUnder hp
  obtain ⟨pass, hpass, hkind⟩ := exists_pass_of_mergeKey? hkey
  obtain ⟨turn, hturn, rfl, hall⟩ := hturns pass hpass
  have hk := Object.kind_of_mergeKey? hkey
  exact hclosed turn hturn p (hall p (lt_size_of_keyUnder hp)) q (hall q (lt_size_of_keyUnder hq))
    (o.kind, k) (keyAt?_eq_some_iff.mpr ⟨hkind, hk, hp⟩) (keyAt?_eq_some_iff.mpr ⟨hkind, hk, hq⟩)

/-- **Every merge is forced.**  Under the least congruence related positions are equal or have equal
keys: that relation is itself a congruence, and no coarser. -/
theorem forced_of_isLeast (hnodup : ix.ids.Nodup) {E : Setoid Nat}
    (hE : IsLeast {E | IsCongruence s ix settings E} E) {p q : Nat} (hpq : E p q) :
    p = q ∨ ∃ k, keyUnder s ix settings E p = some k ∧ keyUnder s ix settings E q = some k := by
  -- the relation forced by keys is itself a congruence, and so above the least one
  let F : Setoid Nat :=
    { r := fun p q => p = q ∨
        ∃ k, keyUnder s ix settings E p = some k ∧ keyUnder s ix settings E q = some k
      iseqv :=
        { refl := fun _ => Or.inl rfl
          symm := by
            rintro x y (rfl | ⟨k, hx, hy⟩)
            · exact Or.inl rfl
            · exact Or.inr ⟨k, hy, hx⟩
          trans := by
            rintro x y z (rfl | ⟨k, hx, hy⟩) (rfl | ⟨k', hy', hz⟩)
            · exact Or.inl rfl
            · exact Or.inr ⟨k', hy', hz⟩
            · exact Or.inr ⟨k, hx, hy⟩
            · obtain rfl : k = k' := Option.some.inj (hy.symm.trans hy')
              exact Or.inr ⟨k, hx, hz⟩ } }
  have hFE : F ≤ E := by
    rintro x y (rfl | ⟨k, hx, hy⟩)
    · exact E.refl x
    · exact hE.1 x y k hx hy
  have hF : IsCongruence s ix settings F := by
    intro x y k hx hy
    refine Or.inr ⟨k.mapIds (classId ix E), ?_, ?_⟩
    · rw [keyUnder_eq_map hnodup hFE, hx]
      rfl
    · rw [keyUnder_eq_map hnodup hFE, hy]
      rfl
  exact hE.2 hF hpq

end
end Merge

namespace Classes

variable {K : Type} [Scalar K] {s : Scene K} {ix : Index} {settings : OptimizerSettings}

open Merge

/-- The sets that merging in rounds of some turns ends with. -/
def finalSets (s : Scene K) (ix : Index) (settings : OptimizerSettings) (turns : List Turn) :
    DisjointSets :=
  (runRounds s ix settings turns 0 ⟨.singletons ix.size, []⟩).1.sets

theorem size_finalSets (turns : List Turn) : (finalSets s ix settings turns).size = ix.size :=
  (closed_of_runRounds s ix settings turns 0 _ (by simp)).1

/-- The representatives are the roots in the final sets. -/
theorem representatives_inTurns (turns : List Turn) :
    (inTurns s ix settings turns).representatives =
      (List.range ix.size).map (finalSets s ix settings turns).root := by
  have h := (finalSets s ix settings turns).flatten_fst
  rw [size_finalSets] at h
  exact h

/-- The representative of a position is the root of its set. -/
theorem representative_inTurns (turns : List Turn) (p : Nat) :
    (inTurns s ix settings turns).representative p = (finalSets s ix settings turns).root p := by
  rw [representative, representatives_inTurns, List.getD_eq_getElem?_getD]
  rcases Nat.lt_or_ge p ix.size with hlt | hge
  · simp [hlt]
  · have hout : (finalSets s ix settings turns).size ≤ p := by rwa [size_finalSets]
    simp [hge, (finalSets s ix settings turns).root_of_size_le hout]

/-- Positions with one representative. -/
def relation (c : Classes) : Setoid Nat := Setoid.ker c.representative

/-- Objects are in one class exactly if they are in one of the final sets. -/
theorem relation_inTurns (turns : List Turn) :
    (inTurns s ix settings turns).relation = inOneSet (finalSets s ix settings turns) := by
  ext p q
  show (inTurns s ix settings turns).representative p = _ ↔ _
  rw [representative_inTurns, representative_inTurns]
  exact Iff.rfl

/-- **Merging in any complete turns ends with the least congruence.** -/
theorem isLeast_relation (hnodup : ix.ids.Nodup) {turns : List Turn}
    (hturns : Complete ix turns) :
    IsLeast {E | IsCongruence s ix settings E} (inTurns s ix settings turns).relation := by
  rw [relation_inTurns]
  have hclosed := closed_of_runRounds s ix settings turns 0 ⟨.singletons ix.size, []⟩ (by simp)
  refine ⟨isCongruence_of_closed hturns hclosed.2, fun E hE => ?_⟩
  refine sets_le_of_runRounds hnodup hE turns 0 _ (by simp) ?_
  intro x y hxy
  have : x = y := by simpa [inOneSet_iff] using hxy
  exact this ▸ E.refl x

/-- The representative is the least position of the class. -/
theorem isLeast_representative (turns : List Turn) (p : Nat) :
    IsLeast {q | (inTurns s ix settings turns).relation p q}
      ((inTurns s ix settings turns).representative p) := by
  rw [relation_inTurns, representative_inTurns]
  refine ⟨((finalSets s ix settings turns).root_root p).symm, fun q hq => ?_⟩
  have : (finalSets s ix settings turns).root p = (finalSets s ix settings turns).root q := hq
  rw [this]
  exact (finalSets s ix settings turns).root_le q

omit [Scalar K] in
/-- Every position has its turn. -/
theorem complete_schedule (hix : Index.Sound s ix) : Complete ix (schedule ix) := by
  intro pass hpass
  refine ⟨⟨pass, pass.order ix⟩, List.mem_map_of_mem hpass, rfl, fun p hp => ?_⟩
  have hmem : p ∈ List.range ix.size := List.mem_range.mpr hp
  unfold Pass.order
  split
  · exact hix.postOrder_perm.symm.subset hmem
  · exact hmem

/-- Turns that take every category once, in any order, through all positions, in any order. -/
theorem complete_of_perm {turns : List Turn} (hpasses : (turns.map (·.pass)).Perm passes)
    (horders : ∀ turn ∈ turns, turn.order.Perm (List.range ix.size)) : Complete ix turns := by
  intro pass hpass
  obtain ⟨turn, hturn, rfl⟩ := List.mem_map.mp (hpasses.symm.subset hpass)
  exact ⟨turn, hturn, rfl, fun p hp => (horders turn hturn).symm.subset (List.mem_range.mpr hp)⟩

/-- Complete turns all end with the same representatives. -/
theorem representatives_unique (hnodup : ix.ids.Nodup) {turns turns' : List Turn}
    (hturns : Complete ix turns) (hturns' : Complete ix turns') :
    (inTurns s ix settings turns).representatives =
      (inTurns s ix settings turns').representatives := by
  have hrel : (inTurns s ix settings turns).relation = (inTurns s ix settings turns').relation :=
    (isLeast_relation hnodup hturns).unique (isLeast_relation hnodup hturns')
  have hrep : ∀ p, (inTurns s ix settings turns).representative p =
      (inTurns s ix settings turns').representative p := by
    intro p
    have h : IsLeast {q | (inTurns s ix settings turns).relation p q}
        ((inTurns s ix settings turns).representative p) := isLeast_representative turns p
    rw [hrel] at h
    exact h.unique (isLeast_representative turns' p)
  rw [representatives_inTurns, representatives_inTurns]
  refine List.map_congr_left fun p _ => ?_
  rw [← representative_inTurns, ← representative_inTurns, hrep]

/-! ## The classes of an indexed scene -/

/-- **Merging computes the least congruence.**  For every indexed scene and all settings: the
relation "has the same representative" is the least equivalence that relates objects with equal
keys, so it is closed and below every other; positions that it relates hold objects of one kind with
equal keys under it, or are equal; the order of the categories and of the positions in each makes no
difference; and a position is represented by the least position of its class. -/
theorem ofIndex_least_congruence (settings : OptimizerSettings) (hix : Index.build s = .ok ix) :
    IsLeast {E | IsCongruence s ix settings E} (ofIndex s ix settings).relation ∧
    (∀ p q, (ofIndex s ix settings).relation p q → p = q ∨
      (objectAt? s ix p).map Object.kind = (objectAt? s ix q).map Object.kind ∧
      ∃ k, keyUnder s ix settings (ofIndex s ix settings).relation p = some k ∧
        keyUnder s ix settings (ofIndex s ix settings).relation q = some k) ∧
    (∀ turns : List Turn, (turns.map (·.pass)).Perm passes →
      (∀ turn ∈ turns, turn.order.Perm (List.range ix.size)) →
      (inTurns s ix settings turns).representatives = (ofIndex s ix settings).representatives) ∧
    ∀ p, IsLeast {q | (ofIndex s ix settings).relation p q}
      ((ofIndex s ix settings).representative p) := by
  have hsound := Index.sound_of_build hix
  have hschedule := complete_schedule hsound
  have hleast : IsLeast {E | IsCongruence s ix settings E} (ofIndex s ix settings).relation :=
    isLeast_relation hsound.nodup hschedule
  refine ⟨hleast, fun p q hpq => ?_, fun turns hpasses horders => ?_, isLeast_representative _⟩
  · rcases forced_of_isLeast hsound.nodup hleast hpq with rfl | ⟨k, hp, hq⟩
    · exact Or.inl rfl
    · obtain ⟨o, ho, -, hko⟩ := exists_object_of_keyUnder hp
      obtain ⟨o', ho', -, hko'⟩ := exists_object_of_keyUnder hq
      refine Or.inr ⟨?_, k, hp, hq⟩
      rw [ho, ho', Option.map_some, Option.map_some, ← Object.kind_of_mergeKey? hko,
        ← Object.kind_of_mergeKey? hko']
  · exact representatives_unique hsound.nodup (complete_of_perm hpasses horders) hschedule

/-- The two brushes of the specimen are one class of the least congruence. -/
theorem specimen_least_congruence :
    Index.build specimen = .ok specimenIndex ∧
    (ofIndex specimen specimenIndex {}).representatives = [0, 1, 2, 3, 4, 4, 6] ∧
    IsLeast {E | IsCongruence specimen specimenIndex {} E}
      (ofIndex specimen specimenIndex {}).relation :=
  ⟨specimen_build, by cbv, (ofIndex_least_congruence {} specimen_build).1⟩

end Classes
end Diorama
