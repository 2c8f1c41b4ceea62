/-
  Merging never closes a circle.

  A quotient of a graph without circles may well have some.  This one has none, because objects of
  one class are equally heavy (`Balanced`): a step from a class to what one of its members refers
  to, whichever member that is, leads to something lighter (`Leads.lighter`), so no chain of steps
  comes back to the class that it started from.

  The walk that orders the copies marks a class when it is entered, and could not run into a circle
  anyway.  `Copies` is the plain recursion, which puts a class on record only when all that it
  refers to has been copied and would enter a class again that it has not finished.  It never does.
  What is in progress is heavier than what is copied for its sake, so the recursion ends, and it
  ends with the order of the walk (`copies_copyOrder`).
-/
import Diorama.Proofs.Projection

namespace Diorama.Merge

variable {K : Type} {s : Scene K} {ix : Index} {c : Classes}

/-! ## Steps between classes -/

/-- A member of the class of the first position refers to the object at the second one. -/
def Leads (s : Scene K) (ix : Index) (c : Classes) (p q : Nat) : Prop :=
  ∃ member a b, c.representative member = c.representative p ∧ ix.ids[member]? = some a ∧
    ix.ids[q]? = some b ∧ s.Refers a b

/-- The objects of a class are equally heavy, and its representative is one of them. -/
structure Balanced (s : Scene K) (ix : Index) (c : Classes) : Prop where
  weight : ∀ p q, c.representative p = c.representative q → weightAt s ix p = weightAt s ix q
  represents : ∀ p, c.representative (c.representative p) = c.representative p
  le : ∀ p, c.representative p ≤ p

theorem balanced_ofIndex [Scalar K] (settings : OptimizerSettings) (hix : ix.Sound s) :
    Balanced s ix (Classes.ofIndex s ix settings) where
  weight _ _ :=
    related_weight hix (Classes.isLeast_relation hix.nodup (Classes.complete_schedule hix))
  represents p := (Classes.isLeast_representative _ p).1.symm
  le p := (Classes.isLeast_representative _ p).2 ((Classes.ofIndex s ix settings).relation.refl p)

theorem weightAt_of_getElem? {p : Nat} {id : ObjectId} (h : ix.ids[p]? = some id) :
    weightAt s ix p = some (ix.weight s id) := by
  rw [weightAt, h, Option.map_some]

theorem Balanced.exists_representative (hc : Balanced s ix c) {p : Nat} {id : ObjectId}
    (h : ix.ids[p]? = some id) : ∃ rid, ix.ids[c.representative p]? = some rid := by
  obtain ⟨hlt, -⟩ := List.getElem?_eq_some_iff.mp h
  have hle := hc.le p
  exact ⟨_, List.getElem?_eq_getElem (by omega)⟩

/-- A step between classes leads to something lighter. -/
theorem Leads.lighter (hix : ix.Sound s) (hc : Balanced s ix c) {p q : Nat}
    (h : Leads s ix c p q) :
    ∃ v w, weightAt s ix p = some v ∧ weightAt s ix q = some w ∧ w < v := by
  obtain ⟨member, a, b, hmember, ha, hb, hab⟩ := h
  refine ⟨ix.weight s a, ix.weight s b, ?_, weightAt_of_getElem? hb, ?_⟩
  · rw [← hc.weight member p hmember, weightAt_of_getElem? ha]
  · exact Index.weight_lt hix (List.mem_of_getElem? ha) hab

theorem lighter_of_transGen (hix : ix.Sound s) (hc : Balanced s ix c) {p q : Nat}
    (h : Relation.TransGen (Leads s ix c) p q) :
    ∃ v w, weightAt s ix p = some v ∧ weightAt s ix q = some w ∧ w < v := by
  induction h with
  | single hstep => exact hstep.lighter hix hc
  | tail _ hstep ih =>
    obtain ⟨u, v, hu, hv, huv⟩ := ih
    obtain ⟨v', w, hv', hw, hvw⟩ := hstep.lighter hix hc
    obtain rfl := Option.some.inj (hv.symm.trans hv')
    exact ⟨u, w, hu, hw, by omega⟩

/-- **No class reaches itself.** -/
theorem representative_ne_of_transGen (hix : ix.Sound s) (hc : Balanced s ix c) {p q : Nat}
    (h : Relation.TransGen (Leads s ix c) p q) : c.representative p ≠ c.representative q := by
  intro hsame
  obtain ⟨v, w, hv, hw, hlt⟩ := lighter_of_transGen hix hc h
  rw [hc.weight p q hsame, hw] at hv
  have := Option.some.inj hv
  omega

/-! ## The recursion -/

/-- The copy of an object goes on to the class `r`: it has not been copied, and is not in
progress. -/
structure Enters (s : Scene K) (ix : Index) (c : Classes) (inside copied : List Nat) (id : ObjectId)
    (r : Nat) (rid : ObjectId) (o : Object K) : Prop where
  position : ∃ p, ix.position? id = some p ∧ c.representative p = r
  notCopied : r ∉ copied
  notInside : r ∉ inside
  representative : ix.ids[r]? = some rid
  object : s.get? rid = some o

/-- The recursive copy of some objects, one after the other.  `copied` holds the classes on record,
`inside` those in progress.  A class goes on record after everything that its representative refers
to, and there is no rule by which a class in progress is entered. -/
inductive Copies (s : Scene K) (ix : Index) (c : Classes) :
    List Nat → List Nat → List ObjectId → Except SceneError (List Nat) → Prop
  | done {inside copied : List Nat} : Copies s ix c inside copied [] (.ok copied)
  | reuse {inside copied : List Nat} {id : ObjectId} {rest : List ObjectId} {p : Nat}
      {out : Except SceneError (List Nat)} (hpos : ix.position? id = some p)
      (hold : c.representative p ∈ copied) (hrest : Copies s ix c inside copied rest out) :
      Copies s ix c inside copied (id :: rest) out
  | copy {inside copied below : List Nat} {id rid : ObjectId} {rest : List ObjectId} {r : Nat}
      {o : Object K} {out : Except SceneError (List Nat)}
      (henters : Enters s ix c inside copied id r rid o)
      (hknown : ∀ name, o.content ≠ .external name)
      (hbelow : Copies s ix c (r :: inside) copied o.copyOrder (.ok below))
      (hrest : Copies s ix c inside (below ++ [r]) rest out) :
      Copies s ix c inside copied (id :: rest) out
  | refuse {inside copied : List Nat} {id rid : ObjectId} {rest : List ObjectId} {r : Nat}
      {o : Object K} {name : String} (henters : Enters s ix c inside copied id r rid o)
      (hexternal : o.content = .external name) :
      Copies s ix c inside copied (id :: rest) (.error (.unsupported rid name .copying))
  | fail {inside copied : List Nat} {id rid : ObjectId} {rest : List ObjectId} {r : Nat}
      {o : Object K} {e : SceneError} (henters : Enters s ix c inside copied id r rid o)
      (hknown : ∀ name, o.content ≠ .external name)
      (hbelow : Copies s ix c (r :: inside) copied o.copyOrder (.error e)) :
      Copies s ix c inside copied (id :: rest) (.error e)

/-! ## Steps of the walk -/

variable {rest : List CopyTask} {entered finished : List Nat} {id rid : ObjectId} {p : Nat}
  {o : Object K}

theorem copyWalk_refuse {name : String} (hpos : ix.position? id = some p)
    (hnew : c.representative p ∉ entered) (hrid : ix.ids[c.representative p]? = some rid)
    (hget : s.get? rid = some o) (hexternal : o.content = .external name) :
    copyWalk s ix c (.visit id :: rest) entered finished =
      .error (.unsupported rid name .copying) := by
  rw [copyWalk]
  simp only [hpos, dif_neg hnew]
  split
  · rename_i hnone
    rw [hrid] at hnone
    cases hnone
  · rename_i rid' hrid'
    obtain rfl := Option.some.inj (hrid.symm.trans hrid')
    simp only [hget, hexternal]

/-! ## The recursion ends, and agrees with the walk -/

/-- The recursion over some objects ends, and the walk that has them on top of its tasks fails with
it, or comes to the tasks below with the classes that the recursion leaves on record. -/
def Followed (s : Scene K) (ix : Index) (c : Classes) (inside copied entered : List Nat)
    (ids : List ObjectId) (rest : List CopyTask) : Prop :=
  (∃ e, Copies s ix c inside copied ids (.error e) ∧
    copyWalk s ix c (ids.map .visit ++ rest) entered copied = .error e) ∨
  ∃ copied' entered', Copies s ix c inside copied ids (.ok copied') ∧
    (∀ r, r ∈ entered' ↔ r ∈ copied' ∨ r ∈ inside) ∧
    copyWalk s ix c (ids.map .visit ++ rest) entered copied = copyWalk s ix c rest entered' copied'

namespace Followed

variable {inside copied : List Nat} {ids : List ObjectId}

theorem reuse (hpos : ix.position? id = some p) (hold : c.representative p ∈ copied)
    (hseen : c.representative p ∈ entered) (h : Followed s ix c inside copied entered ids rest) :
    Followed s ix c inside copied entered (id :: ids) rest := by
  rcases h with ⟨e, hcopies, hwalk⟩ | ⟨copied', entered', hcopies, hmem, hwalk⟩
  · exact .inl ⟨e, .reuse hpos hold hcopies, (copyWalk_seen hpos hseen).trans hwalk⟩
  · exact .inr ⟨copied', entered', .reuse hpos hold hcopies, hmem,
      (copyWalk_seen hpos hseen).trans hwalk⟩

theorem copy (hpos : ix.position? id = some p) (hnew : c.representative p ∉ entered)
    (henters : Enters s ix c inside copied id (c.representative p) rid o)
    (hknown : ∀ name, o.content ≠ .external name)
    (hbelow :
      Followed s ix c (c.representative p :: inside) copied (entered ++ [c.representative p])
      o.copyOrder (.finish (c.representative p) :: (ids.map .visit ++ rest)))
    (hrest : ∀ below entered',
      (∀ r, r ∈ entered' ↔ r ∈ below ++ [c.representative p] ∨ r ∈ inside) →
      Followed s ix c inside (below ++ [c.representative p]) entered' ids rest) :
    Followed s ix c inside copied entered (id :: ids) rest := by
  have henter : copyWalk s ix c ((id :: ids).map .visit ++ rest) entered copied =
      copyWalk s ix c (o.copyOrder.map .visit ++
        .finish (c.representative p) :: (ids.map .visit ++ rest))
        (entered ++ [c.representative p]) copied :=
    copyWalk_enter hpos hnew henters.representative henters.object hknown
  rcases hbelow with ⟨e, hcopies, hwalk⟩ | ⟨below, entered', hcopies, hmem, hwalk⟩
  · exact .inl ⟨e, .fail henters hknown hcopies, henter.trans hwalk⟩
  · -- the class is finished: it goes on record and is no longer in progress
    have hstart : copyWalk s ix c ((id :: ids).map .visit ++ rest) entered copied =
        copyWalk s ix c (ids.map .visit ++ rest) entered' (below ++ [c.representative p]) := by
      refine henter.trans (hwalk.trans ?_)
      rw [copyWalk]
    have hmem' : ∀ r, r ∈ entered' ↔ r ∈ below ++ [c.representative p] ∨ r ∈ inside := by
      intro r
      rw [hmem, List.mem_cons, List.mem_append, List.mem_singleton, or_assoc]
    rcases hrest below entered' hmem' with
      ⟨e, hcopies', hwalk'⟩ | ⟨copied', out, hcopies', hout, hwalk'⟩
    · exact .inl ⟨e, .copy henters hknown hcopies hcopies', hstart.trans hwalk'⟩
    · exact .inr ⟨copied', out, .copy henters hknown hcopies hcopies', hout, hstart.trans hwalk'⟩

end Followed

/-- **The recursion ends and agrees with the walk.**  What is in progress weighs at least as much as
a bound that everything still to be copied stays under, so nothing to be copied is in progress. -/
theorem followed (hix : ix.Sound s) (hc : Balanced s ix c) (bound : Nat) :
    ∀ (ids : List ObjectId) (inside copied entered : List Nat) (rest : List CopyTask),
      (∀ id ∈ ids, id ∈ ix.ids ∧ ix.weight s id < bound) →
      (∀ r ∈ inside, ∃ w, weightAt s ix r = some w ∧ bound ≤ w) →
      (∀ r, r ∈ entered ↔ r ∈ copied ∨ r ∈ inside) →
      Followed s ix c inside copied entered ids rest := by
  -- by the bound, which becomes the weight of a class when that is entered, and then along the list
  induction bound using Nat.strongRecOn with
  | ind bound ihbound =>
    intro ids inside copied entered rest hids hinside hentered
    induction ids generalizing copied entered with
    | nil => exact .inr ⟨copied, entered, .done, hentered, rfl⟩
    | cons id ids ih =>
      obtain ⟨hid, hlt⟩ := hids id List.mem_cons_self
      have hids' := fun t ht => hids t (List.mem_cons_of_mem _ ht)
      obtain ⟨p, hp⟩ := List.getElem?_of_mem hid
      have hpos := Index.position?_of_getElem? hix.nodup hp
      have hweight : weightAt s ix (c.representative p) = some (ix.weight s id) := by
        rw [hc.weight _ p (hc.represents p), weightAt_of_getElem? hp]
      have hnotInside : c.representative p ∉ inside := by
        intro hmem
        obtain ⟨w, hw, hle⟩ := hinside _ hmem
        have := Option.some.inj (hw.symm.trans hweight)
        omega
      by_cases hseen : c.representative p ∈ entered
      · have hold := ((hentered _).mp hseen).resolve_right hnotInside
        exact .reuse hpos hold hseen (ih copied entered hids' hentered)
      have hnotCopied : c.representative p ∉ copied :=
        fun hmem => hseen ((hentered _).mpr (.inl hmem))
      obtain ⟨rid, hrid⟩ := hc.exists_representative hp
      obtain ⟨o, hget, -⟩ := hix.object rid (List.mem_of_getElem? hrid)
      have henters : Enters s ix c inside copied id (c.representative p) rid o :=
        ⟨⟨p, hpos, rfl⟩, hnotCopied, hnotInside, hrid, hget⟩
      by_cases hexternal : ∃ name, o.content = .external name
      · obtain ⟨name, hname⟩ := hexternal
        exact .inl ⟨_, .refuse henters hname, copyWalk_refuse hpos hseen hrid hget hname⟩
      refine .copy hpos hseen henters (fun name hname => hexternal ⟨name, hname⟩) ?_
        fun below entered' hmem => ih _ entered' hids' hmem
      refine ihbound (ix.weight s id) hlt o.copyOrder _ copied _ _ ?_ ?_ ?_
      · intro t ht
        have hmem := List.mem_of_getElem? hrid
        have hrefers := Scene.refers_of_get? hget (mem_copyOrder.mp ht)
        have hsame := Option.some.inj ((weightAt_of_getElem? hrid).symm.trans hweight)
        exact ⟨hix.ranked.closed hmem hrefers, hsame ▸ Index.weight_lt hix hmem hrefers⟩
      · intro r hr
        rcases List.mem_cons.mp hr with rfl | hr
        · exact ⟨_, hweight, Nat.le_refl _⟩
        · obtain ⟨w, hw, hle⟩ := hinside r hr
          exact ⟨w, hw, by omega⟩
      · intro r
        rw [List.mem_append, List.mem_singleton, List.mem_cons, hentered]
        tauto

/-- The recursion from the root ends, and finishes the classes in the order of the walk. -/
theorem copies_copyOrder (hix : ix.Sound s) (hc : Balanced s ix c) :
    Copies s ix c [] [] [s.root] (copyOrder s ix c) := by
  have hroot : ∀ id ∈ [s.root], id ∈ ix.ids ∧ ix.weight s id < ix.weight s s.root + 1 := by
    intro id hid
    rw [List.mem_singleton.mp hid]
    exact ⟨hix.root_mem, by omega⟩
  have h := followed hix hc (ix.weight s s.root + 1) [s.root] [] [] [] [] hroot (by simp) (by simp)
  rcases h with ⟨e, hcopies, hwalk⟩ | ⟨copied, entered, hcopies, -, hwalk⟩
  · rw [copyOrder]
    exact hwalk ▸ hcopies
  · rw [copyWalk] at hwalk
    rw [copyOrder]
    exact hwalk ▸ hcopies

variable [Scalar K]

/-- **Merging never closes a circle.**  For every indexed scene and all settings: a chain of one or
more references, each held by some member of the class that the chain has come to, leads to another
class than the one it started from.  So the recursive copy, which puts a class on record only after
everything that it refers to, ends without entering a class in progress; it fails, or finishes the
classes, as the walk does. -/
theorem ofIndex_acyclic (settings : OptimizerSettings) (hix : Index.build s = .ok ix) :
    (∀ p q, Relation.TransGen (Leads s ix (Classes.ofIndex s ix settings)) p q →
      (Classes.ofIndex s ix settings).representative p ≠
        (Classes.ofIndex s ix settings).representative q) ∧
    Copies s ix (Classes.ofIndex s ix settings) [] [] [s.root]
      (copyOrder s ix (Classes.ofIndex s ix settings)) := by
  have hsound := Index.sound_of_build hix
  have hbalanced := balanced_ofIndex settings hsound
  exact ⟨fun _ _ => representative_ne_of_transGen hsound hbalanced,
    copies_copyOrder hsound hbalanced⟩

/-- In the duet one brush leads to the animation of the other. -/
theorem duet_acyclic :
    Index.build duet = .ok duetIndex ∧
    (Classes.ofIndex duet duetIndex { ignoreComments := true }).representatives = [0, 1, 2, 1, 2] ∧
    Leads duet duetIndex (Classes.ofIndex duet duetIndex { ignoreComments := true }) 1 4 ∧
    (Classes.ofIndex duet duetIndex { ignoreComments := true }).representative 1 ≠
      (Classes.ofIndex duet duetIndex { ignoreComments := true }).representative 4 ∧
    Copies duet duetIndex (Classes.ofIndex duet duetIndex { ignoreComments := true }) [] [] [⟨0⟩]
      (.ok [2, 1, 0]) := by
  have hix : Index.build duet = .ok duetIndex := by cbv
  have horder : copyOrder duet duetIndex
      (Classes.ofIndex duet duetIndex { ignoreComments := true }) = .ok [2, 1, 0] := by cbv
  have hleads :
      Leads duet duetIndex (Classes.ofIndex duet duetIndex { ignoreComments := true }) 1 4 :=
    ⟨3, ⟨2⟩, ⟨4⟩, by cbv, rfl, rfl, List.mem_singleton.mpr rfl⟩
  obtain ⟨hapart, hcopies⟩ := ofIndex_acyclic { ignoreComments := true } hix
  exact ⟨hix, by cbv, hleads, hapart 1 4 (.single hleads), horder ▸ hcopies⟩

end Diorama.Merge
