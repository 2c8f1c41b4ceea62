/-
  What the edits of a reduction cost.

  Neither the number of entries nor the number of matrices goes down with every edit: a container
  that is spliced into several lists makes them longer, and a push turns one matrix into many.  So
  objects get weights.  Give every object a weight that is above the weights of all objects in its
  list together.  The energy of a scene adds up the weights of all entries of lists and of all
  containers with a matrix.

    * Splicing puts what a container holds in its place, and that weighs less.
    * Pushing down takes the weight of the container away and adds at most those of its shapes,
      which weigh less.

  Both keep the weights above the lists, so every edit that is counted costs energy
  (`Editing.Costs`).  Powers of the rank are such weights, which is where the limit of the rounds
  comes from.  Nothing is asked of scalars or of what is frozen: an edit that is refused ends the
  run.
-/
import Mathlib
import Diorama.Proofs.PushedMatrices
import Diorama.Proofs.SettledScenes

namespace Diorama.Reduction

variable {K : Type} {S : Finset ObjectId} {rank w : ObjectId → Nat} {s s' : Scene K} {x : ObjectId}
  {o : Object K}

/-! ## Weights -/

/-- A ranked scene in which every object is heavier than its list. -/
structure Weighted (S : Finset ObjectId) (rank w : ObjectId → Nat) (s : Scene K) : Prop where
  ranked : s.Ranked (· ∈ S) rank
  root : s.root ∈ S
  heavy {x : ObjectId} {o : Object K} : x ∈ S → s.get? x = some o →
    (o.content.children.map w).sum < w x

/-- Whether a container of shapes has a matrix. -/
def holdsMatrix : Content K → Bool
  | .containerShape transform _ => transform.matrix.isSome
  | _ => false

/-- The weights of the entries of an object, and its own if it is a container with a matrix. -/
def load (w : ObjectId → Nat) (x : ObjectId) (o : Object K) : Nat :=
  (o.content.children.map w).sum + if holdsMatrix o.content then w x else 0

/-- All loads together. -/
def energy (S : Finset ObjectId) (w : ObjectId → Nat) (s : Scene K) : Nat :=
  ∑ x ∈ S, (s.get? x).elim 0 (load w x)

theorem Weighted.mem_of_mem_reachable (h : Weighted S rank w s) (hx : x ∈ s.reachable) : x ∈ S :=
  (h.ranked.reaches_lower h.root (Scene.reaches_of_mem_reachable hx)).1

/-- Energy is lost and gained object by object. -/
theorem energy_edited (h : s.Ranked (· ∈ S) rank) {g : ObjectId → Object K → Object K}
    (he : s.Edited g s') (lost gained : ObjectId → Nat)
    (hload : ∀ x ∈ S, ∀ o, s.get? x = some o → load w x (g x o) + lost x ≤ load w x o + gained x) :
    energy S w s' + ∑ x ∈ S, lost x ≤ energy S w s + ∑ x ∈ S, gained x := by
  rw [energy, energy, ← Finset.sum_add_distrib, ← Finset.sum_add_distrib]
  refine Finset.sum_le_sum fun x hx => ?_
  obtain ⟨o, ho⟩ := h.object hx
  rw [he.get? ho, ho]
  exact hload x hx o ho

/-! ## Powers of the rank -/

/-- The power of the rank, to a base above the length of every list. -/
def powerWeight (s : Scene K) (rank : ObjectId → Nat) (x : ObjectId) : Nat :=
  (s.childCount + 2) ^ rank x

/-- An object has at most as many children as all objects have together. -/
theorem length_children_le (ho : s.get? x = some o) : o.content.children.length ≤ s.childCount := by
  have hmem : o ∈ s.objects.toList := Array.mem_toList_iff.mpr (Array.mem_of_getElem? ho)
  obtain ⟨l, r, hlr⟩ := List.append_of_mem hmem
  simp only [Scene.childCount, hlr, List.flatMap_append, List.flatMap_cons, List.length_append]
  omega

/-- A power of the child count, by rank, outweighs the children. -/
theorem weighted_powerWeight (h : s.Ranked (· ∈ S) rank) (hroot : s.root ∈ S) :
    Weighted S rank (powerWeight s rank) s := by
  refine ⟨h, hroot, fun {x o} hx ho => ?_⟩
  have hlength := length_children_le ho
  cases hchildren : o.content.children with
  | nil => exact Nat.pow_pos (Nat.succ_pos _)
  | cons c cs =>
    have hlower : ∀ d ∈ o.content.children, rank d < rank x := fun d hd =>
      h.descends hx (Scene.refers_of_get? ho (Object.mem_targets_of_mem_children hd))
    have hpos : 0 < rank x := Nat.zero_lt_of_lt (hlower c (hchildren ▸ List.mem_cons_self))
    have hentry : ∀ n ∈ o.content.children.map (powerWeight s rank),
        n ≤ (s.childCount + 2) ^ (rank x - 1) := by
      intro n hn
      obtain ⟨d, hd, rfl⟩ := List.mem_map.mp hn
      have := hlower d hd
      exact Nat.pow_le_pow_right (Nat.succ_pos _) (by omega)
    -- each child weighs at most a power less, and there are fewer children than the base
    have hsum := List.sum_le_card_nsmul _ _ hentry
    rw [List.length_map, smul_eq_mul] at hsum
    rw [← hchildren]
    calc (o.content.children.map (powerWeight s rank)).sum
        ≤ o.content.children.length * (s.childCount + 2) ^ (rank x - 1) := hsum
      _ ≤ s.childCount * (s.childCount + 2) ^ (rank x - 1) := Nat.mul_le_mul_right _ hlength
      _ < (s.childCount + 2) * (s.childCount + 2) ^ (rank x - 1) := by
          refine Nat.mul_lt_mul_of_pos_right (by omega) (Nat.pow_pos (Nat.succ_pos _))
      _ = (s.childCount + 2) ^ rank x := by
          rw [← Nat.pow_succ', Nat.succ_eq_add_one, Nat.sub_add_cancel hpos]

/-- There are no more ranked objects than objects. -/
theorem card_le_size (h : s.Ranked (· ∈ S) rank) : S.card ≤ s.size := by
  have hinjective : Set.InjOn ObjectId.index (S : Set ObjectId) :=
    fun a _ b _ hab => ObjectId.index_injective hab
  have hle := Finset.card_le_card_of_injOn (t := Finset.range s.size) ObjectId.index
    (fun x hx => ?_) hinjective
  · rwa [Finset.card_range] at hle
  · obtain ⟨o, ho⟩ := h.object (Finset.mem_coe.mp hx)
    exact Finset.mem_coe.mpr (Finset.mem_range.mpr (Scene.index_lt_size ho))

/-- The limit of the rounds is above the energy. -/
theorem energy_lt_roundLimit (h : Weighted S rank (powerWeight s rank) s) :
    energy S (powerWeight s rank) s < roundLimit s := by
  have hload : ∀ x ∈ S, (s.get? x).elim 0 (load (powerWeight s rank) x) ≤
      2 * (s.childCount + 2) ^ s.size := by
    intro x hx
    obtain ⟨o, ho⟩ := h.ranked.object hx
    have hheavy := h.heavy hx ho
    have hweight : powerWeight s rank x ≤ (s.childCount + 2) ^ s.size :=
      Nat.pow_le_pow_right (Nat.succ_pos _) (Nat.le_of_lt (h.ranked.bounded hx))
    rw [ho]
    show load (powerWeight s rank) x o ≤ _
    rw [load]
    split <;> omega
  have hsum := Finset.sum_le_card_nsmul S _ _ hload
  rw [smul_eq_mul] at hsum
  have hcard := card_le_size h.ranked
  -- both factors are below the base of the limit
  have hsize : s.size + 1 ≤ (s.childCount + 2) ^ (s.size + 1) :=
    Nat.le_of_lt (Nat.lt_pow_self (by omega))
  have hpower : 2 * (s.childCount + 2) ^ s.size ≤ (s.childCount + 2) ^ (s.size + 1) := by
    rw [Nat.pow_succ, Nat.mul_comm]
    exact Nat.mul_le_mul_left _ (by omega)
  show _ < ((s.childCount + 2) ^ (s.size + 1) + 2) ^ 3
  generalize (s.childCount + 2) ^ (s.size + 1) = base at hsize hpower
  calc energy S (powerWeight s rank) s
      ≤ S.card * (2 * (s.childCount + 2) ^ s.size) := hsum
    _ ≤ base * base := Nat.mul_le_mul (by omega) hpower
    _ < (base + 2) ^ 3 := by nlinarith

/-! ## Splicing -/

/-- Where lighter lists stand for some entries, a list gets lighter by one for each of them. -/
theorem sum_flatMap_add_countP_le {expand : ObjectId → Option (List ObjectId)} {cs : List ObjectId}
    (h : ∀ c ∈ cs, ∀ held, expand c = some held → (held.map w).sum < w c) :
    ((cs.flatMap fun c => (expand c).getD [c]).map w).sum + cs.countP (fun c => (expand c).isSome) ≤
      (cs.map w).sum := by
  induction cs with
  | nil => simp
  | cons c cs ih =>
    have hrest := ih fun d hd => h d (List.mem_cons_of_mem _ hd)
    rw [List.flatMap_cons, List.map_append, List.sum_append, List.countP_cons, List.map_cons,
      List.sum_cons]
    cases hexpand : expand c with
    | none =>
      simp only [Option.getD_none, List.map_cons, List.map_nil, List.sum_cons, List.sum_nil,
        Option.isSome_none, Bool.false_eq_true, if_false]
      omega
    | some held =>
      have hlighter := h c List.mem_cons_self held hexpand
      simp only [Option.getD_some, Option.isSome_some, if_true]
      omega

/-- Whether there is a matrix does not depend on the children. -/
theorem holdsMatrix_withChildren (c : Content K) (cs : List ObjectId) :
    holdsMatrix (c.withChildren cs) = holdsMatrix c := by
  cases c <;> rfl

/-- A lighter list keeps the weights above the lists and costs the difference. -/
theorem Weighted.relist (h : Weighted S rank w s) (hx : x ∈ S) (ho : s.get? x = some o)
    (hlist : o.content.children ≠ []) {cs : List ObjectId} {n : Nat}
    (hlighter : (cs.map w).sum + n ≤ (o.content.children.map w).sum)
    (he : s.Edited (editOf [x] fun p => { p with content := p.content.withChildren cs }) s')
    (hranked : s'.Ranked (· ∈ S) rank) :
    Weighted S rank w s' ∧ energy S w s' + n ≤ energy S w s := by
  refine ⟨⟨hranked, he.root ▸ h.root, fun {y q} hy hq => ?_⟩, ?_⟩
  · rw [he.object] at hq
    obtain ⟨p, hp, rfl⟩ := Option.map_eq_some_iff.mp hq
    have hheavy := h.heavy hy hp
    rcases editOf_singleton_cases (fun p => { p with content := p.content.withChildren cs })
      ho hp with ⟨rfl, rfl, hedit⟩ | ⟨-, hedit⟩
    · rw [hedit, Content.children_withChildren hlist]
      omega
    · rwa [hedit]
  · have hpaid := energy_edited (w := w) h.ranked he (fun y => if y = x then n else 0)
      (fun _ => 0) fun y hy p hp => ?_
    · rwa [Finset.sum_ite_eq' S x, if_pos hx, Finset.sum_const_zero] at hpaid
    · rcases editOf_singleton_cases (fun p => { p with content := p.content.withChildren cs })
        ho hp with ⟨rfl, rfl, hedit⟩ | ⟨hyx, hedit⟩
      · rw [hedit, if_pos rfl, load, load, Content.children_withChildren hlist,
          holdsMatrix_withChildren]
        omega
      · rw [hedit, if_neg hyx]

/-- A container is heavier than what stands in its place. -/
theorem Weighted.replacement?_lt (h : Weighted S rank w s) {read : List ObjectId} {inShapes : Bool}
    {c : ObjectId} {held : List ObjectId} (hc : c ∈ S)
    (hheld : replacement? s read inShapes c = some held) : (held.map w).sum < w c := by
  obtain ⟨p, hp, -, hcontent⟩ := exists_of_replacement? hheld
  have hheavy := h.heavy hc hp
  rcases hcontent with ⟨-, hcontent⟩ | ⟨-, hcontent⟩
  · rwa [hcontent] at hheavy
  · rwa [hcontent] at hheavy

/-- Splicing one object lowers the energy, if it changes anything. -/
theorem spliceObject_costs (read : List ObjectId) (hx : x ∈ S) :
    Editing.Costs (Weighted S rank w (K := K)) (energy S w) (spliceObject read x) := by
  intro s s' done h hrun
  rcases spliceObject_spec read x s with ⟨hidle, -⟩ | ⟨o, n, ho, hpos, hn, hactive⟩
  · rw [hidle] at hrun
    cases hrun
    exact ⟨h, Nat.le_refl _⟩
  · rw [hactive] at hrun
    obtain ⟨⟨⟩, t, hchange, hdone⟩ := Editing.exists_of_bind hrun
    cases hdone
    have he := Editing.edited_of_change hchange
    have hlist : o.content.children ≠ [] := by
      obtain ⟨c, hc, -⟩ := List.countP_pos_iff.mp (hn ▸ hpos)
      exact List.ne_nil_of_mem hc
    have hsum : ((splicedList s read o).map w).sum + n ≤ (o.content.children.map w).sum := by
      rw [hn]
      refine sum_flatMap_add_countP_le fun c hc held hheld => h.replacement?_lt ?_ hheld
      exact h.ranked.closed hx (Scene.refers_of_get? ho (Object.mem_targets_of_mem_children hc))
    obtain ⟨hs', hpaid⟩ := h.relist hx ho hlist hsum he
      (h.ranked.edited_one ho he fun _ t => targets_splicedList)
    exact ⟨hs', by simpa [Reduction.total] using hpaid⟩

/-- Splicing lowers the energy, if it changes anything. -/
theorem splice_costs : Editing.Costs (Weighted S rank w (K := K)) (energy S w) splice := by
  intro s s' done h hrun
  refine Editing.Costs.sumOver (fun x hx => ?_) s s' done h hrun
  exact spliceObject_costs s.readByExpressions (h.mem_of_mem_reachable hx)

/-! ## Pushing down -/

variable [Scalar K]

/-- Pushing a matrix leaves children where they are. -/
theorem children_pushed {m : Matrix3x2 K} {shapes : List ObjectId} (y : ObjectId) (p : Object K) :
    (pushed x m shapes y p).content.children = p.content.children := by
  unfold pushed
  split
  · show (takeOver m p.content).children = _
    cases p.content <;> rfl
  · split
    · show (dropMatrix p.content).children = _
      cases p.content <;> rfl
    · rfl

/-- A push moves a matrix to lighter objects. -/
theorem load_pushed (w : ObjectId → Nat) {m : Matrix3x2 K} {shapes : List ObjectId}
    (hc : o.content = .containerShape { matrix := some m } shapes) (hx : x ∉ shapes)
    (ho : s.get? x = some o) {y : ObjectId} {p : Object K} (hp : s.get? y = some p) :
    load w y (pushed x m shapes y p) + (if y = x then w x else 0) ≤
      load w y p + if y ∈ shapes then w y else 0 := by
  rw [load, load, children_pushed]
  by_cases hy : y ∈ shapes
  · have hyx : y ≠ x := fun heq => hx (heq ▸ hy)
    rw [if_pos hy, if_neg hyx]
    split <;> omega
  · by_cases hyx : y = x
    · subst hyx
      obtain rfl := Option.some.inj (ho.symm.trans hp)
      simp [pushed, hy, hc, dropMatrix, holdsMatrix]
    · simp [pushed, hy, hyx]

/-- A sum over the shapes, as a sum over all ids. -/
theorem sum_ite_mem_le {shapes : List ObjectId} (hnodup : shapes.Nodup) :
    ∑ y ∈ S, (if y ∈ shapes then w y else 0) ≤ (shapes.map w).sum := by
  rw [← List.sum_toFinset w hnodup, ← Finset.sum_filter]
  refine Finset.sum_le_sum_of_subset fun y hy => ?_
  rw [List.mem_toFinset]
  exact (Finset.mem_filter.mp hy).2

/-- A push keeps the lists, and costs the difference between the container and its shapes. -/
theorem Weighted.pushed (h : Weighted S rank w s) {m : Matrix3x2 K} {shapes : List ObjectId}
    (hx : x ∈ S) (ho : s.get? x = some o)
    (hc : o.content = .containerShape { matrix := some m } shapes) (hnodup : shapes.Nodup)
    (hself : x ∉ shapes) (he : s.Edited (pushed x m shapes) s') (hranked : s'.Ranked (· ∈ S) rank) :
    Weighted S rank w s' ∧ energy S w s' + 1 ≤ energy S w s := by
  refine ⟨⟨hranked, he.root ▸ h.root, fun {y q} hy hq => ?_⟩, ?_⟩
  · rw [he.object] at hq
    obtain ⟨p, hp, rfl⟩ := Option.map_eq_some_iff.mp hq
    rw [children_pushed]
    exact h.heavy hy hp
  · have hpaid := energy_edited h.ranked he (fun y => if y = x then w x else 0)
      (fun y => if y ∈ shapes then w y else 0) fun y _ p hp => load_pushed w hc hself ho hp
    have hlighter : ∑ y ∈ S, (if y ∈ shapes then w y else 0) ≤ (shapes.map w).sum :=
      sum_ite_mem_le hnodup
    have hheavy := h.heavy hx ho
    rw [hc] at hheavy
    change (shapes.map w).sum < w x at hheavy
    rw [Finset.sum_ite_eq' S x, if_pos hx] at hpaid
    omega

/-- What holds in the course of a pass that began with `s₁`. -/
def PushingWeighted (S : Finset ObjectId) (rank w : ObjectId → Nat) (s₁ s : Scene K) : Prop :=
  Pushing (fun _ _ => True) (· ∈ S) rank s₁ s₁ s ∧ Weighted S rank w s

/-- Pushing one matrix lowers the energy: it leaves an object that weighs more than all it goes
to. -/
theorem pushObject_costs {s₁ : Scene K} {single : ObjectId → Bool} (h₁ : Weighted S rank w s₁)
    (hsingle : ∀ c, single c = true → s₁.slotTargets.count c = 1) (hx : x ∈ s₁.reachable) :
    Editing.Costs (PushingWeighted S rank w s₁) (energy S w) (pushObject single x) := by
  rintro s s' done ⟨hpushing, h⟩ hrun
  have hstart := Reduced.start (R := fun _ _ => True) .anywhere h₁.ranked h₁.root
  have hpushing' := pushObject_preserves .anywhere hstart hsingle hx s s' done hpushing hrun
  rcases pushObject_spec single x s with
    ⟨hidle, -⟩ | ⟨o, m, shapes, -, -, ho, hmatrix, hall, hactive⟩
  · rw [hidle] at hrun
    cases hrun
    exact ⟨⟨hpushing, h⟩, Nat.le_refl _⟩
  · rw [hactive] at hrun
    obtain ⟨⟨⟩, t, hshapes, hrest⟩ := Editing.exists_of_bind hrun
    obtain ⟨⟨⟩, u, hdrop, hdone⟩ := Editing.exists_of_bind hrest
    cases hdone
    obtain ⟨hbare, hc⟩ := matrixContainer?_eq_some hmatrix
    have hpush : Pushable s₁ s x o m shapes :=
      ⟨hx, ho, hbare, hc, fun hmem => hsingle _ (hall _ hmem).1, fun hmem => (hall _ hmem).2⟩
    have he := hpush.edited hstart hpushing hshapes hdrop
    obtain ⟨hs', hpaid⟩ := h.pushed (h₁.mem_of_mem_reachable hx) ho hc (hpush.nodup hpushing)
      (hpush.not_mem hstart hpushing) he hpushing'.reduced.ranked
    exact ⟨⟨hpushing', hs'⟩, hpaid⟩

/-- Pushing down lowers the energy, if it changes anything. -/
theorem pushDown_costs : Editing.Costs (Weighted S rank w (K := K)) (energy S w) pushDown := by
  intro s s' done h hrun
  have hsingle : ∀ c, isSingle s c = true → s.slotTargets.count c = 1 := fun c hc =>
    beq_iff_eq.mp (Bool.and_eq_true_iff.mp hc).1
  have hstart := Reduced.start (R := fun _ _ => True) .anywhere h.ranked h.root
  obtain ⟨hs', hpaid⟩ := Editing.Costs.sumOver (fun x hx => pushObject_costs h hsingle hx) s s' done
    ⟨⟨hstart, rfl, fun _ => rfl⟩, h⟩ hrun
  exact ⟨hs'.2, hpaid⟩

/-- **A round costs energy.** -/
theorem coalesce_costs : Editing.Costs (Weighted S rank w (K := K)) (energy S w) coalesce :=
  pushDown_costs.add splice_costs

end Diorama.Reduction
