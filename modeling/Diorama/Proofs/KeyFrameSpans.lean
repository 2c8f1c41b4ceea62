/-
  The key frames around a point.

  An animation takes its value between two neighbouring key frames, and `Span.find` looks for them
  by the progress of each.  Nothing keeps key frames in order, and nothing keeps a progress from
  being no number at all.

    * whatever the scalars are, the span that is found is one of the key frames, or one and the next
      (`within_find`), so every key frame that the sampler reads is there
      (`Moment.valueOf_eq_valueIn`)
    * where the point can be compared with every key frame, the span is around it (`located_find`):
      the first key frame is before the point and the last one is not, so somewhere the key frames
      pass it (`exists_encloses`)
    * numbers in single precision can be compared (`le_total_of_isNaN`), and those of an ordered
      field too; there the fraction is a plain quotient (`share_eq`)

  For none of this the key frames have to be in order.  Of several key frames in one place the first
  is approached.
-/
import Mathlib
import Diorama.Proofs.Periodicity

namespace Diorama

section

variable {K : Type} [Scalar K] {u p q : K} {ps : List K}

namespace Span

/-! ## What is found -/

/-- A key frame and the one after it have the point between them. -/
def Encloses (u : K) (ps : List K) (i : Nat) : Prop :=
  ∃ h : i + 1 < ps.length, ps[i] ≤ u ∧ u ≤ ps[i + 1]

@[simp] theorem not_encloses_nil {i : Nat} : ¬ Encloses u [] i := by
  rintro ⟨h, -⟩
  simp at h

@[simp] theorem not_encloses_singleton {i : Nat} : ¬ Encloses u [p] i := by
  rintro ⟨h, -⟩
  simp at h

@[simp] theorem encloses_zero : Encloses u (p :: q :: ps) 0 ↔ p ≤ u ∧ u ≤ q := by
  simp [Encloses]

@[simp] theorem encloses_succ {i : Nat} : Encloses u (p :: ps) (i + 1) ↔ Encloses u ps i := by
  simp [Encloses]

/-- How far the point has come from one key frame to another, as it is computed. -/
def share (u p q : K) : K :=
  Scalar.clamp ((u - p) / Scalar.atLeast (q - p) Scalar.epsilon) 0 1

/-- The search stops at the first two neighbours around the point, unless there are none. -/
theorem between?_cases (u : K) (n : Nat) (ps : List K) :
    (between? u n ps = none ∧ ∀ i, ¬ Encloses u ps i) ∨
    ∃ i p q, between? u n ps = some ⟨n + i, n + i + 1, share u p q⟩ ∧
      IsLeast {i | Encloses u ps i} i ∧ ps[i]? = some p ∧ ps[i + 1]? = some q := by
  induction ps generalizing n with
  | nil => exact .inl ⟨rfl, fun _ => not_encloses_nil⟩
  | cons p ps ih =>
    cases ps with
    | nil => exact .inl ⟨rfl, fun _ => not_encloses_singleton⟩
    | cons q rest =>
      by_cases hpq : p ≤ u ∧ u ≤ q
      · refine .inr ⟨0, p, q, ?_, ⟨encloses_zero.mpr hpq, fun _ _ => Nat.zero_le _⟩, rfl, rfl⟩
        rw [between?, if_pos hpq]
        rfl
      · -- the search goes on without the first key frame, where every index is one less
        rw [between?, if_neg hpq]
        obtain ⟨hnone, hno⟩ | ⟨i, p', q', hsome, ⟨hi, hleast⟩, hp, hq⟩ := ih (n + 1)
        · refine .inl ⟨hnone, fun i => ?_⟩
          cases i with
          | zero => exact fun h => hpq (encloses_zero.mp h)
          | succ i => exact fun h => hno i (encloses_succ.mp h)
        · refine .inr ⟨i + 1, p', q', ?_, ⟨encloses_succ.mpr hi, ?_⟩, hp, hq⟩
          · rw [hsome, Nat.add_right_comm n 1 i, Nat.add_assoc n i 1]
          · intro j hj
            cases j with
            | zero => exact absurd (encloses_zero.mp hj) hpq
            | succ j => exact Nat.succ_le_succ (hleast (encloses_succ.mp hj))

/-- All that can be found: the first key frame, the last one, or the first two neighbours around the
point.  The last one also stands for a search that ends without result. -/
theorem find_cases (u : K) (hne : ps ≠ []) :
    (u ≤ ps.head hne ∧ find u ps = ⟨0, 0, 0⟩) ∨
    (¬ u ≤ ps.head hne ∧ (ps.getLast hne ≤ u ∨ ∀ i, ¬ Encloses u ps i) ∧
      find u ps = ⟨ps.length - 1, ps.length - 1, 0⟩) ∨
    (¬ u ≤ ps.head hne ∧ ¬ ps.getLast hne ≤ u ∧
      ∃ i p q, find u ps = ⟨i, i + 1, share u p q⟩ ∧
        IsLeast {i | Encloses u ps i} i ∧ ps[i]? = some p ∧ ps[i + 1]? = some q) := by
  cases ps with
  | nil => exact absurd rfl hne
  | cons p ps =>
    by_cases hfirst : u ≤ p
    · refine .inl ⟨hfirst, ?_⟩
      cases ps with
      | nil => rfl
      | cons q rest => simp only [find, if_pos hfirst]
    · cases ps with
      -- a single key frame is the last one too, wherever the point is
      | nil => exact .inr (.inl ⟨hfirst, .inr fun _ => not_encloses_singleton, rfl⟩)
      | cons q rest =>
        have hlast : (p :: q :: rest).getLast hne = (q :: rest).getLast (by simp) := by simp
        rw [hlast]
        by_cases hend : (q :: rest).getLast (by simp) ≤ u
        · refine .inr (.inl ⟨hfirst, .inl hend, ?_⟩)
          simp only [find, if_neg hfirst, if_pos hend]
          rfl
        · simp only [find, if_neg hfirst, if_neg hend]
          obtain ⟨hnone, hno⟩ | ⟨i, p', q', hsome, hi⟩ := between?_cases u 0 (p :: q :: rest)
          · refine .inr (.inl ⟨hfirst, .inr hno, ?_⟩)
            rw [hnone]
            rfl
          · refine .inr (.inr ⟨hfirst, hend, i, p', q', ?_, hi⟩)
            rw [hsome, Nat.zero_add]
            rfl

/-! ## In the list -/

/-- One of `n` key frames, or one and the next. -/
structure Within (n : Nat) (span : Span K) : Prop where
  hi_lt : span.hi < n
  hi_eq : span.hi = span.lo ∨ span.hi = span.lo + 1

omit [Scalar K] in
theorem Within.lo_lt {n : Nat} {span : Span K} (h : span.Within n) : span.lo < n := by
  have hhi := h.hi_lt
  have hnext := h.hi_eq
  omega

/-- **What is found is in the list**, whatever the scalars are and however the key frames are
ordered. -/
theorem within_find (u : K) (hne : ps ≠ []) : (find u ps).Within ps.length := by
  have hpos : 0 < ps.length := List.length_pos_iff.mpr hne
  obtain ⟨-, h⟩ | ⟨-, -, h⟩ | ⟨-, -, i, p, q, h, ⟨⟨hlt, -⟩, -⟩, -⟩ := find_cases u hne
  · rw [h]
    exact ⟨hpos, .inl rfl⟩
  · rw [h]
    exact ⟨Nat.sub_one_lt_of_lt hpos, .inl rfl⟩
  · rw [h]
    exact ⟨hlt, .inr rfl⟩

end Span

/-- The value of an animation in a span of its key frames, each of them read where it is known to
be. -/
def Moment.valueIn (m : Moment K) (id : ObjectId) (frames : List (KeyFrame K)) (span : Span K)
    (h : span.Within frames.length) : Except SceneError (Option (KeyFrameValue K)) :=
  let here := frames.get ⟨span.lo, h.lo_lt⟩
  let next := frames.get ⟨span.hi, h.hi_lt⟩
  if span.lo = span.hi then .ok here.value.literal?
  else
    match next.easing with
    | none => .ok (here.value.interpolate? next.value span.fraction)
    | some easing => do
      let e ← m.scene.resolve id easing
      return here.value.interpolate? next.value (e.content.ease span.fraction)

/-- **The sampler reads no key frame that is not there.** -/
theorem Moment.valueOf_eq_valueIn (m : Moment K) (id : ObjectId) (a : KeyFrameAnimation K)
    (h : (Span.find (a.progress m.time) (a.frames.map (·.progress))).Within a.frames.length) :
    m.valueOf id a =
      m.valueIn id a.frames (Span.find (a.progress m.time) (a.frames.map (·.progress))) h := by
  simp only [valueOf, valueIn, List.getElem?_eq_getElem h.lo_lt, List.getElem?_eq_getElem h.hi_lt]
  rfl

namespace Span

/-! ## Around the point -/

/-- Key frames pass a point that the first of them is not after and the last is. -/
theorem exists_encloses (hne : ps ≠ []) (hcmp : ∀ p ∈ ps, u ≤ p ∨ p ≤ u)
    (hfirst : ps.head hne ≤ u) (hlast : ¬ ps.getLast hne ≤ u) : ∃ i, Encloses u ps i := by
  induction ps with
  | nil => exact absurd rfl hne
  | cons p ps ih =>
    cases ps with
    | nil => exact absurd hfirst hlast
    | cons q rest =>
      by_cases hq : u ≤ q
      · exact ⟨0, encloses_zero.mpr ⟨hfirst, hq⟩⟩
      · -- the next key frame is not after the point either, and the search goes on from there
        have hq' : q ≤ u := (hcmp q (by simp)).resolve_left hq
        obtain ⟨i, hi⟩ :=
          ih (by simp) (fun x hx => hcmp x (List.mem_cons_of_mem p hx)) hq' (by simpa using hlast)
        exact ⟨i + 1, encloses_succ.mpr hi⟩

/-- Up to the first two neighbours around the point every key frame is before it. -/
theorem not_le_of_isLeast {i : Nat} (hne : ps ≠ []) (hcmp : ∀ p ∈ ps, u ≤ p ∨ p ≤ u)
    (hfirst : ¬ u ≤ ps.head hne) (hi : IsLeast {i | Encloses u ps i} i) :
    ∀ j (hj : j < ps.length), j ≤ i → ¬ u ≤ ps[j] := by
  intro j
  induction j with
  | zero =>
    intro hj _
    rwa [List.head_eq_getElem] at hfirst
  | succ j ih =>
    intro hj hji hle
    have hbefore : ps[j] ≤ u :=
      (hcmp _ (List.getElem_mem _)).resolve_left (ih (by omega) (by omega))
    have hleast : i ≤ j := hi.2 ⟨hj, hbefore, hle⟩
    omega

/-- A span around a point: the first two neighbours that enclose it, and how far it has come from
one to the other.  The later one is the first key frame that the point is not after. -/
structure Around (u : K) (ps : List K) (span : Span K) : Prop where
  hi_eq : span.hi = span.lo + 1
  least : IsLeast {i | Encloses u ps i} span.lo
  first : ps.findIdx (u ≤ ·) = span.hi
  fraction_eq : ∀ p q, ps[span.lo]? = some p → ps[span.hi]? = some q → span.fraction = share u p q

/-- Where a point lies among key frames: at the first one or before, at the last one or after, or
between two. -/
structure Located (u : K) (ps : List K) (hne : ps ≠ []) (span : Span K) : Prop where
  atFirst : u ≤ ps.head hne → span = ⟨0, 0, 0⟩
  atLast : ¬ u ≤ ps.head hne → ps.getLast hne ≤ u → span = ⟨ps.length - 1, ps.length - 1, 0⟩
  inside : ¬ u ≤ ps.head hne → ¬ ps.getLast hne ≤ u → span.Around u ps

/-- **What is found is around the point**, if the point can be compared with every key frame. -/
theorem located_find (hne : ps ≠ []) (hcmp : ∀ p ∈ ps, u ≤ p ∨ p ≤ u) :
    (find u ps).Located u ps hne := by
  obtain ⟨hfirst, h⟩ | ⟨hfirst, hend, h⟩ | ⟨hfirst, hlast, i, p, q, h, hi, hp, hq⟩ :=
    find_cases u hne
  · exact ⟨fun _ => h, fun h' => absurd hfirst h', fun h' => absurd hfirst h'⟩
  · refine ⟨fun h' => absurd h' hfirst, fun _ _ => h, fun _ hlast => ?_⟩
    -- past the loop nothing has been found, but there is something to find
    have hbefore : ps.head hne ≤ u := (hcmp _ (List.head_mem hne)).resolve_left hfirst
    obtain ⟨i, hi⟩ := exists_encloses hne hcmp hbefore hlast
    exact absurd hi (hend.resolve_left hlast i)
  · refine ⟨fun h' => absurd h' hfirst, fun _ h' => absurd h' hlast, fun _ _ => ?_⟩
    rw [h]
    obtain ⟨hlt, -, hle⟩ := hi.1
    refine ⟨rfl, hi, ?_, ?_⟩
    · rw [List.findIdx_eq hlt]
      refine ⟨decide_eq_true hle, fun j hj => decide_eq_false ?_⟩
      exact not_le_of_isLeast hne hcmp hfirst hi j (by omega) (by omega)
    · intro p' q' hp' hq'
      rw [Option.some.inj (hp.symm.trans hp'), Option.some.inj (hq.symm.trans hq')]

end Span

end

/-! ## Single precision -/

namespace Scalar

open Float.Model in
/-- Comparing the other way round gives the other answer. -/
theorem compare_swap (x y : UnpackedFloat) : y.compare x = (x.compare y).map Ordering.swap := by
  fun_cases UnpackedFloat.compare x y with
  | case1 => cases y <;> rfl
  | case3 s t => cases s <;> cases t <;> rfl
  | _ => simp [UnpackedFloat.compare, Ordering.swap_then, ← Std.OrientedOrd.eq_swap]

open Float.Model in
theorem exists_compare {x y : UnpackedFloat} (hx : x.isNaN = false) (hy : y.isNaN = false) :
    ∃ o, x.compare y = some o := by
  fun_cases UnpackedFloat.compare x y with
  | case1 => cases hx
  | case2 => cases hy
  | _ => exact ⟨_, rfl⟩

/-- Numbers in single precision can be compared. -/
theorem le_total_of_isNaN {x y : Float32} (hx : x.isNaN = false) (hy : y.isNaN = false) :
    x ≤ y ∨ y ≤ x := by
  have hle : ∀ a b : Float32, a ≤ b ↔
      (a.toModel.unpack.compare b.toModel.unpack).any Ordering.isLE = true := by
    intro a b
    show Float32.le a b = true ↔ _
    simp only [Float32.le, decide_eq_true_eq]
    rfl
  obtain ⟨o, ho⟩ := exists_compare hx hy
  rw [hle, hle, compare_swap x.toModel.unpack, ho]
  cases o <;> simp

end Scalar

/-! ## Exact arithmetic -/

/-- Scalars whose arithmetic and order are those of an ordered field. -/
class FieldScalar (K : Type) extends Field K, LinearOrder K, Scalar K, IsStrictOrderedRing K

instance FieldScalar.instRat : FieldScalar Rat where
  __ := (inferInstance : Field Rat)
  __ := (inferInstance : LinearOrder Rat)
  __ := Scalar.instRat
  __ := (inferInstance : IsStrictOrderedRing Rat)

section

variable {K : Type} [FieldScalar K]

theorem Scalar.atLeast_eq_max (x y : K) : Scalar.atLeast x y = max x y := by
  unfold Scalar.atLeast
  split
  · rename_i h
    exact (max_eq_left h.le).symm
  · rename_i h
    exact (max_eq_right (not_lt.mp h)).symm

theorem Scalar.clamp_eq_self {x lo hi : K} (hlo : lo ≤ x) (hhi : x ≤ hi) :
    Scalar.clamp x lo hi = x := by
  simp only [Scalar.clamp, if_neg (not_lt.mpr hlo), if_neg (not_lt.mpr hhi)]

namespace Span

variable {u p q : K}

/-- Between the two key frames the quotient is a fraction, and there is nothing to cut off. -/
theorem share_eq (hp : p ≤ u) (hq : u ≤ q) :
    share u p q = (u - p) / max (q - p) Scalar.epsilon ∧ 0 ≤ share u p q ∧ share u p q ≤ 1 := by
  have hway : u - p ≤ max (q - p) Scalar.epsilon := (sub_le_sub_right hq p).trans (le_max_left _ _)
  have hnonneg : 0 ≤ (u - p) / max (q - p) Scalar.epsilon :=
    div_nonneg (sub_nonneg.mpr hp) ((sub_nonneg.mpr hp).trans hway)
  have hle : (u - p) / max (q - p) Scalar.epsilon ≤ 1 :=
    div_le_one_of_le₀ hway ((sub_nonneg.mpr hp).trans hway)
  have hshare : share u p q = (u - p) / max (q - p) Scalar.epsilon := by
    rw [share, Scalar.atLeast_eq_max, Scalar.clamp_eq_self hnonneg hle]
  rw [hshare]
  exact ⟨rfl, hnonneg, hle⟩

theorem located_find_exact (u : K) {ps : List K} (hne : ps ≠ []) : (find u ps).Located u ps hne :=
  located_find hne fun p _ => le_total u p

/-- Between the first key frame and the last, the fraction is the plain quotient, and the two key
frames are apart. -/
theorem fraction_find (u : K) {ps : List K} (hne : ps ≠ []) (hfirst : ps.head hne < u)
    (hlast : u < ps.getLast hne) :
    ∃ p q, ps[(find u ps).lo]? = some p ∧ ps[(find u ps).hi]? = some q ∧ p < u ∧ u ≤ q ∧
      (find u ps).fraction = (u - p) / max (q - p) Scalar.epsilon ∧
      0 ≤ (find u ps).fraction ∧ (find u ps).fraction ≤ 1 := by
  have haround := (located_find_exact u hne).inside (not_le.mpr hfirst) (not_le.mpr hlast)
  obtain ⟨hlt, hlo, hhi⟩ := haround.least.1
  have hbefore : ps[(find u ps).lo] < u := by
    have hmissed : (find u ps).lo < ps.findIdx (u ≤ ·) := by
      rw [haround.first, haround.hi_eq]
      exact Nat.lt_succ_self _
    exact not_le.mp (of_decide_eq_false (List.not_of_lt_findIdx hmissed))
  have hp : ps[(find u ps).lo]? = some ps[(find u ps).lo] := List.getElem?_eq_getElem _
  have hq : ps[(find u ps).hi]? = some ps[(find u ps).lo + 1] := by
    rw [haround.hi_eq]
    exact List.getElem?_eq_getElem hlt
  refine ⟨_, _, hp, hq, hbefore, hhi, ?_⟩
  rw [haround.fraction_eq _ _ hp hq]
  exact share_eq hlo hhi

end Span

end

/-! ## The lookup as a whole -/

/-- **Key frames are looked up safely, and around the point.**

With any scalars and any order of the key frames, what is found is one of them, or one and the next,
and the sampler reads only key frames that are there.  In single precision without NaN and in exact
arithmetic, the span is at the first key frame for a point not after it, at the last one for a point
not before that, and otherwise between the first two neighbours around the point; in exact
arithmetic the fraction is then the quotient, from 0 to 1.  The key frames need not be in order. -/
theorem Span.find_brackets :
    (∀ {K : Type} [Scalar K] (u : K) (ps : List K), ps ≠ [] → (find u ps).Within ps.length) ∧
    (∀ {K : Type} [Scalar K] (m : Moment K) (id : ObjectId) (a : KeyFrameAnimation K),
      a.frames ≠ [] → ∃ h, m.valueOf id a =
        m.valueIn id a.frames (find (a.progress m.time) (a.frames.map (·.progress))) h) ∧
    (∀ (u : Float32) (ps : List Float32) (hne : ps ≠ []), u.isNaN = false →
      (∀ p ∈ ps, p.isNaN = false) → (find u ps).Located u ps hne) ∧
    (∀ {K : Type} [FieldScalar K] (u : K) (ps : List K) (hne : ps ≠ []),
      (find u ps).Located u ps hne ∧
      (ps.head hne < u → u < ps.getLast hne →
        ∃ p q, ps[(find u ps).lo]? = some p ∧ ps[(find u ps).hi]? = some q ∧ p < u ∧ u ≤ q ∧
          (find u ps).fraction = (u - p) / max (q - p) Scalar.epsilon ∧
          0 ≤ (find u ps).fraction ∧ (find u ps).fraction ≤ 1)) := by
  refine ⟨fun u ps => within_find u, fun m id a hne => ?_, fun u ps hne hu hps => ?_,
    fun u ps hne => ⟨located_find_exact u hne, fraction_find u hne⟩⟩
  · have hplaces : a.frames.map (·.progress) ≠ [] := by simpa using hne
    have hwithin := within_find (a.progress m.time) hplaces
    rw [List.length_map] at hwithin
    exact ⟨hwithin, m.valueOf_eq_valueIn id a hwithin⟩
  · exact located_find hne fun p hp => Scalar.le_total_of_isNaN hu (hps p hp)

/-- An animation with a jump half way: two key frames in one place. -/
def KeyFrameAnimation.jump : KeyFrameAnimation Rat where
  duration := 100
  frames := [
    { progress := 0, value := .scalar 1 }, { progress := 1 / 4, value := .scalar 5 },
    { progress := 1 / 2, value := .scalar 9 }, { progress := 1 / 2, value := .scalar 20 },
    { progress := 1, value := .scalar 30 }]

/-- At the jump the first of the two key frames is approached, and reached. -/
theorem Span.jump_brackets :
    (find (0.5 : Float32) [0, 0 / 0, 1]).Within 3 ∧
    (∃ h, Moment.valueOf ⟨Scene.pendulum, 50⟩ ⟨3⟩ .jump =
      Moment.valueIn ⟨Scene.pendulum, 50⟩ ⟨3⟩ KeyFrameAnimation.jump.frames
        (find (KeyFrameAnimation.jump.progress 50)
          (KeyFrameAnimation.jump.frames.map (·.progress))) h) ∧
    Moment.valueOf ⟨Scene.pendulum, 50⟩ ⟨3⟩ .jump = .ok (some (.scalar 9)) ∧
    (find (1 / 2 : Rat) [0, 1 / 4, 1 / 2, 1 / 2, 1]).Around (1 / 2) [0, 1 / 4, 1 / 2, 1 / 2, 1] ∧
    find (1 / 2 : Rat) [0, 1 / 4, 1 / 2, 1 / 2, 1] = ⟨1, 2, 1⟩ ∧
    (∀ p ∈ ([0, 0.25, 0.25, 1] : List Float32), p.isNaN = false) ∧
    (find (0.25 : Float32) [0, 0.25, 0.25, 1]).Around 0.25 [0, 0.25, 0.25, 1] ∧
    (find (0.25 : Float32) [0, 0.25, 0.25, 1]).hi = 1 := by
  have hwithin := find_brackets.1 (0.5 : Float32) [0, 0 / 0, 1] (by simp)
  have hread := find_brackets.2.1 ⟨Scene.pendulum, 50⟩ ⟨3⟩ .jump (by simp [KeyFrameAnimation.jump])
  have hvalue : Moment.valueOf ⟨Scene.pendulum, 50⟩ ⟨3⟩ .jump = .ok (some (.scalar 9)) := by cbv
  have hnumbers : ∀ p ∈ ([0, 0.25, 0.25, 1] : List Float32), p.isNaN = false := by decide +kernel
  have hsingle :=
    (find_brackets.2.2.1 0.25 [0, 0.25, 0.25, 1] (by simp) (by decide +kernel) hnumbers).inside
    (by decide +kernel) (by decide +kernel)
  have hexact := (find_brackets.2.2.2 (1 / 2 : Rat) [0, 1 / 4, 1 / 2, 1 / 2, 1] (by simp)).1.inside
    (by decide +kernel) (by decide +kernel)
  have hfind : find (1 / 2 : Rat) [0, 1 / 4, 1 / 2, 1 / 2, 1] = ⟨1, 2, 1⟩ := by cbv
  refine ⟨hwithin, hread, hvalue, hexact, hfind, hnumbers, hsingle, ?_⟩
  rw [← hsingle.first]
  decide +kernel

end Diorama
