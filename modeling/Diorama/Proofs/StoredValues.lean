/-
  Values that are stored as JSON.

  `Json.Carries depth j take whole a`: the value `j` can be read back with `depth` containers in
  each other, and what `take` gets from it then is `a`, if `whole` holds, and nothing otherwise.
  Floats decide about `whole`: one that is no number is written as `null`, which no float is read
  from, so a vector with such a component is lost as a whole; but where `null` stands for a property
  that is not set, the property is unset instead (`Json.carries_loose`).  Lists and optional values
  carry what their items carry.

  That a float which is a number is read back from its digits is an assumption about the float
  (`ReadsBack`).
-/
import Diorama.Proofs.JsonReading
import Diorama.Scene.Json

namespace Diorama

/-! ## Floats -/

/-- The text of a float is read back as the float. -/
def ReadsBack (x : Float32) : Prop := Json.readAs {} Json.single? (Json.ofSingle x).compact = .ok x

/-- The floats of the list that are numbers are read back. -/
def Faithful (xs : List Float32) : Prop := ∀ x ∈ xs, x.isFinite = true → ReadsBack x

/-- The floats of the list are numbers. -/
def AllFinite (xs : List Float32) : Prop := ∀ x ∈ xs, x.isFinite = true

section

variable {α : Type} {xs ys : List Float32} {as : List α} {scalars : α → List Float32}

/-- Scalars are written faithfully one by one. -/
@[simp] theorem faithful_append : Faithful (xs ++ ys) ↔ Faithful xs ∧ Faithful ys :=
  List.forall_mem_append

@[simp] theorem faithful_flatMap : Faithful (as.flatMap scalars) ↔ ∀ a ∈ as, Faithful (scalars a) :=
  List.forall_mem_flatMap

@[simp] theorem faithful_nil : Faithful [] ↔ True := by simp [Faithful]

/-- Scalars are finite one by one. -/
@[simp] theorem allFinite_append : AllFinite (xs ++ ys) ↔ AllFinite xs ∧ AllFinite ys :=
  List.forall_mem_append

@[simp] theorem allFinite_flatMap :
    AllFinite (as.flatMap scalars) ↔ ∀ a ∈ as, AllFinite (scalars a) := List.forall_mem_flatMap

@[simp] theorem allFinite_nil : AllFinite [] ↔ True := by simp [AllFinite]

@[simp] theorem allFinite_cons {x : Float32} :
    AllFinite (x :: xs) ↔ x.isFinite = true ∧ AllFinite xs :=
  List.forall_mem_cons

end

/-- A text that is read back as a scalar is that of a legible numeral. -/
theorem Numeral.legible_of_readAs {n : Numeral} {x : Float32}
    (h : Json.readAs {} Json.single? n.write = .ok x) : n.Legible ∧ n.echo.toSingle = x := by
  have hends : EndsNumeral [] := fun _ hc => by cases hc
  have htokens : Scan.tokens .idle n.write.toList = [.ofNumeral n.write.toList true] := by
    have hwrite := n.tokens_write hends
    rwa [List.append_nil] at hwrite
  rw [Json.readAs, Json.read_eq_tokens, htokens, Token.ofNumeral] at h
  cases hread : Numeral.read n.write.toList with
  | complete m =>
    have hecho := echo_of_read hread
    rw [hread] at h
    cases hdouble : m.toDouble?.isSome with
    | true =>
      have hstep : JsonReader.step {} .start (.number m) = .ok ⟨[], .done (.number m)⟩ :=
        if_pos (by rw [hdouble]; rfl)
      rw [List.foldlM_cons, hstep] at h
      cases h
      rw [← hecho] at hdouble
      exact ⟨⟨by rw [hread, hecho], hdouble⟩, by rw [hecho]⟩
    | false =>
      have hstep : JsonReader.step {} .start (.number m) = .error .malformed :=
        if_neg (by rw [hdouble]; decide)
      rw [List.foldlM_cons, hstep] at h
      cases h
  | unfinished =>
    rw [hread] at h
    cases h
  | invalid =>
    rw [hread] at h
    cases h

/-- A finite scalar that reads back is written as a legible numeral. -/
theorem ReadsBack.legible {x : Float32} (h : ReadsBack x) (hx : x.isFinite = true) :
    (Numeral.ofSingle x).Legible ∧ (Numeral.ofSingle x).echo.toSingle = x := by
  rw [ReadsBack, Json.ofSingle, if_pos hx, Json.compact] at h
  exact Numeral.legible_of_readAs h

/-! ## Members -/

namespace Json

@[simp] theorem echo_text (s : String) : (Json.text s).echo = .text s := by rw [echo]

/-- An object is read back member by member. -/
@[simp] theorem echo_object (members : List (String × Json)) :
    (Json.object members).echo = .object (members.map fun m => (m.1, m.2.echo)) := by rw [echo]

@[simp] theorem members?_object (members : List (String × Json)) :
    (Json.object members).members? = some members := rfl

@[simp] theorem text?_text (s : String) : (Json.text s).text? = some s := rfl

section

variable {α : Type} {name key : String} {v : Json} {rest : List (String × Json)} {missing : α}
  {take : Json → Option α}

/-- A member with another name is passed over. -/
theorem member?_cons_of_ne (h : key ≠ name) :
    member? ((key, v) :: rest) name = member? rest name := by
  simp [member?, h]

/-- The first member with the name is the one, if no other has it. -/
theorem member?_cons_self (h : ∀ m ∈ rest, m.1 ≠ name) :
    member? ((name, v) :: rest) name = some (some v) := by
  have hrest : rest.filter (fun m => m.1 = name) = [] := by simpa using h
  simp [member?, hrest]

/-- A required field is looked for among the other members. -/
@[simp] theorem required_cons_of_ne (h : key ≠ name) :
    required ((key, v) :: rest) name take = required rest name take := by
  rw [required, member?_cons_of_ne h, required]

@[simp] theorem required_cons_self (h : ∀ m ∈ rest, m.1 ≠ name) :
    required ((name, v) :: rest) name take = take v := by rw [required, member?_cons_self h]

@[simp] theorem optional_cons_of_ne (h : key ≠ name) :
    optional ((key, v) :: rest) name missing take = optional rest name missing take := by
  rw [optional, member?_cons_of_ne h, optional]

/-- A field that may be missing is taken if it is there. -/
@[simp] theorem optional_cons_self (h : ∀ m ∈ rest, m.1 ≠ name) :
    optional ((name, v) :: rest) name missing take = take v := by rw [optional, member?_cons_self h]

end

/-! ## What a value carries -/

/-- The value is read back, and what `take` gets from it is `a` if `whole` holds, and nothing
otherwise. -/
structure Carries {α : Type} (depth : Nat) (j : Json) (take : Json → Option α) (whole : Prop)
    (a : α) : Prop where
  legible : j.Legible depth
  taken : ∀ b, take j.echo = some b ↔ whole ∧ a = b

section

variable {α : Type} {depth : Nat} {write : α → Json} {take : Json → Option α} {whole : α → Prop}

/-- A value that may be unset; it is not written as `null` itself. -/
theorem Carries.option {o : Option α} (h : ∀ a ∈ o, Carries depth (write a) take (whole a) a)
    (hnull : ∀ a ∈ o, (write a).echo ≠ .null) :
    Carries depth (ofOption write o) (orNull take) (∀ a ∈ o, whole a) o := by
  cases o with
  | none =>
    refine ⟨.null depth, fun b => ?_⟩
    rw [ofOption, echo]
    simp [orNull]
  | some a =>
    have ha := h a rfl
    have hread : orNull take (write a).echo = (take (write a).echo).map some := by
      have hne := hnull a rfl
      cases hj : (write a).echo with
      | null => exact absurd hj hne
      | _ => rfl
    refine ⟨ha.legible, fun b => ?_⟩
    rw [ofOption, hread]
    simp [Option.map_eq_some_iff, ha.taken, and_assoc]

/-- A list of values. -/
theorem Carries.list {keep : α → α} {as : List α}
    (h : ∀ a ∈ as, Carries depth (write a) take (whole a) (keep a)) :
    Carries (depth + 1) (ofList write as) (listOf take) (∀ a ∈ as, whole a) (as.map keep) := by
  refine ⟨.array ?_, fun b => ?_⟩
  · intro v hv
    obtain ⟨a, ha, rfl⟩ := List.mem_map.mp hv
    exact (h a ha).legible
  · rw [ofList, echo, listOf]
    induction as generalizing b with
    | nil => simp
    | cons a as ih =>
      have ha := h a List.mem_cons_self
      have has := ih fun c hc => h c (List.mem_cons_of_mem a hc)
      simp [-List.map_map, -List.mapM_map, Option.bind_eq_some_iff, ha.taken, has, and_assoc]

/-- Optional values without floats. -/
theorem Carries.plainOption (h : ∀ a, Carries depth (write a) take True a)
    (hnull : take .null = none)
    (o : Option α) : Carries depth (ofOption write o) (orNull take) True o := by
  have ho := Carries.option (o := o) (fun a _ => h a) fun a _ hecho => by
    have ha := ((h a).taken a).mpr ⟨trivial, rfl⟩
    rw [hecho, hnull] at ha
    cases ha
  simpa using ho

/-- Lists of values without floats. -/
theorem Carries.plainList (h : ∀ a, Carries depth (write a) take True a) (as : List α) :
    Carries (depth + 1) (ofList write as) (listOf take) True as := by
  have has : Carries (depth + 1) (ofList write as) (listOf take) (∀ a ∈ as, True) (as.map id) :=
    Carries.list fun a _ => h a
  simpa using has

/-- A list comes back as a list, so it cannot be taken for a missing value. -/
theorem echo_ofList_ne_null {β : Type} (write : β → Json) (bs : List β) :
    (ofList write bs).echo ≠ .null := by
  rw [ofList, echo]
  simp

variable {scalars : α → List Float32}

/-- Optional values with floats. -/
theorem Carries.scalarOption (h : ∀ a, Faithful (scalars a) →
    Carries depth (write a) take (AllFinite (scalars a)) a) (hnull : ∀ a, (write a).echo ≠ .null)
    {o : Option α} (ho : Faithful (o.toList.flatMap scalars)) :
    Carries depth (ofOption write o) (orNull take) (AllFinite (o.toList.flatMap scalars)) o := by
  rw [faithful_flatMap] at ho
  have hoption :=
    Carries.option (fun a ha => h a (ho a (Option.mem_toList.mpr ha))) fun a _ => hnull a
  simpa using hoption

/-- Lists of values with floats. -/
theorem Carries.scalarList (h : ∀ a, Faithful (scalars a) →
    Carries depth (write a) take (AllFinite (scalars a)) a)
    {as : List α} (has : Faithful (as.flatMap scalars)) :
    Carries (depth + 1) (ofList write as) (listOf take) (AllFinite (as.flatMap scalars)) as := by
  rw [faithful_flatMap] at has
  have hlist : Carries (depth + 1) (ofList write as) (listOf take)
      (∀ a ∈ as, AllFinite (scalars a)) (as.map id) := Carries.list fun a ha => h a (has a ha)
  simpa using hlist

/-- What is made from a part that a value carries. -/
theorem Carries.bind {β : Type} {j : Json} {p : Prop} {a : α} {b : β} {f : α → Option β}
    (h : Carries depth j take p a) (hf : f a = some b) :
    Carries depth j (fun j => take j >>= f) p b := by
  refine ⟨h.legible, fun c => ?_⟩
  simp [Option.bind_eq_some_iff, h.taken, hf, and_assoc]

/-- The condition may be put in other words. -/
theorem Carries.congr {j : Json} {p q : Prop} {a : α} (h : Carries depth j take p a) (hpq : p ↔ q) :
    Carries depth j take q a := ⟨h.legible, fun b => by rw [h.taken, hpq]⟩

/-- A case whose contents stand under `data`. -/
theorem Carries.dataCase {β : Type} {j : Json} {p : Prop} {a : α} {read : Json → Option β}
    {f : α → β} {name : String} (h : Carries depth j take p a)
    (hread : ∀ j, read (.object [("type", .text name), ("data", j)]) = (take j).map f) :
    Carries (depth + 1) (dataCase name j) read p (f a) := by
  refine ⟨.object ?_, fun b => ?_⟩
  · simp [h.legible, Legible.text]
  · have hecho :
        (Diorama.dataCase name j).echo = .object [("type", .text name), ("data", j.echo)] := by
      simp [Diorama.dataCase]
    rw [hecho, hread]
    simp [Option.map_eq_some_iff, h.taken, and_assoc]

end

/-! ## Single values -/

/-- A text comes back as it is. -/
theorem carries_text (depth : Nat) (s : String) : Carries depth (.text s) text? True s :=
  ⟨.text depth s, fun b => by rw [echo]; simp [text?]⟩

theorem carries_bool (depth : Nat) (b : Bool) : Carries depth (.bool b) bool? True b :=
  ⟨.bool depth b, fun c => by rw [echo]; simp [bool?]⟩

/-- A float that has to be a number. -/
theorem carries_single (depth : Nat) {x : Float32} (h : x.isFinite = true → ReadsBack x) :
    Carries depth (ofSingle x) single? (x.isFinite = true) x := by
  by_cases hx : x.isFinite = true
  · obtain ⟨hlegible, hvalue⟩ := (h hx).legible hx
    rw [ofSingle, if_pos hx]
    refine ⟨.number depth hlegible, fun b => ?_⟩
    rw [echo, single?, hvalue]
    simp [hx]
  · rw [ofSingle, if_neg hx]
    refine ⟨.null depth, fun b => ?_⟩
    rw [echo]
    simp [single?, hx]

/-- A float that may be unset: one that is no number comes back unset. -/
theorem carries_loose (depth : Nat) {o : Option Float32} (h : Faithful o.toList) :
    Carries depth (ofOption ofSingle o) (orNull single?) True (o.filter Float32.isFinite) := by
  cases o with
  | none =>
    refine ⟨.null depth, fun b => ?_⟩
    rw [ofOption, echo]
    simp [orNull]
  | some x =>
    have hx := carries_single depth (h x (by simp))
    refine ⟨hx.legible, fun b => ?_⟩
    rw [ofOption]
    by_cases hfinite : x.isFinite = true
    · obtain ⟨-, hvalue⟩ := (h x (by simp) hfinite).legible hfinite
      rw [ofSingle, if_pos hfinite, echo]
      simp [orNull, single?, hvalue, Option.filter, hfinite]
    · rw [ofSingle, if_neg hfinite, echo]
      simp [orNull, Option.filter, hfinite]

/-- A whole number in the range of the word that is read. -/
theorem carries_whole (depth : Nat) (lo hi n : Int) (hlo : lo ≤ n) (hhi : n ≤ hi)
    (hlow : Int64.minValue.toInt ≤ n) (hhigh : n < UInt64.size) :
    (Json.number (.whole n)).Legible depth ∧
      whole? lo hi (Json.number (.whole n)).echo = some n := by
  refine ⟨.number depth (Numeral.legible_whole hlow hhigh), ?_⟩
  rw [echo, Numeral.echo_whole hlow hhigh]
  exact if_pos ⟨hlo, hhi⟩

/-- A byte is a whole number that can be read back. -/
theorem carries_byte (depth : Nat) (n : UInt8) : Carries depth (.ofNat n.toNat) uint8? True n := by
  have hn := n.toNat_lt
  have hmin : Int64.minValue.toInt ≤ 0 := by decide
  have hsize : UInt64.size = 18446744073709551616 := rfl
  obtain ⟨hlegible, hvalue⟩ := carries_whole depth 0 255 n.toNat (by omega) (by omega) (by omega)
    (by omega)
  refine ⟨hlegible, fun b => ?_⟩
  rw [uint8?, ofNat, hvalue]
  simp

/-- A signed number of 32 bits can be read back. -/
theorem carries_int32 (depth : Nat) (n : Int32) : Carries depth (.ofInt n.toInt) int32? True n := by
  have hlo := n.minValue_le_toInt
  have hhi := n.toInt_le
  have hmin : Int64.minValue.toInt ≤ Int32.minValue.toInt := by decide
  have hmax : Int32.maxValue.toInt < UInt64.size := by decide
  obtain ⟨hlegible, hvalue⟩ := carries_whole depth _ _ n.toInt hlo hhi (by omega) (by omega)
  refine ⟨hlegible, fun b => ?_⟩
  rw [int32?, ofInt, hvalue]
  simp

/-- A signed number of 64 bits can be read back. -/
theorem carries_int64 (depth : Nat) (n : Int64) : Carries depth (.ofInt n.toInt) int64? True n := by
  have hlo := n.minValue_le_toInt
  have hhi := n.toInt_le
  have hmax : Int64.maxValue.toInt < UInt64.size := by decide
  obtain ⟨hlegible, hvalue⟩ := carries_whole depth _ _ n.toInt hlo hhi hlo (by omega)
  refine ⟨hlegible, fun b => ?_⟩
  rw [int64?, ofInt, hvalue]
  simp

/-- A choice is stored under its name. -/
theorem carries_case (depth : Nat) {α : Type} {all : List α} {name : α → String} {a : α}
    (h : all.find? (fun b => name b = name a) = some a) :
    Carries depth (.text (name a)) (caseNamed? all name) True a :=
  ⟨.text depth _, fun b => by rw [echo]; simp [caseNamed?, text?, h]⟩

end Json

/-- An id is stored as its number. -/
theorem ObjectId.carries (depth : Nat) (id : ObjectId) :
    Json.Carries depth id.toJson ObjectId.ofJson? True id := by
  have hn := id.word.toNat_lt
  have hmin : Int64.minValue.toInt ≤ 0 := by decide
  have hsize : UInt64.size = 18446744073709551616 := rfl
  obtain ⟨hlegible, hvalue⟩ := Json.carries_whole depth 0 0xFFFFFFFF id.index
    (by omega) (by rw [index]; omega) (by omega) (by rw [index]; omega)
  refine ⟨hlegible, fun b => ?_⟩
  rw [toJson, ofJson?, Json.uint32?, Json.ofNat, hvalue]
  simp [index]

/-! ## Vectors, matrices, colours -/

section

variable (depth : Nat)

/-- The floats of a vector or a matrix. -/
theorem Json.carries_singles {xs : List Float32} (h : Faithful xs) :
    Carries (depth + 1) (ofList ofSingle xs) (listOf single?) (AllFinite xs) xs := by
  have hlist :
      Carries (depth + 1) (ofList ofSingle xs) (listOf single?) (AllFinite xs) (xs.map id) :=
    Carries.list fun x hx => carries_single depth (h x hx)
  rwa [List.map_id] at hlist

/-- A vector is stored as the list of its components, and likewise below. -/
theorem Vec2.carries {v : Vec2 Float32} (h : Faithful v.toList) :
    Json.Carries (depth + 1) v.toJson Vec2.ofJson? (AllFinite v.toList) v :=
  (Json.carries_singles depth h).bind rfl

theorem Vec3.carries {v : Vec3 Float32} (h : Faithful v.toList) :
    Json.Carries (depth + 1) v.toJson Vec3.ofJson? (AllFinite v.toList) v :=
  (Json.carries_singles depth h).bind rfl

theorem Vec4.carries {v : Vec4 Float32} (h : Faithful v.toList) :
    Json.Carries (depth + 1) v.toJson Vec4.ofJson? (AllFinite v.toList) v :=
  (Json.carries_singles depth h).bind rfl

/-- A matrix is stored row by row. -/
theorem Matrix3x2.carries {m : Matrix3x2 Float32} (h : Faithful m.toList) :
    Json.Carries (depth + 1) m.toJson Matrix3x2.ofJson? (AllFinite m.toList) m :=
  (Json.carries_singles depth h).bind rfl

theorem Matrix4x4.carries {m : Matrix4x4 Float32} (h : Faithful m.toList) :
    Json.Carries (depth + 1) m.toJson Matrix4x4.ofJson? (AllFinite m.toList) m :=
  (Json.carries_singles depth h).bind rfl

/-- A colour is stored as its four channels. -/
theorem Color.carries (c : Color) : Json.Carries (depth + 1) c.toJson Color.ofJson? True c := by
  have ha := Json.carries_byte depth c.a
  have hr := Json.carries_byte depth c.r
  have hg := Json.carries_byte depth c.g
  have hb := Json.carries_byte depth c.b
  refine ⟨.object ?_, fun d => ?_⟩
  · simp [ha.legible, hr.legible, hg.legible, hb.legible]
  · simp [toJson, ofJson?, Option.bind_eq_some_iff, ha.taken, hr.taken, hg.taken, hb.taken]

end
end Diorama
