/-
  Reading what was written.

  The reader goes through the tokens of a value and delivers it to the innermost open container
  (`JsonReader.run_tokens`); from there the text of a value is read back as the value, its numbers
  as what their digits spell (`Json.read_pretty`).  The nesting has to stay within the depth of the
  scope, and the members of the outermost object have to be wanted.
-/
import Diorama.Proofs.JsonScanning

namespace Diorama

/-- A value with its numbers as they are read back. -/
def Json.echo : Json → Json
  | .null => .null
  | .bool b => .bool b
  | .number n => .number n.echo
  | .text s => .text s
  | .array items => .array (items.map echo)
  | .object members => .object (members.map fun m => (m.1, echo m.2))
termination_by v => sizeOf v
decreasing_by
  · exact List.sizeOf_lt_of_mem ‹_› |>.trans (by simp)
  · exact Json.sizeOf_member_lt ‹_›

/-- The names of the members if the value is an object. -/
def Json.names : Json → List String
  | .object members => members.map Prod.fst
  | _ => []

namespace JsonReader

variable {scope : JsonScope} {stack : List JsonFrame}

/-- Goes through tokens. -/
def run (scope : JsonScope) (r : JsonReader) (tokens : List Token) : Except JsonFault JsonReader :=
  tokens.foldlM (step scope) r

/-- Tokens are read one after the other. -/
theorem run_cons (r : JsonReader) (t : Token) (ts : List Token) :
    run scope r (t :: ts) = step scope r t >>= fun r => run scope r ts := List.foldlM_cons

theorem run_append (r : JsonReader) (ts us : List Token) :
    run scope r (ts ++ us) = run scope r ts >>= fun r => run scope r us := List.foldlM_append

/-! ## Inside containers -/

/-- Items of an array are read if the array is. -/
theorem skims_array (h : skims scope stack = false) (items : List Json) :
    skims scope (.array items :: stack) = false := by
  cases stack with
  | nil => rfl
  | cons frame rest => rwa [skims, List.getLast?_cons_cons]

/-- A member of the outermost object is wanted. -/
def Wanted (scope : JsonScope) (stack : List JsonFrame) (key : String) : Prop :=
  stack = [] → scope.wants key = true

/-- Members are read if they are wanted and the object is. -/
theorem skims_object (h : skims scope stack = false) {key : String} (hkey : Wanted scope stack key)
    (members : List (String × Json)) : skims scope (.object members key :: stack) = false := by
  cases stack with
  | nil =>
    show (!scope.wants key) = false
    rw [hkey rfl]
    rfl
  | cons frame rest => rwa [skims, List.getLast?_cons_cons]

/-- A value that is wanted goes to the object it is in. -/
theorem deliver_object {key : String} (hkey : Wanted scope stack key)
    (members : List (String × Json)) (v : Json) : deliver scope (.object members key :: stack) v =
      ⟨.object ((key, v) :: members) key :: stack, .more⟩ := by
  cases stack with
  | nil => simp [deliver, hkey rfl]
  | cons frame rest => rfl

/-- What the reader does with the tokens of a value, wherever a value may stand. -/
def Delivers (scope : JsonScope) (stack : List JsonFrame) (v : Json) : Prop :=
  run scope ⟨stack, .value⟩ v.tokens = .ok (deliver scope stack v.echo)

/-! ## Arrays -/

/-- The tokens of a value do not begin with a closing bracket, so an array is not over. -/
theorem tokens_eq_cons (v : Json) : ∃ t ts, v.tokens = t :: ts ∧ t ≠ .closeArray := by
  cases v <;> rw [Json.tokens] <;> exact ⟨_, _, rfl, by simp⟩

/-- The first item may stand where the array may also end. -/
theorem run_item (items : List Json) (v : Json) (ts : List Token) :
    run scope ⟨.array items :: stack, .item⟩ (v.tokens ++ ts) =
      run scope ⟨.array items :: stack, .value⟩ (v.tokens ++ ts) := by
  obtain ⟨t, us, hv, ht⟩ := tokens_eq_cons v
  have hstep : step scope ⟨.array items :: stack, .item⟩ t =
      step scope ⟨.array items :: stack, .value⟩ t := by
    cases t with
    | closeArray => exact absurd rfl ht
    | _ => rfl
  rw [hv, List.cons_append, run_cons, run_cons, hstep]

/-- Items with commas between them, from the place of a value. -/
theorem run_items {v : Json} {rest : List Json} (items : List Json)
    (h : ∀ w ∈ v :: rest, ∀ items, Delivers scope (.array items :: stack) w) :
    run scope ⟨.array items :: stack, .value⟩
      ([Token.comma].intercalate ((v :: rest).map Json.tokens)) =
      .ok ⟨.array (((v :: rest).map Json.echo).reverse ++ items) :: stack, .more⟩ := by
  induction rest generalizing v items with
  | nil =>
    have hv : run scope ⟨.array items :: stack, .value⟩ v.tokens =
        .ok ⟨.array (v.echo :: items) :: stack, .more⟩ := h v List.mem_cons_self items
    simpa using hv
  | cons w rest ih =>
    have hv : run scope ⟨.array items :: stack, .value⟩ v.tokens =
        .ok ⟨.array (v.echo :: items) :: stack, .more⟩ := h v List.mem_cons_self items
    have hrest := ih (v.echo :: items) fun u hu => h u (List.mem_cons_of_mem v hu)
    rw [List.map_cons, List.map_cons, List.intercalate_cons_cons, List.append_assoc, run_append, hv]
    show run scope ⟨.array (v.echo :: items) :: stack, .value⟩
      ([Token.comma].intercalate ((w :: rest).map Json.tokens)) = _
    rw [hrest]
    simp

/-- An array is delivered with its items in order. -/
theorem run_array (hdepth : stack.length < scope.depth) {items : List Json}
    (h : ∀ w ∈ items, ∀ frame, Delivers scope (.array frame :: stack) w) :
    Delivers scope stack (.array items) := by
  have hopen : step scope ⟨stack, .value⟩ .openArray = .ok ⟨.array [] :: stack, .item⟩ :=
    if_pos (by simp [hdepth])
  rw [Delivers, Json.tokens, Json.echo, List.cons_append, run_cons, hopen]
  show run scope ⟨.array [] :: stack, .item⟩ _ = _
  cases items with
  | nil => rfl
  | cons v rest =>
    have hitems := run_items [] h
    have hfirst : run scope ⟨.array [] :: stack, .item⟩
          ([Token.comma].intercalate ((v :: rest).map Json.tokens)) =
        run scope ⟨.array [] :: stack, .value⟩
          ([Token.comma].intercalate ((v :: rest).map Json.tokens)) := by
      cases rest with
      | nil => simpa using run_item [] v []
      | cons w rest =>
        rw [List.map_cons, List.map_cons, List.intercalate_cons_cons, List.append_assoc]
        exact run_item [] v _
    rw [run_append, hfirst, hitems]
    show Except.ok (deliver scope stack (.array _)) = _
    simp

/-! ## Objects -/

/-- A member is its name, a colon and its value. -/
theorem run_member {key : String} {v : Json} (members : List (String × Json))
    (h : Delivers scope (.object members key :: stack) v) :
    run scope ⟨stack, .name members⟩ (.text (some key) :: .colon :: v.tokens) =
      .ok (deliver scope (.object members key :: stack) v.echo) := h

/-- Members with commas between them, from the place of a name. -/
theorem run_members {m : String × Json} {rest : List (String × Json)}
    (members : List (String × Json)) (hwanted : ∀ w ∈ m :: rest, Wanted scope stack w.1)
    (h : ∀ w ∈ m :: rest, ∀ members, Delivers scope (.object members w.1 :: stack) w.2) :
    ∃ key, run scope ⟨stack, .name members⟩ ([Token.comma].intercalate
        ((m :: rest).map fun w => .text (some w.1) :: .colon :: w.2.tokens)) =
      .ok ⟨.object (((m :: rest).map fun w => (w.1, w.2.echo)).reverse ++ members) key :: stack,
        .more⟩ := by
  induction rest generalizing m members with
  | nil =>
    refine ⟨m.1, ?_⟩
    have hm := run_member members (h m List.mem_cons_self members)
    rw [deliver_object (hwanted m List.mem_cons_self)] at hm
    simpa using hm
  | cons w rest ih =>
    have hm := run_member members (h m List.mem_cons_self members)
    obtain ⟨key, hrest⟩ := ih ((m.1, m.2.echo) :: members)
      (fun u hu => hwanted u (List.mem_cons_of_mem m hu)) fun u hu =>
        h u (List.mem_cons_of_mem m hu)
    refine ⟨key, ?_⟩
    rw [List.map_cons, List.map_cons, List.intercalate_cons_cons, List.append_assoc, run_append, hm,
      deliver_object (hwanted m List.mem_cons_self)]
    show run scope ⟨stack, .name ((m.1, m.2.echo) :: members)⟩ ([Token.comma].intercalate
      ((w :: rest).map fun w => .text (some w.1) :: .colon :: w.2.tokens)) = _
    rw [hrest]
    simp

/-- An object is delivered with its members in order. -/
theorem run_object (hdepth : stack.length < scope.depth) {members : List (String × Json)}
    (hwanted : ∀ m ∈ members, Wanted scope stack m.1)
    (h : ∀ m ∈ members, ∀ frame, Delivers scope (.object frame m.1 :: stack) m.2) :
    Delivers scope stack (.object members) := by
  have hopen : step scope ⟨stack, .value⟩ .openObject = .ok ⟨stack, .member []⟩ :=
    if_pos (by simp [hdepth])
  rw [Delivers, Json.tokens, Json.echo, List.cons_append, run_cons, hopen]
  show run scope ⟨stack, .member []⟩ _ = _
  cases members with
  | nil => rfl
  | cons m rest =>
    obtain ⟨key, hmembers⟩ := run_members [] hwanted h
    -- the first name may stand where the object may also end
    have hfirst : run scope ⟨stack, .member []⟩ ([Token.comma].intercalate
          ((m :: rest).map fun w => .text (some w.1) :: .colon :: w.2.tokens)) =
        run scope ⟨stack, .name []⟩ ([Token.comma].intercalate
          ((m :: rest).map fun w => .text (some w.1) :: .colon :: w.2.tokens)) := by
      rw [List.map_cons, List.intercalate_cons_cons_left]
      rfl
    rw [run_append, hfirst, hmembers]
    show Except.ok (deliver scope stack (.object _)) = _
    simp

/-! ## Values -/

/-- **The tokens of a value deliver the value**, as long as the nesting stays within the depth of
the scope. -/
theorem delivers_of_legible {limit : Nat} {v : Json} (h : v.Legible limit)
    (hskims : skims scope stack = false) (hdepth : stack.length + limit ≤ scope.depth)
    (hwanted : ∀ key ∈ v.names, Wanted scope stack key) : Delivers scope stack v := by
  induction h generalizing stack with
  | null =>
    rw [Delivers, Json.tokens, Json.echo]
    rfl
  | bool =>
    rw [Delivers, Json.tokens, Json.echo]
    rfl
  | text =>
    rw [Delivers, Json.tokens, Json.echo]
    rfl
  | @number _ n hn =>
    have hstep : step scope ⟨stack, .value⟩ (.number n.echo) =
        .ok (deliver scope stack (.number n.echo)) := if_pos (by simp [hn.2])
    rw [Delivers, Json.tokens, Json.echo, run_cons, hstep]
    rfl
  | @array depth items _ ih =>
    refine run_array (by omega) fun w hw frame => ?_
    refine ih w hw (skims_array hskims frame) ?_ fun key _ => ?_
    · rw [List.length_cons]
      omega
    · intro h
      cases h
  | @object depth members _ ih =>
    have hnames : ∀ m ∈ members, Wanted scope stack m.1 := fun m hm =>
      hwanted m.1 (List.mem_map_of_mem hm)
    refine run_object (by omega) hnames fun m hm frame => ?_
    refine ih m hm (skims_object hskims (hnames m hm) frame) ?_ fun key _ => ?_
    · rw [List.length_cons]
      omega
    · intro h
      cases h

end JsonReader

namespace Json

/-- **The text of a value is read back as the value**, its numbers as what their digits spell. -/
theorem read_pretty {scope : JsonScope} {v : Json} (h : v.Legible scope.depth)
    (hwanted : ∀ key ∈ v.names, scope.wants key = true) : read scope v.pretty = .ok v.echo := by
  have hdelivers : JsonReader.Delivers scope [] v :=
    JsonReader.delivers_of_legible h rfl (by simp) fun key hkey _ => hwanted key hkey
  have hrun : JsonReader.run scope .start v.tokens = .ok ⟨[], .done v.echo⟩ := hdelivers
  rw [read_eq_tokens, tokens_pretty h]
  show JsonReader.run scope .start v.tokens >>= JsonReader.finish = _
  rw [hrun]
  rfl

/-- **A legible value that is written out is read back as its echo.** -/
theorem readAs_pretty {α : Type} {scope : JsonScope} {take : Json → Option α} {v : Json}
    (h : v.Legible scope.depth) (hwanted : ∀ key ∈ v.names, scope.wants key = true) :
    readAs scope take v.pretty = (take v.echo).elim (.error .wrongShape) .ok := by
  rw [readAs, read_pretty h hwanted]
  cases h : take v.echo <;> simp [h, bind, Except.bind]

end Json
end Diorama
