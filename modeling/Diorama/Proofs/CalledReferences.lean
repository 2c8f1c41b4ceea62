/-
  Every reference is called, once.

  The slots of an object are listed by `Object.references`, and its body is written by another walk
  over the same content.  The two agree: the body calls what stands in the slots, slot by slot, but
  for slots for controllers (`Body.calls_references`).  That is shown of the calls in the
  statements, of the names that the body asks for, and of the written lines, in which the names
  stand in those calls and nowhere else.
-/
import Mathlib
import Diorama.Proofs.EmittedScenes
import Diorama.Proofs.MethodOrder
import Diorama.Proofs.SpelledLines

namespace Diorama

/-! ## The lines of a body -/

/-- The lines of a body; the line in the middle creates the object. -/
def Body.write (lang : Language) (b : Body) : List String :=
  b.before.map lang.statement ++ lang.creation b.creation :: b.after.map lang.statement

namespace Language.Neat

variable {lang : Language} (h : lang.Neat)

include h

/-- Statements are rows of pieces with their calls, whatever the objects are called. -/
theorem exists_rows {lines : List Statement} (hlegible : ∀ line ∈ lines, line.isLegible = true) :
    ∃ rows : List (List Piece),
      rows.flatMap (·.filterMap Piece.callee?) = (lines.flatMap Statement.calls).map (·.object) ∧
      ∀ name, (lines.map (·.named name)).map lang.statement = rows.map (Piece.line lang name) := by
  induction lines with
  | nil => exact ⟨[], rfl, fun _ => rfl⟩
  | cons line lines ih =>
    obtain ⟨hline, hlines⟩ := List.forall_mem_cons.mp hlegible
    obtain ⟨pieces, hcalls, -, -, htext⟩ := h.cites_statement hline
    obtain ⟨rows, hrows, hall⟩ := ih hlines
    refine ⟨pieces :: rows, ?_, fun name => ?_⟩
    · rw [List.flatMap_cons, List.flatMap_cons, List.map_append, hcalls, hrows]
    · exact List.cons_eq_cons.mpr ⟨htext name, hall name⟩

theorem exists_rows_write {names : Names} {body body' : Body} (hbody : body.Restates names body') :
    ∃ rows : List (List Piece),
      rows.flatMap (·.filterMap Piece.callee?) = body.calls.map (·.object) ∧
      ∀ name, (body.named name).write lang = rows.map (Piece.line lang name) := by
  obtain ⟨before, hbefore, htextBefore⟩ := h.exists_rows hbody.before
  obtain ⟨pieces, hcreation, -, -, htext⟩ := h.cites_creation hbody.creation
  obtain ⟨after, hafter, htextAfter⟩ := h.exists_rows hbody.after
  refine ⟨before ++ pieces :: after, ?_, fun name => ?_⟩
  · rw [List.flatMap_append, List.flatMap_cons, hbefore, hcreation, hafter, Body.calls,
      List.map_append, List.map_append, List.append_assoc]
  · rw [List.map_append, List.map_cons, ← htextBefore, ← htext, ← htextAfter]
    rfl

end Language.Neat

/-! ## Calls and references -/

namespace Body

variable {s : Scene Float32} {names : Names} {id : ObjectId} {o : Object Float32} {body : Body}

/-- A body asks for the names of what it calls and for no others. -/
theorem succeeds_iff_covers (h : ofObject s names id o = .ok body) (names' : Names) :
    Succeeds (ofObject s names' id o) ↔ names'.Covers o.callees := by
  have hcalling := (saying_ofObject h).calling
  constructor
  · rintro ⟨body', h'⟩ a ha
    have hcalling' := (saying_ofObject h').calling
    rw [← hcalling'.objects] at ha
    obtain ⟨c, hc, rfl⟩ := List.mem_map.mp ha
    exact ⟨_, hcalling'.named c hc⟩
  · intro hnames'
    have hnames : names.Covers o.callees := by
      intro a ha
      rw [← hcalling.objects] at ha
      obtain ⟨c, hc, rfl⟩ := List.mem_map.mp ha
      exact ⟨_, hcalling.named c hc⟩
    have hemittable := (ofObject_succeedsIff s id hnames).succeeds.mp ⟨body, h⟩
    exact (ofObject_succeedsIff s id hnames').succeeds.mpr hemittable

/-- **Every reference is called, once.**  The calls of a body are for what stands in the slots of
the object, slot by slot, but for slots for controllers, and each has the name of its object.  These
names are all that the body asks for.  A neat language writes every call once, and the names stand
nowhere else in the lines. -/
theorem calls_references (h : ofObject s names id o = .ok body) :
    body.calls.map (·.object) = (o.references.filter (·.slot.isCalled)).map (·.target) ∧
    (∀ c ∈ body.calls, names.get? c.object = some c.method) ∧
    (∀ names', (∃ body', ofObject s names' id o = .ok body') ↔
      ∀ r ∈ o.references, r.slot.isCalled = true → ∃ name, names'.get? r.target = some name) ∧
    ∀ lang : Language, lang.Neat → ∃ rows : List (List Piece),
      rows.flatMap (·.filterMap Piece.callee?) = body.calls.map (·.object) ∧
      ∀ names' body', ofObject s names' id o = .ok body' →
        body'.write lang = rows.map (Piece.line lang names'.nameOf) := by
  have hcalling := (saying_ofObject h).calling
  refine ⟨hcalling.objects, hcalling.named, fun names' => ?_, fun lang hlang => ?_⟩
  · refine (succeeds_iff_covers h names').trans
      ⟨fun hcovers r hr hcalled => ?_, fun hnamed a ha => ?_⟩
    · exact hcovers _ (List.mem_map_of_mem (List.mem_filter.mpr ⟨hr, hcalled⟩))
    · obtain ⟨r, hr, rfl⟩ := List.mem_map.mp ha
      obtain ⟨hr, hcalled⟩ := List.mem_filter.mp hr
      exact hnamed r hr hcalled
  · obtain ⟨rows, hcalls, hrows⟩ := hlang.exists_rows_write (restates_ofObject h h)
    refine ⟨rows, hcalls, fun names' body' h' => ?_⟩
    rw [(restates_ofObject h h').renamed, hrows]

/-- The metronome shows a visual twice and fades under a controller, which is passed over. -/
theorem metronome_calls_references : ∃ o body, Scene.metronome.get? ⟨0⟩ = some o ∧
    ofObject Scene.metronome (Names.ofScene Scene.metronome) ⟨0⟩ o = .ok body ∧
    o.references.map (·.target) = [⟨1⟩, ⟨1⟩, ⟨2⟩, ⟨3⟩] ∧
    body.calls.map (·.object) = [⟨1⟩, ⟨1⟩, ⟨2⟩] ∧
    ∃ rows : List (List Piece), rows.flatMap (·.filterMap Piece.callee?) = [⟨1⟩, ⟨1⟩, ⟨2⟩] ∧
      body.write .cppCx = rows.map (Piece.line .cppCx (Names.ofScene Scene.metronome).nameOf) := by
  have hbody : ofObject Scene.metronome (Names.ofScene Scene.metronome) ⟨0⟩
      { content := .containerVisual {} [⟨1⟩, ⟨1⟩]
        attached := { animators := [⟨"Opacity", ⟨2⟩, some ⟨3⟩⟩] } } =
      .ok {
        typeName := "ContainerVisual"
        creation := .compositor "CreateContainerVisual" []
        after := [
          .invoke (some "Children") "InsertAtTop" [.call ⟨⟨1⟩, "ShapeVisual"⟩],
          .invoke (some "Children") "InsertAtTop" [.call ⟨⟨1⟩, "ShapeVisual"⟩],
          .invoke none "StartAnimation"
            [.text "Opacity", .call ⟨⟨2⟩, "ExpressionAnimation"⟩]] } := by
    cbv
  obtain ⟨hcalls, -, -, hlines⟩ := calls_references hbody
  obtain ⟨rows, hrows, hwrite⟩ := hlines .cppCx Language.neat_cppCx
  exact ⟨_, _, rfl, hbody, rfl, hcalls, rows, hrows, hwrite _ _ hbody⟩

end Body
end Diorama
