import GuestVM.Proofs.Bridge.Events
import GuestVM.Proofs.Bridge.Returning
import GuestVM.Proofs.Machine.Storing

/-! # Documents survive the machine

In every machine that a run comes to, a proper document goes in as new objects that depict it, entry
by entry, and comes out again equal but for the order of members, and equal in all if its members
were in order.  What lived before is as it was, and reading changes nothing. -/
set_option autoImplicit false

namespace GuestVM

variable {m : Machine} {d : Document}

/-- Reading gives back what was stored. -/
theorem Act.intoGuest_document (tidy : m.heap.Tidy) (proper : d.Proper) :
    ∃ v m', (intoGuest .document d).run.run m = (.ok v, m') ∧ m.Grows .nil d.height m' ∧
      m.Depicts m' d v ∧ m'.fromGuest .document v = pure d.ordered := by
  obtain ⟨v, m', ran, grown, depicts⟩ := stores_documentValue d proper m tidy
  exact ⟨v, m', ran, grown, depicts,
    Machine.documentWithin_depicts depicts _ (grown.lt_slots tidy)⟩

namespace Stage

variable {s : Stage} {t : HostType} {x : t.Carrier} {v : Value} {m' : Machine}

theorem askBridge_intoGuest (ran : (Act.intoGuest t x).run.run s.machine = (.ok v, m')) :
    s.askBridge (Bridge.answer (.intoGuest t x)) = some (v, { s with machine := m' }) :=
  askBridge_of_run ran

theorem askBridge_fromGuest (comes : s.machine.fromGuest t v = pure x) :
    s.askBridge (Bridge.answer (.fromGuest t v)) = some (.ok x, s) := by
  let reads : Act (Except HostError t.Carrier) := do
    Act.ofOption ((← (show Act Machine from get)).fromGuest t v).run
  have ran : reads.run.run s.machine = (.ok (.ok x), s.machine) := by
    rw [Act.run_get_bind, comes]
    rfl
  exact askBridge_of_run ran

end Stage

/-- Host code that passes a document through the guest. -/
def Script.passDocument (d : Document) (next : Value → Except HostError Document → Script) :
    Script :=
  .bridge (.intoGuest .document d) fun v => .bridge (.fromGuest .document v) (next v)

theorem Scene.steps_passDocument {s : Stage} {v : Value} {m' : Machine} {d' : Document}
    (goes : (Act.intoGuest .document d).run.run s.machine = (.ok v, m'))
    (comes : m'.fromGuest .document v = pure d')
    (next : Value → Except HostError Document → Script) (rest : List Pending) :
    Steps ⟨.passDocument d next, rest, s⟩ ⟨next v (.ok d'), rest, { s with machine := m' }⟩ := by
  let within : Stage := { s with machine := m' }
  have first : Scene.step ⟨.passDocument d next, rest, s⟩ =
      some ⟨.bridge (.fromGuest .document v) (next v), rest, within⟩ :=
    congrArg (Option.map _) (Stage.askBridge_intoGuest goes)
  have second : Scene.step ⟨.bridge (.fromGuest .document v) (next v), rest, within⟩ =
      some ⟨next v (.ok d'), rest, within⟩ :=
    congrArg (Option.map _) (within.askBridge_fromGuest comes)
  exact .tail (.single first) second

namespace Situation

variable {now : Situation} {name : String} {i : Instance}

theorem documents_survive (run : Run Anything {} now)
    (present : now.world.instance? name = some i) (proper : d.Proper) :
    ∃ v m' d', (Act.intoGuest .document d).run.run i.machine = (.ok v, m') ∧
      (∀ x o, i.machine.object? x = some o → m'.object? x = some o) ∧
      i.machine.Depicts m' d v ∧
      m'.fromGuest .document v = pure d' ∧ d.Alike d' ∧ (d.InOrder → d' = d) ∧
      ∀ next rest s, now.scene? name = some ⟨.passDocument d next, rest, s⟩ →
        Scene.Steps ⟨.passDocument d next, rest, s⟩
          ⟨next v (.ok d'), rest, { s with machine := m' }⟩ := by
  obtain ⟨v, m', goes, grown, depicts, comes⟩ :=
    Act.intoGuest_document (tidy_of_run run present) proper
  refine ⟨v, m', d.ordered, goes, fun _ _ => grown.object?, depicts, comes,
    Document.alike_ordered proper, Document.ordered_eq, ?_⟩
  intro next rest s shown
  obtain ⟨j, found, machine, -⟩ := scene?_eq_some shown
  cases present.symm.trans found
  rw [← machine] at goes
  exact Scene.steps_passDocument goes comes next rest

/-! ## A nested document -/

/-- The number 2.5 is among the items. -/
def nested : Document :=
  .obj [("a", .arr [.int 1, .float ⟨0x4004000000000000⟩, .str "x"]), ("b", .obj [("c", .null)])]

theorem nested_proper : nested.Proper := by
  refine .obj _ (by decide) ?_
  simp only [List.forall_mem_cons]
  refine ⟨.arr _ ?_, .obj _ (by decide) ?_, nofun⟩ <;> simp only [List.forall_mem_cons]
  · exact ⟨.int 1, .float _ (by decide), .str "x", nofun⟩
  · exact ⟨.null, nofun⟩

theorem nested_inOrder : nested.InOrder := by
  refine .obj _ (by decide) ?_
  simp only [List.forall_mem_cons]
  refine ⟨.arr _ ?_, .obj _ (by decide) ?_, nofun⟩ <;> simp only [List.forall_mem_cons]
  · exact ⟨.int 1, .float _, .str "x", nofun⟩
  · exact ⟨.null, nofun⟩

theorem documents_survive_nested : ∃ now i v m', Run Anything {} now ∧
    now.world.instance? "vm" = some i ∧ i.machine.Depicts m' nested v ∧
      m'.fromGuest .document v = pure nested := by
  have run : Run Anything {} (beginning (Script.ret .nil)) := run_beginning _ trivial trivial
  have present : (beginning (Script.ret .nil)).world.instance? "vm" =
      some { machine := .opened ⟨1⟩ {} } := rfl
  obtain ⟨v, m', d', -, -, depicts, comes, -, same, -⟩ :=
    documents_survive run present nested_proper
  obtain rfl := same nested_inOrder
  exact ⟨_, _, v, m', run, present, depicts, comes⟩

end Situation

end GuestVM
