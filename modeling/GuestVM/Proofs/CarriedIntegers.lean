import GuestVM.Proofs.Bridge.Events
import GuestVM.Proofs.Bridge.Holding

/-! # Integers on their way in and out

In every machine that a run comes to, host data goes in as new objects that depict what is held of it,
and comes out again as that.  It is what was given where every integer is a signed word.  Nothing is
refused on the way in: a size too large for that is held as a negative word, which is refused on its
way out, and such an integer of a document as a float, which is not. -/
set_option autoImplicit false

namespace GuestVM

/-- What becomes of host data in a machine. -/
structure Machine.TakesIn (m : Machine) (t : HostType) (x : t.Carrier) (v : Value) (m' : Machine) :
    Prop where
  kept : ∀ id o, m.object? id = some o → m'.object? id = some o
  depicts : m.Depicts m' (t.held x) v
  document : m'.fromGuest .document v = pure (t.held x).ordered
  back : m'.ReadsBack t x v

variable {m : Machine} {t : HostType} {x : t.Carrier}

theorem Act.intoGuest_takesIn (tidy : m.heap.Tidy) (copied : t.copied = true)
    (literal : (t.asDocument x).Literal) :
    ∃ v m', (intoGuest t x).run.run m = (.ok v, m') ∧ m.TakesIn t x v m' := by
  have proper := t.proper_held x literal
  obtain ⟨v, m', ran, grown, depicts⟩ := stores_documentValue (t.held x) proper m tidy
  have shallow := grown.lt_slots tidy
  exact ⟨v, m', by rw [intoGuest_eq t x copied, ran], fun _ _ => grown.object?, depicts,
    Machine.documentWithin_depicts depicts _ shallow,
    Machine.readsBack t x copied proper depicts shallow⟩

namespace Situation

variable {now : Situation} {name : String} {i : Instance}

theorem carried_integers (run : Run Anything {} now) (present : now.world.instance? name = some i)
    (copied : t.copied = true) (literal : (t.asDocument x).Literal) :
    (∃ v m', (Act.intoGuest t x).run.run i.machine = (.ok v, m') ∧ i.machine.TakesIn t x v m' ∧
      ((t.asDocument x).Proper → ∃ y, m'.fromGuest t v = pure y ∧
        (t.asDocument x).Alike (t.asDocument y))) ∧
      (t.held x = t.asDocument x ↔ (t.asDocument x).Proper) := by
  obtain ⟨v, m', ran, taken⟩ := Act.intoGuest_takesIn (tidy_of_run run present) copied literal
  refine ⟨⟨v, m', ran, taken, fun proper => ?_⟩, HostType.held_eq_iff literal⟩
  obtain ⟨same, stray⟩ := t.held_eq x proper
  obtain ⟨y, given, alike⟩ := taken.back.read stray
  exact ⟨y, given, same ▸ alike⟩

/-! ## A list of sizes -/

def sizes : List UInt64 := [1, 18446744073709551615]

/-- The second size goes in as another number, and the list is not read again. -/
theorem carried_integers_sizes : ∃ now i v m', Run Anything {} now ∧
    now.world.instance? "vm" = some i ∧
      (Act.intoGuest (.list .size) sizes).run.run i.machine = (.ok v, m') ∧
      i.machine.Depicts m' (.arr [.int 1, .int (-1)]) v ∧
      m'.fromGuest (.list .size) v = Machine.outOfRange (-1) "usize" := by
  have run : Run Anything {} (beginning (Script.ret .nil)) := run_beginning _ trivial trivial
  have present : (beginning (Script.ret .nil)).world.instance? "vm" =
      some { machine := .opened ⟨1⟩ {} } := rfl
  have literal : (HostType.asDocument (.list .size) sizes).Literal := by
    refine .arr _ (List.forall_mem_cons.mpr ⟨?_, List.forall_mem_singleton.mpr ?_⟩)
    · exact .int 1 (by decide) (by decide)
    · exact .int 18446744073709551615 (by decide) (by decide)
  obtain ⟨⟨v, m', ran, taken, -⟩, -⟩ := carried_integers run present rfl literal
  exact ⟨_, _, v, m', run, present, ran, taken.depicts, taken.back.refused (-1) rfl⟩

end Situation

end GuestVM
