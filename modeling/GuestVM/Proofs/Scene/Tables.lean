import GuestVM.Proofs.Machine.Tables
import GuestVM.Proofs.Scene.Visiting

/-! # Steps that write the table of a hash

A step that does not ask for an entry of a hash to be set or taken out leaves its table as it is, as
long as nothing is collected, and what the table notes of its keys goes on to hold. -/
set_option autoImplicit false

namespace GuestVM

/-! ## Keys -/

/-- What the table notes of its keys holds of them, and they are alive. -/
structure Machine.SoundKeys (m : Machine) (t : HashTable) : Prop where
  keyed : m.Keyed t
  alive : ∀ e ∈ t.entries, ∀ x, e.1 = .obj x → m.Live x

section Keys

variable {g : Grant} {m m' : Machine} {h x : ObjId} {t : HashTable}

theorem Machine.SoundKeys.removeAt (sound : m.SoundKeys t) (p : Nat) :
    m.SoundKeys (t.removeAt p) := by
  refine ⟨sound.keyed.removeAt p, fun e member => sound.alive e ?_⟩
  rw [← Array.mem_toList_iff, HashTable.entries_removeAt] at member
  exact Array.mem_toList_iff.mp (List.mem_of_mem_eraseIdx member)

theorem Change.soundKeys (change : Change g m m') (tidy : m.heap.Tidy) (unedited : g.edits = none)
    (quiet : g.sweeps = false) (sound : m.SoundKeys t) : m'.SoundKeys t := by
  have lives : ∀ x, m.Live x → m'.Live x := fun x live =>
    (Evolution.single change).live tidy quiet live
  refine ⟨sound.keyed.carry fun e member settled => ?_,
    fun e member x named => lives x (sound.alive e member x named)⟩
  refine change.keeps_key tidy settled (fun x _ => ?_) (sound.alive e member)
    fun x named => lives x (sound.alive e member x named)
  rw [unedited]
  exact nofun

theorem Evolution.soundKeys (evolution : Evolution g m m') (tidy : m.heap.Tidy)
    (unedited : g.edits = none) (quiet : g.sweeps = false) (sound : m.SoundKeys t) :
    m'.SoundKeys t := by
  induction evolution with
  | refl => exact sound
  | tail before change ih => exact change.soundKeys (Evolution.tidy before tidy) unedited quiet ih

end Keys

namespace Act

variable {α : Type} {a : Act α} {h : ObjId} {t : HashTable} {s s' : Stage}

theorem SparesTable.asked {x : α} (spares : SparesTable h t a s.machine)
    (tidy : s.machine.heap.Tidy) (asked : s.ask a = some (x, s'))
    (has : s.machine.HasTable h t) : s'.machine.HasTable h t := by
  have ran := (Stage.run_of_act (Stage.ask_eq_some.mp asked)).2
  have kept := spares tidy has
  rw [ran] at kept
  exact kept.2

end Act

namespace Scene

variable {a b : Scene} {h x : ObjId} {t : HashTable}

/-! ## Steps -/

/-- The step asks for an entry of the hash to be set or taken out. -/
def Writes (a : Scene) (h : ObjId) : Prop :=
  a.grant.drops = some h ∨ ∃ key v next, a.script = .guest (.hashSet (.obj h) key v) next

/-- The hash in which the script asks to have an entry set. -/
def fills? : Script → Option Value
  | .guest (.hashSet hash _ _) _ => some hash
  | _ => none

theorem writes_iff : a.Writes h ↔ a.grant.drops = some h ∨ fills? a.script = some (.obj h) := by
  refine or_congr_right ⟨?_, fun fills => ?_⟩
  · rintro ⟨key, v, next, script⟩
    rw [script]
    rfl
  · unfold fills? at fills
    split at fills
    case h_1 hash key v next script =>
        cases fills
        exact ⟨key, v, next, script⟩
    case h_2 => cases fills

instance (h : ObjId) : DecidablePred (Writes · h) := fun _ => decidable_of_iff _ writes_iff.symm

/-- The step changes the entries of the hash. -/
def Rewrites (a : Scene) (h : ObjId) : Prop :=
  a.Writes h ∧ ∃ b, a.step = some b ∧
    b.stage.machine.body? (.obj h) ≠ a.stage.machine.body? (.obj h)

/-- A step that does not write a hash leaves its table. -/
theorem keeps_table_of_unwritten (stepped : a.step = some b) (tidy : a.stage.machine.heap.Tidy)
    (lawful : a.Lawful) (quiet : a.grant.sweeps = false) (unwritten : ¬ a.Writes h)
    (has : a.stage.machine.HasTable h t) : b.stage.machine.HasTable h t := by
  have beside : ∀ d, d ≠ h → a.Drops (some d) → b.stage.machine.HasTable h t :=
    fun d apart may => (step_evolution_dropping may stepped tidy).1.keeps_table tidy
      ⟨⟨d, rfl, apart⟩, lawful, quiet⟩ has
  have apart : (⟨h.slot + 1⟩ : ObjId) ≠ h := fun same =>
    Nat.succ_ne_self _ (congrArg ObjId.slot same)
  obtain ⟨script, pending, s⟩ := a
  cases script with
  | guest r next =>
      cases r with
      | hashSet h' key v =>
          obtain ⟨⟨r, after⟩, asked, rfl⟩ := Option.map_eq_some_iff.mp stepped
          have other : h' ≠ .obj h := by
            rintro rfl
            exact unwritten (.inr ⟨key, v, next, rfl⟩)
          exact (Act.sparesTable_hashSet other key v).attempt.asked tidy asked has
      | hashDelete h' key =>
          obtain ⟨⟨r, after⟩, asked, rfl⟩ := Option.map_eq_some_iff.mp stepped
          have other : h' ≠ .obj h := by
            rintro rfl
            exact unwritten (.inl rfl)
          exact (Act.sparesTable_hashDelete other key).attempt.asked tidy asked has
      | hashClear h' =>
          obtain ⟨⟨r, after⟩, asked, rfl⟩ := Option.map_eq_some_iff.mp stepped
          have other : h' ≠ .obj h := by
            rintro rfl
            exact unwritten (.inl rfl)
          exact (Act.sparesTable_hashClear other).attempt.asked tidy asked has
      | _ => exact beside _ apart trivial
  | bridge r next =>
      cases r with
      | intoGuest type data =>
          obtain ⟨⟨v, after⟩, asked, rfl⟩ := Option.map_eq_some_iff.mp stepped
          obtain ⟨bridge, middle, asked, same⟩ := Stage.askBridge_eq_some asked
          have spares : Act.SparesTable h t
              ((Bridge.answer (.intoGuest type data)).run s.bridge) s.machine :=
            (Act.sparesTable_intoGuest type data s.machine).bind fun _ _ _ _ => .pure _
          exact same ▸ spares.asked tidy asked has
      | _ => exact beside _ apart trivial
  | done o =>
      cases drops : (Scene.mk (.done o) pending s).grant.drops with
      | none => exact beside _ apart (.inl drops)
      | some d =>
          refine beside d (fun same => unwritten (.inl ?_)) (.inr drops)
          rw [drops, same]
  | _ => exact beside _ apart trivial

theorem step_keeps_table (stepped : a.step = some b) (lawful : a.Lawful)
    (tidy : a.stage.machine.heap.Tidy) (walking : a.stage.machine.heap.walks ≠ 0) (unwritten : ¬ a.Rewrites h)
    (has : a.stage.machine.HasTable h t) : b.stage.machine.HasTable h t := by
  by_cases writes : a.Writes h
  · rw [Machine.hasTable_iff] at has ⊢
    have same : b.stage.machine.body? (.obj h) = a.stage.machine.body? (.obj h) := by
      by_contra differs
      exact unwritten ⟨writes, b, stepped, differs⟩
    rw [same, has]
  · rcases step_walking stepped tidy walking with ⟨quiet, -⟩ | same
    · exact keeps_table_of_unwritten stepped tidy lawful quiet writes has
    · rwa [same]

theorem step_soundKeys (stepped : a.step = some b) (lawful : a.Lawful)
    (tidy : a.stage.machine.heap.Tidy) (walking : a.stage.machine.heap.walks ≠ 0)
    (sound : a.stage.machine.SoundKeys t) : b.stage.machine.SoundKeys t := by
  rcases step_walking stepped tidy walking with ⟨quiet, evolution⟩ | same
  · exact evolution.soundKeys tidy lawful quiet sound
  · rwa [same]

theorem step_allCoherent (stepped : a.step = some b) (lawful : a.Lawful)
    (tidy : a.stage.machine.heap.Tidy) (all : a.stage.machine.AllCoherent) :
    b.stage.machine.AllCoherent := (step_evolution stepped tidy).1.allCoherent tidy lawful all

/-- While nothing is taken out of a hash each of its identities stays at its place. -/
theorem step_keys_prefix (stepped : a.step = some b) (lawful : a.Lawful)
    (tidy : a.stage.machine.heap.Tidy) (walking : a.stage.machine.heap.walks ≠ 0)
    (kept : a.grant.drops ≠ some h) (all : a.stage.machine.AllCoherent)
    (has : a.stage.machine.HasTable h t) :
    ∃ t', b.stage.machine.HasTable h t' ∧ t.keys.toList <+: t'.keys.toList := by
  rcases step_walking stepped tidy walking with ⟨quiet, evolution⟩ | same
  · exact evolution.keys_prefix tidy lawful quiet kept all has
  · rw [same]
    exact ⟨t, has, List.prefix_rfl⟩

end Scene

namespace Situation

attribute [local irreducible] Machine.opened

variable {now : Situation} {name : String} {i : Instance} {a : Scene}
  {allowed : Situation → Move → Prop}

theorem Run.allCoherent (run : Run allowed {} now) (present : now.world.instance? name = some i) :
    i.machine.AllCoherent := by
  have both : i.machine.heap.Tidy ∧ i.machine.AllCoherent := by
    refine Run.machines (P := fun m => m.heap.Tidy ∧ m.AllCoherent) ?_ ?_ run present
    · intro h c
      have original := Machine.original_opened h c
      exact ⟨original.tidy, .of_original original⟩
    · intro now name a b _ _ lawful stepped holds
      exact ⟨(Scene.step_evolution stepped holds.1).1.tidy holds.1,
        Scene.step_allCoherent stepped lawful holds.1 holds.2⟩
  exact both.2

theorem allCoherent_of_shown (run : Run allowed {} now) (shown : now.scene? name = some a) :
    a.stage.machine.AllCoherent := by
  obtain ⟨i, present, machine, -⟩ := scene?_eq_some shown
  rw [machine]
  exact run.allCoherent present

end Situation

end GuestVM
