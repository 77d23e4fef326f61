import GuestVM.Proofs.Bridge.Hosting
import GuestVM.Proofs.Bridge.Reraising
import GuestVM.Proofs.NoDangling

/-! # Failed definitions keep their callables

A callable is registered before it is installed, and an installation that raises takes nothing back:
its number leads to the callable for as long as the table is there and nobody takes the callable out,
although the number was told to nobody.  Definitions in a row, failed or not, add one callable
each. -/
set_option autoImplicit false

namespace GuestVM

/-! ## Tables that gain callables -/

namespace Tables

variable {t : Tables} {k j : Nat} {c : Callable} {aspec : Aspec}

/-- The number that the next callable of an index gets. -/
def nextNumber (t : Tables) (k : Nat) : Nat := ((t.table? k).getD {}).slots.size

theorem nextNumber_register :
    (t.register k c aspec).2.nextNumber k = t.nextNumber k + 1 := by
  simp only [nextNumber, register, table?_put_self, Option.getD_some]
  exact Array.size_push _

theorem count_register : (t.register k c aspec).2.count k = t.count k + 1 := by
  simp only [count, register, table?_put_self, Option.map_some, Option.getD_some,
    CallableTable.register, CallableTable.count, Array.toList_push, List.countP_append]
  cases t.table? k with
  | none => rfl
  | some table => simp

theorem count_register_of_ne (apart : j ≠ k) :
    (t.register k c aspec).2.count j = t.count j := by
  simp only [count, register, table?_put_of_ne _ apart]

/-- Numbers that were not given out lead nowhere. -/
theorem lookup_of_nextNumber_le {n : Nat} (beyond : t.nextNumber k ≤ n) : t.lookup k n = none := by
  rw [lookup]
  cases found : t.table? k with
  | none => rfl
  | some table =>
      have outside : table.slots.size ≤ n := by simpa [nextNumber, found] using beyond
      simp [CallableTable.get?, Array.getElem?_eq_none outside]

/-- Under the index `k` some callables are there that were not, numbered in a row, and all else is as
it was. -/
structure Retains (before after : Tables) (k : Nat) (added : List (Callable × Aspec)) : Prop where
  count : after.count k = before.count k + added.length
  fresh : ∀ i, before.lookup k (before.nextNumber k + i) = none
  each : ∀ i c aspec, added[i]? = some (c, aspec) →
    after.lookup k (before.nextNumber k + i) = some ⟨before.nextNumber k + i, aspec, c⟩
  earlier : ∀ n, n < before.nextNumber k → after.lookup k n = before.lookup k n
  others : ∀ j, j ≠ k → after.count j = before.count j ∧
    ∀ n, after.lookup j n = before.lookup j n

end Tables

/-- The registrations of some callables under an index. -/
def Bridge.gains (k : Nat) (added : List (Callable × Aspec)) : List Bridge.Event :=
  added.map fun row => .gain k row.1 row.2

theorem Bridge.retains_gains (k : Nat) (added : List (Callable × Aspec)) (b : Bridge) :
    b.tables.Retains (b.afterAll (gains k added)).tables k added := by
  induction added generalizing b with
  | nil =>
      exact ⟨rfl, fun i => Tables.lookup_of_nextNumber_le (Nat.le_add_right _ i), fun i => nofun,
        fun _ _ => rfl, fun _ _ => ⟨rfl, fun _ => rfl⟩⟩
  | cons row rest ih =>
      obtain ⟨c, aspec⟩ := row
      let first := b.after (.gain k c aspec)
      have next : first.tables.nextNumber k = b.tables.nextNumber k + 1 :=
        Tables.nextNumber_register
      have later : first.tables.Retains (first.afterAll (gains k rest)).tables k rest := ih first
      have number : (b.tables.register k c aspec).1 = b.tables.nextNumber k := rfl
      constructor
      case count =>
        refine later.count.trans ?_
        rw [show first.tables.count k = b.tables.count k + 1 from Tables.count_register,
          List.length_cons]
        omega
      case fresh => exact fun i => Tables.lookup_of_nextNumber_le (Nat.le_add_right _ i)
      case each =>
        intro i c' aspec' there
        cases i with
        | zero =>
            cases there
            refine (later.earlier _ (by omega)).trans ?_
            have self : first.tables.lookup k (b.tables.register k c aspec).1 = _ :=
              Tables.lookup_register_self
            rwa [number] at self
        | succ i =>
            have told := later.each i c' aspec' there
            rw [next] at told
            rwa [show b.tables.nextNumber k + (i + 1) = b.tables.nextNumber k + 1 + i by omega]
      case earlier =>
        intro n below
        refine (later.earlier n (by omega)).trans ?_
        exact Tables.lookup_register_of_number (by rw [number]; omega)
      case others =>
        intro j apart
        obtain ⟨count, lookups⟩ := later.others j apart
        exact ⟨count.trans (Tables.count_register_of_ne apart),
          fun n => (lookups n).trans (Tables.lookup_register_of_index apart)⟩

/-! ## Definitions in a row -/

/-- What a definition of host code is made of. -/
structure Hosted where
  place : Placement
  name : String
  callable : Callable
  aspec : Aspec

/-- Makes definitions one after the other, and goes on with what came of them. -/
def Script.defineEach (k : Nat) :
    List Hosted → (List (Except Raised Nat) → Script) → Script
  | [], next => next []
  | d :: rest, next =>
    .defineHosted k d.place d.name d.callable.form d.callable.discipline d.callable.body d.aspec
      fun r => defineEach k rest fun rs => next (r :: rs)

def Hosted.rows (definitions : List Hosted) : List (Callable × Aspec) :=
  definitions.map fun d => (d.callable, d.aspec)

/-- How definitions have ended: each with its number or with an exception, or one of them has no
end. -/
inductive Scene.Defined (definitions tried : List Hosted)
    (next : List (Except Raised Nat) → Script) (rest : List Pending) (first : Nat) (b : Scene) : Prop
  | all (results : List (Except Raised Nat)) (whole : tried = definitions)
      (length : results.length = definitions.length)
      (numbers : ∀ i n, results[i]? = some (.ok n) → n = first + i)
      (script : b.script = next results) (pending : b.pending = rest)
  | stuck (begun : tried <+: definitions) (none : b.step = none)
      (installs : ∃ place text n aspec onward,
        b.script = .bridge (.defineCallable place text n aspec) onward)

/-- By induction on the definitions. -/
theorem Scene.steps_defineEach (k : Nat) (definitions : List Hosted)
    (next : List (Except Raised Nat) → Script) (rest : List Pending) (s : Stage) :
    ∃ tried b, LawfulSteps ⟨.defineEach k definitions next, rest, s⟩ b ∧
      b.stage.bridge = s.bridge.afterAll (Bridge.gains k (Hosted.rows tried)) ∧
      Defined definitions tried next rest (s.bridge.tables.nextNumber k) b := by
  induction definitions generalizing next s with
  | nil =>
      exact ⟨[], _, .refl, rfl, .all [] rfl rfl (fun i n => nofun) rfl rfl⟩
  | cons d others ih =>
      have steps := steps_defineHosted s k d.place d.name d.callable.form d.callable.discipline
        d.callable.body d.aspec (fun r => .defineEach k others fun rs => next (r :: rs)) rest
      have onward : ∀ (r : Except Raised Nat) (m : Machine),
          (∀ n, r = .ok n → n = s.bridge.tables.nextNumber k) →
          LawfulSteps ⟨.defineEach k (d :: others) next, rest, s⟩
            ⟨.defineEach k others fun rs => next (r :: rs), rest,
              { s.gaining k d.callable d.aspec with machine := m }⟩ →
          ∃ tried b, LawfulSteps ⟨.defineEach k (d :: others) next, rest, s⟩ b ∧
            b.stage.bridge = s.bridge.afterAll (Bridge.gains k (Hosted.rows tried)) ∧
            Defined (d :: others) tried next rest (s.bridge.tables.nextNumber k) b := by
        intro r m number reached
        obtain ⟨tried, b, further, bridge, defined⟩ := ih (fun rs => next (r :: rs))
          { s.gaining k d.callable d.aspec with machine := m }
        refine ⟨d :: tried, b, reached.trans further, bridge, ?_⟩
        have first : (s.gaining k d.callable d.aspec).bridge.tables.nextNumber k =
            s.bridge.tables.nextNumber k + 1 := Tables.nextNumber_register
        cases defined with
        | all results whole length numbers script pending =>
            refine .all (r :: results) (by rw [whole]) (by simp [length]) ?_ script pending
            intro i n there
            cases i with
            | zero => exact number n (Option.some.inj there)
            | succ i =>
                have told : n = (s.gaining k d.callable d.aspec).bridge.tables.nextNumber k + i :=
                  numbers i n there
                omega
        | stuck begun none installs =>
            exact .stuck (List.cons_prefix_cons.mpr ⟨rfl, begun⟩) none installs
      dsimp only at steps
      split at steps
      case h_1 => exact onward (.ok _) _ (fun n same => by cases same; rfl) steps
      case h_2 => exact onward (.error _) _ (fun n => nofun) steps
      case h_3 =>
          obtain ⟨onward, reached, none⟩ := steps
          have begun : [d] <+: d :: others := List.cons_prefix_cons.mpr ⟨rfl, List.nil_prefix⟩
          exact ⟨[d], _, reached, rfl, .stuck begun none ⟨_, _, _, _, onward, rfl⟩⟩

/-! ## Runs -/

namespace Situation

attribute [local irreducible] Machine.opened

variable {now later : Situation} {name : String} {a b : Scene} {k n : Nat} {slot : CallableSlot}

theorem run_of_steps (shown : now.scene? name = some a) (steps : Scene.LawfulSteps a b) :
    ∃ later, Run Anything now later ∧ later.scene? name = some b := by
  rcases steps.cases_head with rfl | ⟨c, ⟨lawful, stepped⟩, rest⟩
  · exact ⟨now, .refl, shown⟩
  · obtain ⟨i, present, -⟩ := scene?_eq_some shown
    have moved : Next now (.act name) (now.showing name i c) :=
      .act name i a c present shown stepped lawful
    exact ⟨now.showing name i b, .head ⟨_, trivial, moved⟩ (run_showing rest), scene?_showing⟩

/-- No callable of the index is taken out, and its table is not dropped. -/
def Keeps (k : Nat) (now : Situation) (move : Move) : Prop :=
  .drop k ∉ now.events move ∧ ∀ n, .lose k n ∉ now.events move

theorem lookup_of_keeps (run : Run Anything {} now) (onward : Run (Keeps k) now later)
    (found : now.world.bridge.tables.lookup k n = some slot) :
    later.world.bridge.tables.lookup k n = some slot := by
  induction onward with
  | refl => exact found
  | tail earlier moved ih =>
      obtain ⟨move, ⟨undropped, kept⟩, moved⟩ := moved
      have start : Run Anything {} _ := run.trans (Run.mono (fun _ _ _ => trivial) earlier)
      rw [bridge_of_next start moved]
      exact Bridge.lookup_afterAll ih (kept n) undropped

/-- Whatever comes of definitions of host code, each of them that was begun has put its callable
under a number of its own, and there it stays until it is taken out or the table is dropped. -/
theorem failed_definitions_retained {definitions : List Hosted}
    {next : List (Except Raised Nat) → Script} {rest : List Pending} {s : Stage}
    (run : Run Anything {} now)
    (shown : now.scene? name = some ⟨.defineEach k definitions next, rest, s⟩) :
    ∃ tried after b, Run Anything now after ∧ after.scene? name = some b ∧
      Scene.Steps ⟨.defineEach k definitions next, rest, s⟩ b ∧
      Scene.Defined definitions tried next rest (now.world.bridge.tables.nextNumber k) b ∧
      now.world.bridge.tables.Retains after.world.bridge.tables k (Hosted.rows tried) ∧
      ∀ later, Run (Keeps k) after later → ∀ i d, tried[i]? = some d →
        later.world.bridge.tables.lookup k (now.world.bridge.tables.nextNumber k + i) =
          some ⟨now.world.bridge.tables.nextNumber k + i, d.aspec, d.callable⟩ := by
  obtain ⟨tried, b, steps, bridge, defined⟩ :=
    Scene.steps_defineEach k definitions next rest s
  obtain ⟨after, onward, there⟩ := run_of_steps shown steps
  obtain ⟨-, -, -, before, -⟩ := scene?_eq_some shown
  obtain ⟨-, -, -, world, -⟩ := scene?_eq_some there
  dsimp only at before
  rw [before] at bridge defined
  have retains := now.world.bridge.retains_gains k (Hosted.rows tried)
  rw [← bridge, world] at retains
  refine ⟨tried, after, b, onward, there, steps.steps, defined, retains, ?_⟩
  intro later kept i d begun
  have row : (Hosted.rows tried)[i]? = some (d.callable, d.aspec) := by
    rw [Hosted.rows, List.getElem?_map, begun]
    rfl
  exact lookup_of_keeps (run.trans onward) kept (retains.each i _ _ row)

/-! ## Methods of an integer -/

/-- Integers have no singleton class, so there is no place for the method. -/
def onInteger : Hosted where
  place := .singletonMethod (.int 5)
  name := "work"
  callable := ⟨.bound, .direct, fun _ _ => Script.ret .nil⟩
  aspec := .any

/-- Ends with the number of definitions that failed. -/
def countFailures (results : List (Except Raised Nat)) : Script :=
  Script.ret (.int (Int64.ofNat (results.countP fun r => match r with | .ok _ => false | _ => true)))

def trying : Script := .defineEach 1 [onInteger, onInteger] countFailures

def tryingStage : Stage where
  machine := .opened ⟨1⟩ {}
  bridge := (World.openLinked {} "vm" {}).bridge

/-- The value with which a script ends. -/
def answer? : Script → Option Value
  | .done (.value v) => some v
  | _ => none

theorem eq_ret_of_answer? {script : Script} {v : Value} (ends : answer? script = some v) :
    script = Script.ret v := by
  unfold answer? at ends
  split at ends
  · rw [Option.some.inj ends]
    rfl
  · cases ends

/-- Both definitions fail. -/
theorem trying_replayed : ∃ c, carefully 4 ⟨trying, [], tryingStage⟩ = some c ∧
    c.script = Script.ret (.int 2) ∧ c.pending = [] := by
  have replayed : ((carefully 4 ⟨trying, [], tryingStage⟩).any fun c =>
      c.pending.isEmpty && decide (answer? c.script = some (.int 2))) = true := by
    rw [tryingStage, Machine.opened_eq]
    decide +kernel
  obtain ⟨c, reached, holds⟩ := (Option.any_eq_true _ _).mp replayed
  obtain ⟨none, script⟩ := (Bool.and_eq_true _ _).mp holds
  exact ⟨c, reached, eq_ret_of_answer? (of_decide_eq_true script), List.isEmpty_iff.mp none⟩

/-- Nothing was defined, and the table has both callables. -/
theorem failed_definitions_retained_integer : ∃ now after b, Run Anything {} now ∧
    now.scene? "vm" = some ⟨trying, [], tryingStage⟩ ∧ now.world.bridge.tables.count 1 = 0 ∧
      Run Anything now after ∧ after.scene? "vm" = some b ∧ b.script = Script.ret (.int 2) ∧
      after.world.bridge.tables.count 1 = 2 := by
  have run : Run Anything {} (beginningLinked trying) := run_beginningLinked trying trivial trivial
  have shown : (beginningLinked trying).scene? "vm" = some ⟨trying, [], tryingStage⟩ := rfl
  obtain ⟨tried, after, b, onward, there, steps, defined, retains, -⟩ :=
    failed_definitions_retained run shown
  obtain ⟨c, reached, script, pending⟩ := trying_replayed
  have halted : c.step = none := by
    obtain ⟨code, waiting, stage⟩ := c
    cases script
    cases pending
    rfl
  have first : Scene.Steps ⟨trying, [], tryingStage⟩ c :=
    (steps_carefully reached).lift id fun _ _ both => both.2
  have done : b.step = none := by
    cases defined with
    | all results whole length numbers script pending =>
        obtain ⟨code, waiting, stage⟩ := b
        cases script
        cases pending
        rfl
    | stuck begun none => exact none
  obtain rfl : b = c := Scene.steps_unique steps done first halted
  refine ⟨_, after, b, run, shown, rfl, onward, there, script, ?_⟩
  have whole : tried = [onInteger, onInteger] := by
    cases defined with
    | all results whole => exact whole
    | stuck begun none installs =>
        obtain ⟨_, _, _, _, _, installing⟩ := installs
        cases script.symm.trans installing
  rw [retains.count, whole]
  rfl

end Situation

end GuestVM
