import GuestVM.Proofs.Machine.Opening
import GuestVM.Proofs.Rows
import GuestVM.Proofs.Scene.Running

/-! # Situations

A situation is a world at any moment of its life: some of its machines may be in the middle of a
script, also several at once.  A move opens or closes a machine, begins or finishes a script in one,
or takes one step of a script that runs.  `Run allowed` is any number of moves of an allowed kind, so
what holds in all situations of a run holds at every point of every order of events.  Edits of objects
through references are no moves: they could make anything of an object.

What `World.enter` comes to without such edits, moves come to (`run_of_enter`). -/
set_option autoImplicit false

namespace GuestVM

/-- A script in the middle of its run, apart from the machine and the bridge. -/
structure Play where
  script : Script
  pending : List Pending := []
  memory : Memory := {}

structure Situation where
  world : World := {}
  plays : String → Option Play := fun _ => none

/-- A machine can be opened under a name that is free, as long as there are handles left: no open
machine has the handle that comes next. -/
structure World.CanOpen (w : World) (name : String) : Prop where
  free : w.instance? name = none
  unused : ∀ row ∈ w.instances, row.2.machine.handle ≠ ⟨w.nextHandle⟩

-- What a new machine holds does not matter here, and to compute one takes long.
attribute [local irreducible] Machine.opened

namespace Situation

/-- What runs in a machine, as a scene. -/
def scene? (now : Situation) (name : String) : Option Scene :=
  match now.world.instance? name, now.plays name with
  | some i, some p => some ⟨p.script, p.pending, ⟨i.machine, now.world.bridge, p.memory⟩⟩
  | _, _ => none

def showing (now : Situation) (name : String) (i : Instance) (a : Scene) : Situation where
  world := { now.world.put name { i with machine := a.stage.machine } with bridge := a.stage.bridge }
  plays := Function.update now.plays name (some ⟨a.script, a.pending, a.stage.memory⟩)

/-! ## Moves -/

inductive Move where
  | openBare (name : String) (config : Config)
  | openLinked (name : String) (config : Config)
  | close (name : String)
  | begin (name : String) (script : Script)
  | act (name : String)
  | finish (name : String)

inductive Next (now : Situation) : Move → Situation → Prop
  | openBare (name : String) (config : Config) (can : now.world.CanOpen name) :
      Next now (.openBare name config) { now with world := now.world.openBare name config }
  | openLinked (name : String) (config : Config) (can : now.world.CanOpen name) :
      Next now (.openLinked name config) { now with world := now.world.openLinked name config }
  | close (name : String) (idle : now.plays name = none) :
      Next now (.close name) { now with world := now.world.close name }
  | begin (name : String) (script : Script) (i : Instance)
      (present : now.world.instance? name = some i) (idle : now.plays name = none) :
      Next now (.begin name script)
        { now with plays :=
            Function.update now.plays name (some { script, memory := { bindings := i.bindings } }) }
  | act (name : String) (i : Instance) (a b : Scene) (present : now.world.instance? name = some i)
      (shown : now.scene? name = some a) (stepped : a.step = some b) (lawful : a.Lawful) :
      Next now (.act name) (now.showing name i b)
  | finish (name : String) (i : Instance) (o : Outcome) (memory : Memory)
      (present : now.world.instance? name = some i)
      (ended : now.plays name = some ⟨.done o, [], memory⟩) :
      Next now (.finish name)
        { world := now.world.put name { i with bindings := memory.bindings }
          plays := Function.update now.plays name none }

abbrev Run (allowed : Situation → Move → Prop) : Situation → Situation → Prop :=
  Relation.ReflTransGen fun now later => ∃ move, allowed now move ∧ Next now move later

theorem Run.mono {allowed wider : Situation → Move → Prop}
    (weaken : ∀ now move, allowed now move → wider now move) {now later : Situation}
    (run : Run allowed now later) : Run wider now later := by
  refine Relation.ReflTransGen.mono ?_ now later run
  intro earlier next given
  obtain ⟨move, may, moved⟩ := given
  exact ⟨move, weaken earlier move may, moved⟩

variable {now later : Situation} {move : Move} {name : String} {i j : Instance} {a : Scene}

theorem scene?_eq_some (shown : now.scene? name = some a) :
    ∃ i, now.world.instance? name = some i ∧ a.stage.machine = i.machine ∧
      a.stage.bridge = now.world.bridge ∧
      now.plays name = some ⟨a.script, a.pending, a.stage.memory⟩ := by
  unfold scene? at shown
  split at shown
  case h_1 i p present playing =>
      cases shown
      exact ⟨i, present, rfl, rfl, playing⟩
  case h_2 => cases shown

/-! ## What a move does to a machine -/

namespace World

variable {w : World} {config : Config} {other : String}

/-- What is open after an instance was put under a name was open before, or is that one. -/
theorem instance?_of_put {i : Instance} (after : (w.put name i).instance? other = some j) :
    (other = name ∧ j = i) ∨ w.instance? other = some j := by
  by_cases same : other = name
  · subst same
    rw [World.instance?_put_self] at after
    exact .inl ⟨rfl, (Option.some.inj after).symm⟩
  · rw [World.instance?_put_of_ne _ same] at after
    exact .inr after

theorem instance?_openBare (after : (w.openBare name config).instance? other = some j) :
    (other = name ∧ j = { machine := .opened ⟨w.nextHandle⟩ config }) ∨
      w.instance? other = some j := instance?_of_put after

theorem instance?_openLinked (after : (w.openLinked name config).instance? other = some j) :
    (other = name ∧ j = { machine := .opened ⟨w.nextHandle⟩ config
                          link := some (w.bridge.registry.register ⟨w.nextHandle⟩).1 }) ∨
      w.instance? other = some j := instance?_of_put after

end World

/-- Where the machine of an open instance comes from: it is as it was, or new, or its script has
taken a step. -/
theorem Next.origin (moved : Next now move later) (after : later.world.instance? name = some j) :
    (∃ i, now.world.instance? name = some i ∧ j.machine = i.machine ∧ j.link = i.link) ∨
      (∃ config, j.machine = .opened ⟨now.world.nextHandle⟩ config ∧ now.world.CanOpen name ∧
        (move = .openBare name config ∧ j.link = none ∨
          move = .openLinked name config ∧
            j.link = some (now.world.bridge.registry.register ⟨now.world.nextHandle⟩).1)) ∨
      ∃ i a b, move = .act name ∧ now.world.instance? name = some i ∧ now.scene? name = some a ∧
        a.step = some b ∧ a.stage.machine = i.machine ∧ j.machine = b.stage.machine ∧
        j.link = i.link := by
  cases moved with
  | openBare opened config can =>
      rcases World.instance?_openBare after with ⟨rfl, rfl⟩ | before
      · exact .inr (.inl ⟨config, rfl, can, .inl ⟨rfl, rfl⟩⟩)
      · exact .inl ⟨j, before, rfl, rfl⟩
  | openLinked opened config can =>
      rcases World.instance?_openLinked after with ⟨rfl, rfl⟩ | before
      · exact .inr (.inl ⟨config, rfl, can, .inr ⟨rfl, rfl⟩⟩)
      · exact .inl ⟨j, before, rfl, rfl⟩
  | close closed idle =>
      by_cases same : name = closed
      · subst same
        rw [World.instance?_close_self] at after
        cases after
      · rw [World.instance?_close_of_ne same] at after
        exact .inl ⟨j, after, rfl, rfl⟩
  | begin => exact .inl ⟨j, after, rfl, rfl⟩
  | act acting i a b present shown stepped =>
      rcases World.instance?_of_put after with ⟨rfl, rfl⟩ | before
      · obtain ⟨k, found, machine, -, -⟩ := scene?_eq_some shown
        rw [present] at found
        cases found
        exact .inr (.inr ⟨i, a, b, rfl, present, shown, stepped, machine, rfl, rfl⟩)
      · exact .inl ⟨j, before, rfl, rfl⟩
  | finish finished i o memory present =>
      rcases World.instance?_of_put after with ⟨rfl, rfl⟩ | before
      · exact .inl ⟨i, present, rfl, rfl⟩
      · exact .inl ⟨j, before, rfl, rfl⟩

/-- A script's step is a step of its scene, whatever else is open. -/
theorem Next.acted (moved : Next now (.act name) later) (shown : now.scene? name = some a) :
    ∃ i b, now.world.instance? name = some i ∧ a.stage.machine = i.machine ∧
      a.step = some b ∧ later = now.showing name i b := by
  cases moved with
  | act _ i x b present found stepped =>
      obtain ⟨j, present', machine, -, -⟩ := scene?_eq_some shown
      rw [present] at present'
      cases present'
      rw [shown] at found
      cases found
      exact ⟨i, b, present, machine, stepped, rfl⟩

theorem Next.lawful (moved : Next now (.act name) later) (shown : now.scene? name = some a) :
    a.Lawful := by
  cases moved with
  | act _ i x b present found stepped lawful =>
      cases shown.symm.trans found
      exact lawful

/-- Where the machine of an open instance goes: unless it is closed it stays as it is, or its script
takes a step. -/
theorem Next.onward (moved : Next now move later) (before : now.world.instance? name = some i)
    (kept : move ≠ .close name) :
    ∃ j, later.world.instance? name = some j ∧ j.link = i.link ∧
      (j.machine = i.machine ∨ ∃ a b, move = .act name ∧ now.scene? name = some a ∧
        a.step = some b ∧ a.stage.machine = i.machine ∧ j.machine = b.stage.machine) := by
  have others : ∀ (other : String) (x : Instance), name ≠ other →
      (now.world.put other x).instance? name = some i := by
    intro other x apart
    exact (World.instance?_put_of_ne _ apart).trans before
  cases moved with
  | openBare opened config can | openLinked opened config can =>
      have apart : name ≠ opened := by
        intro same
        rw [same, can.free] at before
        cases before
      exact ⟨i, others opened _ apart, rfl, .inl rfl⟩
  | close closed idle =>
      have apart : name ≠ closed := by
        intro same
        exact kept (same ▸ rfl)
      exact ⟨i, (World.instance?_close_of_ne apart).trans before, rfl, .inl rfl⟩
  | begin => exact ⟨i, before, rfl, .inl rfl⟩
  | act acting j a b present shown stepped =>
      by_cases same : name = acting
      · subst same
        obtain ⟨k, found, machine, -, -⟩ := scene?_eq_some shown
        rw [present] at before found
        cases before
        cases found
        exact ⟨_, World.instance?_put_self _, rfl, .inr ⟨a, b, rfl, shown, stepped, machine, rfl⟩⟩
      · exact ⟨i, others acting _ same, rfl, .inl rfl⟩
  | finish finished j o memory present =>
      by_cases same : name = finished
      · subst same
        rw [present] at before
        cases before
        exact ⟨_, World.instance?_put_self _, rfl, .inl rfl⟩
      · exact ⟨i, others finished _ same, rfl, .inl rfl⟩

/-- What new machines have and the steps of scripts keep, all machines have. -/
theorem Run.machines {allowed : Situation → Move → Prop} {P : Machine → Prop}
    (opened : ∀ h c, P (.opened h c))
    (step : ∀ now name a b, allowed now (.act name) → now.scene? name = some a → a.Lawful →
      a.step = some b → P a.stage.machine → P b.stage.machine)
    (run : Run allowed {} later) (present : later.world.instance? name = some j) : P j.machine := by
  induction run generalizing name j with
  | refl => cases present
  | tail before moved ih =>
      obtain ⟨move, may, moved⟩ := moved
      rcases moved.origin present with ⟨i, was, machine, -⟩ | ⟨config, machine, -⟩ |
        ⟨i, a, b, rfl, was, shown, stepped, here, machine, -⟩
      · rw [machine]
        exact ih was
      · rw [machine]
        exact opened _ _
      · rw [machine]
        apply step _ name a b may shown (moved.lawful shown) stepped
        rw [here]
        exact ih was

/-! ## What runs of scripts come to -/

def Anything : Situation → Move → Prop := fun _ _ => True

theorem showing_showing (b : Scene) :
    (now.showing name i a).showing name { i with machine := a.stage.machine } b =
      now.showing name i b := by
  simp [showing, World.put, List.filter_filter]

theorem scene?_showing : (now.showing name i a).scene? name = some a := by
  have present : (now.showing name i a).world.instance? name =
      some { i with machine := a.stage.machine } := World.instance?_put_self _
  have playing : (now.showing name i a).plays name =
      some ⟨a.script, a.pending, a.stage.memory⟩ := Function.update_self _ _ _
  simp only [scene?, present, playing]
  rfl

theorem next_showing {b : Scene} (stepped : a.step = some b) (lawful : a.Lawful) :
    Next (now.showing name i a) (.act name) (now.showing name i b) := by
  have moved : Next (now.showing name i a) (.act name) _ :=
    .act name { i with machine := a.stage.machine } a b (World.instance?_put_self _) scene?_showing
      stepped lawful
  rwa [showing_showing] at moved

/-- Steps from scenes of a kind are moves, if moves from such scenes are allowed. -/
theorem run_while {allowed : Situation → Move → Prop} {kind : Scene → Prop} {b : Scene}
    (steps : Relation.ReflTransGen (fun a b => kind a ∧ a.step = some b) a b)
    (may : ∀ x, kind x → x.Lawful ∧ allowed (now.showing name i x) (.act name)) :
    Run allowed (now.showing name i a) (now.showing name i b) :=
  steps.lift _ fun x _ step =>
    ⟨.act name, (may x step.1).2, next_showing step.2 (may x step.1).1⟩

theorem run_showing {b : Scene} (steps : Scene.LawfulSteps a b) :
    Run Anything (now.showing name i a) (now.showing name i b) :=
  run_while steps fun _ lawful => ⟨lawful, trivial⟩

theorem next_showing_done {o : Outcome} {s : Stage} (idle : now.plays name = none) :
    Next (now.showing name i ⟨.done o, [], s⟩) (.finish name)
      { world := { now.world.put name
          { i with machine := s.machine, bindings := s.memory.bindings } with bridge := s.bridge }
        plays := now.plays } := by
  have finished : Next (now.showing name i ⟨.done o, [], s⟩) (.finish name) _ :=
    .finish name { i with machine := s.machine } o s.memory (World.instance?_put_self _)
      (Function.update_self _ _ _)
  have plays : Function.update now.plays name none = now.plays := by
    rw [← idle, Function.update_eq_self]
  simpa [showing, World.put, List.filter_filter, plays] using finished

/-- A script that ends without edits is a run of moves, whatever goes on in other machines. -/
theorem run_of_enter {w after : World} {plays : String → Option Play} {fuel : Nat} {script : Script}
    {o : Outcome} {journal : List Document} (idle : plays name = none)
    (lawful : ∀ i, w.instance? name = some i → ∀ x, Scene.Steps ⟨script, [],
      { machine := i.machine, bridge := w.bridge, memory := { bindings := i.bindings } }⟩ x → x.Lawful)
    (entered : w.enter fuel name script = some (o, journal, after)) :
    Run Anything ⟨w, plays⟩ ⟨after, plays⟩ := by
  unfold World.enter at entered
  cases present : w.instance? name with
  | none => simp [present] at entered
  | some i =>
      simp only [present] at entered
      cases ran : Stage.run fuel script
          { machine := i.machine, bridge := w.bridge, memory := { bindings := i.bindings } } with
      | none => simp [ran] at entered
      | some ended =>
          obtain ⟨o', s⟩ := ended
          simp only [ran, Option.some.injEq, Prod.mk.injEq] at entered
          obtain ⟨rfl, -, rfl⟩ := entered
          have begun : Next ⟨w, plays⟩ (.begin name script) _ := .begin name script i present idle
          have shown : (Situation.mk w (Function.update plays name
              (some { script, memory := { bindings := i.bindings } }))).scene? name =
                some ⟨script, [], ⟨i.machine, w.bridge, { bindings := i.bindings }⟩⟩ := by
            simp [scene?, present]
          have done : Next ((Situation.mk w plays).showing name i ⟨.done o', [], s⟩) (.finish name) _ :=
            next_showing_done idle
          refine .head ⟨_, trivial, begun⟩ ?_
          have steps := Scene.LawfulSteps.of_steps (Scene.steps_of_run fuel script _ o' s ran [])
            (lawful i present)
          rcases Relation.ReflTransGen.cases_head steps with same | ⟨b, ⟨unedited, first⟩, rest⟩
          · cases same
            have ended : Next ⟨w, Function.update plays name
                (some { script := .done o', memory := { bindings := i.bindings } })⟩
                (.finish name) _ :=
              .finish name i o' _ present (Function.update_self _ _ _)
            rw [Function.update_idem, ← idle, Function.update_eq_self] at ended
            exact .single ⟨_, trivial, ended⟩
          · have moved := Next.act name i _ b present shown first unedited
            have onward : Run Anything ((Situation.mk w plays).showing name i b) _ :=
              run_showing rest
            have same : (Situation.mk w (Function.update plays name
                (some { script, memory := { bindings := i.bindings } }))).showing name i b =
                  (Situation.mk w plays).showing name i b := by
              simp [showing]
            rw [same] at moved
            exact .head ⟨_, trivial, moved⟩ (onward.tail ⟨_, trivial, done⟩)

/-! ## First moves -/

def beginning (script : Script) : Situation where
  world := World.openBare {} "vm" {}
  plays := Function.update (fun _ => none) "vm" (some { script })

theorem run_beginning {allowed : Situation → Move → Prop} (script : Script)
    (opens : allowed {} (.openBare "vm" {}))
    (begins : allowed { world := World.openBare {} "vm" {} } (.begin "vm" script)) :
    Run allowed {} (beginning script) := by
  have opened : Next {} (.openBare "vm" {}) _ := .openBare "vm" {} ⟨rfl, nofun⟩
  have begun : Next { world := World.openBare {} "vm" {} } (.begin "vm" script)
      (beginning script) := .begin "vm" script { machine := .opened ⟨1⟩ {} } rfl rfl
  exact .tail (.single ⟨_, opens, opened⟩) ⟨_, begins, begun⟩

/-- The situation in which a script has just begun shows that script. -/
theorem showing_beginning (script : Script) :
    (beginning script).showing "vm" { machine := .opened ⟨1⟩ {} }
      ⟨script, [], { machine := .opened ⟨1⟩ {} }⟩ = beginning script := by
  simp only [beginning, showing, Function.update_idem]
  rfl

def beginningLinked (script : Script) : Situation where
  world := World.openLinked {} "vm" {}
  plays := Function.update (fun _ => none) "vm" (some { script })

theorem run_beginningLinked {allowed : Situation → Move → Prop} (script : Script)
    (opens : allowed {} (.openLinked "vm" {}))
    (begins : allowed { world := World.openLinked {} "vm" {} } (.begin "vm" script)) :
    Run allowed {} (beginningLinked script) := by
  have opened : Next {} (.openLinked "vm" {}) _ := .openLinked "vm" {} ⟨rfl, nofun⟩
  have begun : Next { world := World.openLinked {} "vm" {} } (.begin "vm" script)
      (beginningLinked script) :=
    .begin "vm" script { machine := .opened ⟨1⟩ {}, link := some 1 } rfl rfl
  exact .tail (.single ⟨_, opens, opened⟩) ⟨_, begins, begun⟩

end Situation

end GuestVM
