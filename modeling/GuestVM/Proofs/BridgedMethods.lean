import GuestVM.Proofs.Bridge.Dispatching
import GuestVM.Proofs.Bridge.Lasting
import GuestVM.Proofs.Linked

/-! # Methods and the callables behind them

A callable that is registered under the index of a linked machine and installed as a method is
reached by every call that finds that method, as long as it is not taken out: under the index of that
machine, with the receiver and the arguments of the call, and once.  Between the installation and the
call anything may be opened, closed, registered, installed, taken out, collected and called, in this
machine and in others. -/
set_option autoImplicit false

namespace GuestVM

theorem Bridge.formOf_eq {b : Bridge} {h : Handle} {k n : Nat} {slot : CallableSlot}
    (held : b.registry.find h = some k) (found : b.tables.lookup k n = some slot)
    (missing : Form) : b.formOf h n missing = slot.form := by
  have index : b.registry.indexOf h = k := by
    rw [Registry.indexOf, held]
    rfl
  simp [formOf, callable?, index, found]

namespace Situation

attribute [local irreducible] Machine.opened

/-! ## Histories -/

/-- A script of a linked machine has just registered a callable under the index of that machine. -/
inductive Registered (name : String) (k n : Nat) (c : Callable) (aspec : Aspec) : Situation → Prop
  | intro {before after : Situation} {i : Instance} {a : Scene} {next : Nat → Script}
      (run : Run Orderly {} before) (present : before.world.instance? name = some i)
      (link : i.link = some k) (shown : before.scene? name = some a)
      (script : a.script = .register k c.form c.discipline c.body aspec next)
      (number : (before.world.bridge.tables.register k c aspec).1 = n)
      (moved : Next before (.act name) after) : Registered name k n c aspec after

/-- A callable has just been installed as a method under its number, with `p` for its proc. -/
inductive Installed (name : String) (k n : Nat) (c : Callable) (aspec : Aspec) (p : ObjId) :
    Situation → Prop
  | intro {start before after : Situation} {i : Instance} {a : Scene} {place : Placement}
      {text : String} {next : Except Raised ObjId → Script} {id home : ObjId} {s : Stage} {mid : Sym}
      {noArg : Bool}
      (registered : Registered name k n c aspec start) (held : Run (Holding name k n) start before)
      (shown : before.scene? name = some a)
      (script : a.script = .bridge (.defineCallable place text n aspec) next)
      (answered : a.stage.askBridge (Bridge.answer (.defineCallable place text n aspec)) =
        some (.ok id, s))
      (moved : Next before (.act name) after) (present : after.world.instance? name = some i)
      (member : home ∈ place.homes i.machine) (named : i.machine.symbols.check text = some mid)
      (row : i.machine.ownMethod? home mid = some ⟨p, noArg⟩) : Installed name k n c aspec p after

def LiveIn (name : String) (p : ObjId) (now : Situation) : Prop :=
  ∃ i, now.world.instance? name = some i ∧ i.machine.Live p

/-- A move that holds a callable, while the proc that was made for it is alive, and does not write
through that proc. Ids are used again, so an id still means the same proc when it has been alive all
along. -/
def Lasting (name : String) (k n : Nat) (p : ObjId) (now : Situation) (move : Move) : Prop :=
  Holding name k n now move ∧ LiveIn name p now ∧
    ∀ a, move = .act name → now.scene? name = some a → a.grant.owner ≠ some p

/-- A callable was installed with `p` for its proc, and all moves since then have been lasting. -/
def Available (name : String) (k n : Nat) (c : Callable) (aspec : Aspec) (p : ObjId)
    (now : Situation) : Prop :=
  ∃ installed, Installed name k n c aspec p installed ∧ Run (Lasting name k n p) installed now ∧
    LiveIn name p now

/-! ## What lasts -/

variable {now later : Situation} {name : String} {k n : Nat} {c : Callable} {aspec : Aspec}
  {p : ObjId} {i : Instance} {a : Scene}

/-- In a linked machine a callable is under a number, and a proc leads to that number. -/
structure Serves (name : String) (k n : Nat) (c : Callable) (aspec : Aspec) (p : ObjId)
    (now : Situation) : Prop where
  run : Run Orderly {} now
  offers : Offers name k n ⟨n, aspec, c⟩ now
  bridged : ∃ i e, now.world.instance? name = some i ∧ i.machine.Bridged p e c.form n

theorem Registered.offers (registered : Registered name k n c aspec now) :
    Run Orderly {} now ∧ Offers name k n ⟨n, aspec, c⟩ now := by
  obtain ⟨run, present, link, shown, script, number, moved⟩ := registered
  rename_i before i a next
  have gains : before.events (.act name) = [.gain k c aspec] := by
    simp only [events, shown, script]
    rfl
  have orderly : Orderly before (.act name) := by
    constructor
    · intro x found
      cases shown.symm.trans found
      obtain ⟨code, pending, stage⟩ := a
      cases script
      rfl
    · intro e member other j l here linked
      rw [gains] at member
      cases List.mem_singleton.mp member
      constructor <;> intro same <;> cases same
  have open_ : Move.act name ≠ .close name := by
    intro same
    cases same
  obtain ⟨j, after, same, -⟩ := moved.onward present open_
  refine ⟨run.tail ⟨_, orderly, moved⟩, j, after, same.trans link, ?_⟩
  rw [bridge_of_next run moved, gains, ← number]
  exact Tables.lookup_register_self

theorem Run.holding {start : Situation} {slot : CallableSlot}
    (held : Run (Holding name k n) start now) (run : Run Orderly {} start)
    (offers : Offers name k n slot start) : Run Orderly {} now ∧ Offers name k n slot now := by
  induction held with
  | refl => exact ⟨run, offers⟩
  | tail earlier moved ih =>
      obtain ⟨move, holding, moved⟩ := moved
      obtain ⟨run, offers⟩ := ih
      exact ⟨run.tail ⟨move, holding.1, moved⟩, offers_next run run.linked holding moved offers⟩

theorem Installed.serves (installed : Installed name k n c aspec p now) :
    Serves name k n c aspec p now := by
  obtain ⟨registered, held, shown, script, answered, moved, present, member, named, row⟩ := installed
  rename_i start before i a place text next id home s mid noArg
  obtain ⟨started, offered⟩ := registered.offers
  obtain ⟨run, offers⟩ := Run.holding held started offered
  obtain ⟨code, pending, stage⟩ := a
  cases script
  have quiet : before.events (.act name) = [] := by
    simp only [events, shown]
    rfl
  have holding : Holding name k n before (.act name) := by
    refine ⟨⟨?_, ?_⟩, ?_, ?_⟩
    · intro x found
      cases shown.symm.trans found
      rfl
    · rw [quiet]
      exact List.forall_mem_nil _
    · intro same
      cases same
    · rw [quiet]
      exact List.not_mem_nil
  refine ⟨run.tail ⟨_, holding.1, moved⟩, offers_next run run.linked holding moved offers, ?_⟩
  obtain ⟨x, b, present', machine, stepped, rfl⟩ := moved.acted shown
  obtain ⟨y, found, link, slot⟩ := offers
  cases present'.symm.trans found
  have tidy := tidy_of_run run present'
  have index := run.linked.registered name x k present' link
  obtain ⟨z, -, -, bridge, -⟩ := scene?_eq_some shown
  rw [← machine] at tidy index
  rw [← bridge] at index slot
  -- The answer to the request binds the callable in every home.
  have binds : ∀ c' ∈ place.homes s.machine, Act.Binds s.machine c' text aspec.isNone c.form n := by
    unfold Stage.askBridge at answered
    split at answered
    case h_1 result bridge' after asked =>
        cases answered
        obtain ⟨-, -, -, -, bound⟩ :=
          Stage.ask_evolution (Bridge.does_answer_defineCallable place text n aspec) tidy asked
        rw [Bridge.formOf_eq index slot] at bound
        exact bound id rfl
    case h_2 => cases answered
  have next_eq : b = ⟨next (.ok id), pending, s⟩ := by
    simp only [Scene.step, answered, Option.map_some, Option.some.injEq] at stepped
    exact stepped.symm
  subst next_eq
  cases present.symm.trans (World.instance?_put_self _)
  obtain ⟨q, e, mid', named', row', bridged⟩ := binds home member
  cases named'.symm.trans named
  cases row'.symm.trans row
  exact ⟨_, e, present, bridged⟩

theorem serves_next (serves : Serves name k n c aspec p now) {move : Move}
    (lasting : Lasting name k n p now move) (moved : Next now move later)
    (live : LiveIn name p later) : Serves name k n c aspec p later := by
  obtain ⟨run, offers, i, e, present, bridged⟩ := serves
  obtain ⟨holding, -, unwritten⟩ := lasting
  refine ⟨run.tail ⟨move, holding.1, moved⟩, offers_next run run.linked holding moved offers, ?_⟩
  obtain ⟨j, after, -, how⟩ := moved.onward present holding.2.1
  refine ⟨j, e, after, ?_⟩
  rcases how with same | ⟨a, b, rfl, shown, stepped, here, there⟩
  · rw [same]
    exact bridged
  · obtain ⟨x, found, alive⟩ := live
    cases after.symm.trans found
    obtain ⟨tidy, own⟩ := Run.ownEnvs run present
    have rebinds := holding.1.1 a shown
    rw [← here] at tidy own bridged
    rw [there] at alive ⊢
    exact Scene.step_keeps_bridged stepped tidy own rebinds (moved.lawful shown)
      (unwritten a rfl shown) alive bridged

theorem Available.serves (available : Available name k n c aspec p now) :
    Serves name k n c aspec p now := by
  obtain ⟨start, installed, run, live⟩ := available
  induction run with
  | refl => exact installed.serves
  | tail earlier moved ih =>
      obtain ⟨move, lasting, moved⟩ := moved
      exact serves_next (ih lasting.2.1) lasting moved live

/-! ## Calls -/

/-- A call that finds the method runs its callable once, for the machine that the call is made in,
with the receiver and the arguments of the call. The number has to be an integer of the machine; a
table that fits in memory has fewer rows than there are such integers. -/
theorem reaches_callable {receiver : Value} {text : String} {args : List Value} {method : Method}
    {next : Except Raised Value → Script} {rest : List Pending} {s : Stage}
    (available : Available name k n c aspec p now) (small : n < twoTo 63)
    (shown : now.scene? name = some ⟨.sendCaught receiver text args next, rest, s⟩)
    (enters : s.machine.Enters receiver (s.machine.symbols.intern text).1 args method)
    (resolved : method.proc = p) (admits : CallableSlot.Admits ⟨n, aspec, c⟩ args.length) :
    ∃ given mark entry,
      Scene.Dispatches s receiver text args c ⟨k, receiver, n⟩ given mark entry := by
  obtain ⟨run, ⟨i, present, link, found⟩, j, e, present', bridged⟩ := available.serves
  cases present.symm.trans present'
  obtain ⟨x, here, machine, bridge, -⟩ := scene?_eq_some shown
  cases present.symm.trans here
  have tidy := tidy_of_run run present
  have index := run.linked.registered name i k present link
  dsimp only at machine bridge
  rw [← machine] at tidy index bridged
  rw [← bridge] at index found
  have own : s.ownIndex = k := by
    rw [Stage.ownIndex, Registry.indexOf, index]
    rfl
  rw [← resolved] at bridged
  rw [← own] at found ⊢
  exact ⟨_, _, _, Scene.dispatches tidy enters bridged small found admits rfl⟩

def echo : Callable := ⟨.free, .direct, fun _ args => Script.ret args⟩

/-- A call of it as a method of `nil`. -/
def callEcho : Script := .sendCaught .nil "echo" [.int 7] fun _ => Script.ret .nil

def hostEcho : Script :=
  .defineHosted 1 (.method Builtin.object.id) "echo" .free .direct echo.body .any fun _ => callEcho

/-- The stage when the callable has been registered. -/
def echoStage : Stage where
  machine := .opened ⟨1⟩ {}
  bridge := ((World.openLinked {} "vm" {}).bridge).after (.gain 1 echo .any)

def echoInstalled : Option (Except Raised ObjId × Stage) :=
  echoStage.askBridge (Bridge.answer (.defineCallable (.method Builtin.object.id) "echo" 0 .any))

/-- In a machine the method is installed and can be called. -/
structure HasEcho (m : Machine) (p : ObjId) : Prop where
  named : m.symbols.check "echo" = some (m.symbols.intern "echo").1
  row : m.ownMethod? Builtin.object.id (m.symbols.intern "echo").1 = some ⟨p, false⟩
  live : m.Live p
  found : m.findMethod (m.classOf .nil) (m.symbols.intern "echo").1 = some ⟨p, false⟩
  few : 1 ≤ m.config.funcallArgcMax.toNat
  room : m.depth < m.config.maxCallDepth.toNat

instance (m : Machine) (p : ObjId) : Decidable (HasEcho m p) :=
  decidable_of_iff
    (m.symbols.check "echo" = some (m.symbols.intern "echo").1 ∧
      m.ownMethod? Builtin.object.id (m.symbols.intern "echo").1 = some ⟨p, false⟩ ∧ m.Live p ∧
      m.findMethod (m.classOf .nil) (m.symbols.intern "echo").1 = some ⟨p, false⟩ ∧
      1 ≤ m.config.funcallArgcMax.toNat ∧ m.depth < m.config.maxCallDepth.toNat)
    ⟨fun ⟨named, row, live, found, few, room⟩ => ⟨named, row, live, found, few, room⟩,
      fun has => ⟨has.named, has.row, has.live, has.found, has.few, has.room⟩⟩

theorem echo_installed : ∃ p s, echoInstalled = some (.ok p, s) ∧ HasEcho s.machine p := by
  have checked : (echoInstalled.any fun answered =>
      answered.1.toOption.any fun p => decide (HasEcho answered.2.machine p)) = true := by
    decide +kernel
  obtain ⟨⟨answer, s⟩, found, whole⟩ := (Option.any_eq_true _ _).mp checked
  obtain ⟨p, answered, has⟩ := (Option.any_eq_true _ _).mp whole
  cases answer with
  | error e => cases answered
  | ok q =>
      cases answered
      exact ⟨p, s, found, of_decide_eq_true has⟩

/-- The situation when the method has been installed and is about to be called. -/
def echoing (s : Stage) : Situation :=
  (beginningLinked hostEcho).showing "vm" { machine := .opened ⟨1⟩ {}, link := some 1 }
    ⟨callEcho, [], s⟩

theorem available_echo {p : ObjId} {s : Stage} (found : echoInstalled = some (.ok p, s))
    (has : HasEcho s.machine p) : Available "vm" 1 0 echo .any p (echoing s) := by
  let opened : Instance := { machine := .opened ⟨1⟩ {}, link := some 1 }
  -- What the script goes on with is left to its first step.
  let installing : Scene := (Scene.step ⟨hostEcho, [],
    { machine := .opened ⟨1⟩ {}, bridge := (World.openLinked {} "vm" {}).bridge }⟩).get rfl
  have registers : Next (beginningLinked hostEcho) (.act "vm")
      ((beginningLinked hostEcho).showing "vm" opened installing) :=
    .act "vm" opened _ installing rfl rfl rfl rfl
  have registered : Registered "vm" 1 0 echo .any
      ((beginningLinked hostEcho).showing "vm" opened installing) :=
    .intro (run_beginningLinked hostEcho trivial trivial) (i := opened) rfl rfl rfl rfl rfl registers
  have answered : installing.stage.askBridge (Bridge.answer
      (.defineCallable (.method Builtin.object.id) "echo" 0 .any)) = some (.ok p, s) := found
  have stepped : installing.step = some ⟨callEcho, [], s⟩ := by
    change Option.map _ (installing.stage.askBridge (Bridge.answer
      (.defineCallable (.method Builtin.object.id) "echo" 0 .any))) = _
    rw [answered]
    rfl
  have installs : Next ((beginningLinked hostEcho).showing "vm" opened installing) (.act "vm")
      (echoing s) := by
    have moved : Next ((beginningLinked hostEcho).showing "vm" opened installing) (.act "vm") _ :=
      .act "vm" { opened with machine := installing.stage.machine } installing _
        (World.instance?_put_self _) scene?_showing stepped rfl
    rwa [showing_showing] at moved
  have present : (echoing s).world.instance? "vm" = some { opened with machine := s.machine } :=
    World.instance?_put_self _
  have installed : Installed "vm" 1 0 echo .any p (echoing s) :=
    .intro registered .refl scene?_showing rfl found installs present (List.mem_singleton_self _)
      has.named has.row
  exact ⟨_, installed, .refl, _, present, has.live⟩

theorem reaches_callable_echo :
    ∃ p s given mark entry, echoInstalled = some (.ok p, s) ∧
      Available "vm" 1 0 echo .any p (echoing s) ∧
      Scene.Dispatches s .nil "echo" [.int 7] echo ⟨1, .nil, 0⟩ given mark entry := by
  obtain ⟨p, s, found, has⟩ := echo_installed
  have available := available_echo found has
  have enters : s.machine.Enters .nil (s.machine.symbols.intern "echo").1 [.int 7] ⟨p, false⟩ :=
    ⟨has.found, has.few, (by intro noArg; cases noArg), has.room⟩
  obtain ⟨given, mark, entry, reached⟩ :=
    reaches_callable available (by decide) scene?_showing enters rfl (fun _ => .inl (by decide))
  exact ⟨p, s, given, mark, entry, found, available, reached⟩

end Situation

end GuestVM
