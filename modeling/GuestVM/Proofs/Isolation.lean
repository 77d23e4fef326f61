import GuestVM.Proofs.Bridge.Events
import GuestVM.Proofs.Bridge.Reaching

/-! # Callables and the machines they are for

An index may pass from one machine to another, and its table of callables does not go with it.  As
long as every move leaves the bridge clean, so that nothing can be called under an index that no
machine holds, a machine reaches only what was registered under its index since it got it. -/
set_option autoImplicit false

namespace GuestVM

namespace Bridge

/-- Nothing can be called under an index that no machine holds. -/
def Clean (b : Bridge) : Prop :=
  ∀ j, j ≠ 0 → (∀ h, b.registry.find h ≠ some j) → ∀ f, b.tables.lookup j f = none

/-- An event leaves no callables under an index without a holder: an index is given up with an empty
table, and callables are registered under index 0 or an index that is held. -/
def Event.Tidies (b : Bridge) : Event → Prop
  | .forget h => ∀ j, b.registry.find h = some j → ∀ f, b.tables.lookup j f = none
  | .gain index _ _ => index = 0 ∨ ∃ h, b.registry.find h = some index
  | _ => True

def TidiesAll (b : Bridge) : List Event → Prop
  | [] => True
  | e :: rest => e.Tidies b ∧ (b.after e).TidiesAll rest

variable {b : Bridge} {e : Event} {h : Handle} {j f : Nat} {slot : CallableSlot}

theorem lookup_of_after_lose {index function : Nat}
    (found : (b.after (.lose index function)).tables.lookup j f = some slot) :
    b.tables.lookup j f = some slot := by
  by_cases same : j = index ∧ f = function
  · obtain ⟨rfl, rfl⟩ := same
    rw [after, Tables.lookup_unregister_self] at found
    cases found
  · have apart : j ≠ index ∨ f ≠ function := by
      by_cases sameIndex : j = index
      · exact .inr fun sameNumber => same ⟨sameIndex, sameNumber⟩
      · exact .inl sameIndex
    rwa [after, Tables.lookup_unregister_of_ne apart] at found

theorem lookup_of_after_drop {index : Nat}
    (found : (b.after (.drop index)).tables.lookup j f = some slot) :
    j ≠ index ∧ b.tables.lookup j f = some slot := by
  by_cases same : j = index
  · subst same
    rw [after, Tables.lookup_drop_self] at found
    cases found
  · rw [after, Tables.lookup_drop_of_ne same] at found
    exact ⟨same, found⟩

/-- A bridge with the same holders and fewer callables is as clean. -/
theorem Clean.of_fewer {b' : Bridge} (clean : b.Clean) (holders : b'.registry = b.registry)
    (fewer : ∀ j f slot, b'.tables.lookup j f = some slot → b.tables.lookup j f = some slot) :
    b'.Clean := by
  intro j proper unheld f
  by_contra found
  obtain ⟨slot, found⟩ := Option.ne_none_iff_exists'.mp found
  have before := fewer j f slot found
  rw [clean j proper (holders ▸ unheld) f] at before
  cases before

theorem clean_after_forget_iff (sound : b.registry.Sound) (clean : b.Clean) :
    (b.after (.forget h)).Clean ↔ (Event.forget h).Tidies b := by
  constructor
  · intro cleanAfter j held f
    refine cleanAfter j (sound.given h j held).1 ?_ f
    intro x still
    have apart : x ≠ h := by
      intro same
      subst same
      rw [after, Registry.find_unregister_self] at still
      cases still
    rw [after, Registry.find_unregister_of_ne apart] at still
    exact apart (sound.apart x h j still held)
  · intro tidies j proper unheld f
    by_cases held : b.registry.find h = some j
    · exact tidies j held f
    · refine clean j proper ?_ f
      intro x before
      by_cases same : x = h
      · exact held (same ▸ before)
      · exact unheld x ((Registry.find_unregister_of_ne same).trans before)

theorem clean_after_gain_iff {index : Nat} {c : Callable} {aspec : Aspec} (clean : b.Clean) :
    (b.after (.gain index c aspec)).Clean ↔ (Event.gain index c aspec).Tidies b := by
  constructor
  · intro cleanAfter
    by_contra loose
    have proper : index ≠ 0 := fun zero => loose (.inl zero)
    have unheld : ∀ x, b.registry.find x ≠ some index := fun x held => loose (.inr ⟨x, held⟩)
    have gone := cleanAfter index proper unheld (b.tables.register index c aspec).1
    rw [after, Tables.lookup_register_self] at gone
    cases gone
  · intro tidies j proper unheld f
    have apart : j ≠ index := by
      intro same
      subst same
      rcases tidies with zero | ⟨x, held⟩
      · exact proper zero
      · exact unheld x held
    rw [after, Tables.lookup_register_of_index apart]
    exact clean j proper unheld f

/-- A clean bridge stays clean exactly by the events that leave nothing behind. -/
theorem clean_after_iff (sound : b.registry.Sound) (clean : b.Clean) :
    (b.after e).Clean ↔ e.Tidies b := by
  cases e with
  | enrol h =>
      refine ⟨fun _ => trivial, fun _ j proper unheld f => clean j proper ?_ f⟩
      intro x held
      by_cases same : x = h
      · subst same
        apply unheld x
        rw [after, Registry.register_of_found held]
        exact held
      · exact unheld x ((Registry.find_register_of_ne same).trans held)
  | forget h => exact clean_after_forget_iff sound clean
  | gain index c aspec => exact clean_after_gain_iff clean
  | lose index function =>
      exact ⟨fun _ => trivial, fun _ => clean.of_fewer rfl fun _ _ _ => lookup_of_after_lose⟩
  | drop index =>
      refine ⟨fun _ => trivial, fun _ => clean.of_fewer rfl fun _ _ _ found => ?_⟩
      exact (lookup_of_after_drop found).2

/-- A callable that a holder of an index can reach was there before, or has just been registered
under that index. -/
theorem reached_before (sound : b.registry.Sound) (clean : b.Clean)
    (held : (b.after e).registry.find h = some j)
    (found : (b.after e).tables.lookup j f = some slot) :
    b.registry.find h = some j ∧ (b.tables.lookup j f = some slot ∨
      ∃ c aspec, e = .gain j c aspec ∧ (b.tables.register j c aspec).1 = f ∧
        slot = ⟨f, aspec, c⟩) := by
  cases e with
  | enrol x =>
      by_cases had : b.registry.find h = some j
      · exact ⟨had, .inl found⟩
      · have same : h = x := by
          by_contra apart
          exact had ((Registry.find_register_of_ne apart).symm.trans held)
        subst same
        cases before : b.registry.find h with
        | some k =>
            rw [after, Registry.register_of_found before, before] at held
            exact (had (before.trans held)).elim
        | none =>
            rw [after, Registry.find_register_self, Registry.register_of_missing before] at held
            cases held
            have gone := clean _ sound.allocate_ne_zero (fun _ => sound.allocate_unheld) f
            cases gone.symm.trans found
  | forget x =>
      have apart : h ≠ x := by
        intro same
        subst same
        rw [after, Registry.find_unregister_self] at held
        cases held
      exact ⟨(Registry.find_unregister_of_ne apart).symm.trans held, .inl found⟩
  | gain index c aspec =>
      refine ⟨held, ?_⟩
      by_cases same : j = index
      · subst same
        by_cases number : f = (b.tables.register j c aspec).1
        · subst number
          rw [after, Tables.lookup_register_self] at found
          exact .inr ⟨c, aspec, rfl, rfl, (Option.some.inj found).symm⟩
        · rw [after, Tables.lookup_register_of_number number] at found
          exact .inl found
      · rw [after, Tables.lookup_register_of_index same] at found
        exact .inl found
  | lose index function => exact ⟨held, .inl (lookup_of_after_lose found)⟩
  | drop index => exact ⟨held, .inl (lookup_of_after_drop found).2⟩

/-- What a machine can reach when it gets an index is what was left there. -/
theorem lookup_after_enrolled (missing : b.registry.find h = none)
    (held : (b.after e).registry.find h = some j) :
    e = .enrol h ∧ j = b.registry.allocator.allocate.1 ∧ (b.after e).tables = b.tables := by
  cases e with
  | enrol x =>
      have same : h = x := by
        by_contra apart
        have before := (Registry.find_register_of_ne apart).symm.trans held
        rw [missing] at before
        cases before
      subst same
      rw [after, Registry.find_register_self, Registry.register_of_missing missing] at held
      exact ⟨rfl, (Option.some.inj held).symm, rfl⟩
  | forget x =>
      by_cases same : h = x
      · subst same
        rw [after, Registry.find_unregister_self] at held
        cases held
      · rw [after, Registry.find_unregister_of_ne same, missing] at held
        cases held
  | _ =>
      have still := missing.symm.trans held
      cases still

theorem clean_afterAll {events : List Event} (sound : b.registry.Sound) (clean : b.Clean)
    (tidies : b.TidiesAll events) :
    (b.afterAll events).registry.Sound ∧ (b.afterAll events).Clean := by
  induction events generalizing b with
  | nil => exact ⟨sound, clean⟩
  | cons e rest ih =>
      exact ih (sound_after sound e) ((clean_after_iff sound clean).mpr tidies.1) tidies.2

end Bridge

namespace Situation

attribute [local irreducible] Machine.opened

variable {now later : Situation} {move : Move} {h : Handle} {j f : Nat} {slot : CallableSlot}

/-- A move leaves no callables under an index without a holder. -/
def Tidying (now : Situation) (move : Move) : Prop := now.world.bridge.TidiesAll (now.events move)

def HasIndex (h : Handle) (j : Nat) (now : Situation) : Prop :=
  now.world.bridge.registry.find h = some j

/-- A callable was registered under the index that a machine has had ever since. -/
def RegisteredFor (h : Handle) (j f : Nat) (slot : CallableSlot) (now : Situation) : Prop :=
  ∃ before after name a form discipline body aspec next,
    Run Tidying {} before ∧ before.scene? name = some a ∧
    a.script = .register j form discipline body aspec next ∧
    Next before (.act name) after ∧ HasIndex h j before ∧
    (before.world.bridge.tables.register j ⟨form, discipline, body⟩ aspec).1 = f ∧
    slot = ⟨f, aspec, ⟨form, discipline, body⟩⟩ ∧
    Run (fun s move => Tidying s move ∧ HasIndex h j s) after now

/-! ## The events of a move -/

theorem events_cases (now : Situation) (move : Move) :
    now.events move = [] ∨ (∃ e, now.events move = [e]) ∨
      ∃ k h, now.events move = [.drop k, .forget h] := by
  cases move with
  | openLinked => exact .inr (.inl ⟨_, rfl⟩)
  | close name =>
      simp only [events]
      cases now.world.instance? name with
      | none => exact .inl rfl
      | some i =>
          cases link : i.link with
          | none => exact .inr (.inl ⟨.forget i.machine.handle, by simp [link]⟩)
          | some k => exact .inr (.inr ⟨k, i.machine.handle, by simp [link]⟩)
  | act name =>
      simp only [events]
      cases now.scene? name with
      | none => exact .inl rfl
      | some a =>
          obtain ⟨script, pending, stage⟩ := a
          cases script with
          | bridge r next =>
              cases r with
              | unregister => exact .inr (.inl ⟨_, rfl⟩)
              | dropTable => exact .inr (.inl ⟨_, rfl⟩)
              | registerInstance => exact .inr (.inl ⟨_, rfl⟩)
              | unregisterInstance => exact .inr (.inl ⟨_, rfl⟩)
              | _ => exact .inl rfl
          | register => exact .inr (.inl ⟨_, rfl⟩)
          | _ => exact .inl rfl
  | _ => exact .inl rfl

/-- Callables are registered by scripts only. -/
theorem move_of_gain {c : Callable} {aspec : Aspec}
    (gains : now.events move = [.gain j c aspec]) :
    ∃ name a form discipline body next, move = .act name ∧ now.scene? name = some a ∧
      a.script = .register j form discipline body aspec next ∧ c = ⟨form, discipline, body⟩ := by
  cases move with
  | close name =>
      simp only [events] at gains
      cases present : now.world.instance? name with
      | none => simp [present] at gains
      | some i => cases link : i.link <;> simp [present, link] at gains
  | act name =>
      simp only [events] at gains
      cases shown : now.scene? name with
      | none => simp [shown] at gains
      | some a =>
          simp only [shown] at gains
          obtain ⟨script, pending, stage⟩ := a
          cases script with
          | bridge r next => cases r <;> cases gains
          | register index form discipline body aspec next =>
              cases gains
              exact ⟨name, _, form, discipline, body, next, rfl, shown, rfl, rfl⟩
          | _ => cases gains
  | _ => cases gains

/-! ## Runs that leave nothing behind -/

theorem Run.clean (run : Run Tidying {} now) :
    now.world.bridge.registry.Sound ∧ now.world.bridge.Clean := by
  induction run with
  | refl =>
      refine ⟨.empty, ?_⟩
      intro j proper unheld f
      rfl
  | tail earlier moved ih =>
      obtain ⟨move, tidies, moved⟩ := moved
      rw [bridge_of_next earlier moved]
      exact Bridge.clean_afterAll ih.1 ih.2 tidies

/-- The bridge stays clean exactly by the moves that leave nothing behind. -/
theorem clean_next_iff (run : Run Tidying {} now) (moved : Next now move later) :
    later.world.bridge.Clean ↔ Tidying now move := by
  obtain ⟨sound, clean⟩ := run.clean
  rw [bridge_of_next run moved, Tidying]
  rcases now.events_cases move with none | ⟨e, one⟩ | ⟨k, h, two⟩
  · rw [none]
    exact ⟨fun _ => trivial, fun _ => clean⟩
  · rw [one]
    exact (Bridge.clean_after_iff sound clean).trans (and_iff_left trivial).symm
  · rw [two]
    have dropped : (now.world.bridge.after (.drop k)).Clean :=
      (Bridge.clean_after_iff sound clean).mpr trivial
    have forgotten := Bridge.clean_after_iff (e := .forget h) (Bridge.sound_after sound (.drop k))
      dropped
    exact forgotten.trans ⟨fun tidies => ⟨trivial, tidies, trivial⟩, fun both => both.2.1⟩

theorem registeredFor (run : Run Tidying {} now) (held : HasIndex h j now)
    (found : now.world.bridge.tables.lookup j f = some slot) : RegisteredFor h j f slot now := by
  induction run with
  | refl => cases held
  | tail earlier moved ih =>
      rename_i now later
      obtain ⟨move, tidies, moved⟩ := moved
      obtain ⟨sound, clean⟩ := Run.clean earlier
      have onward : HasIndex h j now → now.world.bridge.tables.lookup j f = some slot →
          RegisteredFor h j f slot later := by
        intro had reached
        obtain ⟨before, after, name, a, form, discipline, body, aspec, next, start, shown, script,
          registering, has, number, same, since⟩ := ih had reached
        exact ⟨before, after, name, a, form, discipline, body, aspec, next, start, shown, script,
          registering, has, number, same, since.tail ⟨move, ⟨tidies, had⟩, moved⟩⟩
      rw [HasIndex, bridge_of_next earlier moved] at held
      rw [bridge_of_next earlier moved] at found
      rcases now.events_cases move with none | ⟨e, one⟩ | ⟨k, x, two⟩
      · rw [none] at held found
        exact onward held found
      · rw [one] at held found
        obtain ⟨had, reached | ⟨c, aspec, rfl, number, same⟩⟩ :=
          Bridge.reached_before sound clean held found
        · exact onward had reached
        · obtain ⟨name, a, form, discipline, body, next, rfl, shown, script, rfl⟩ :=
            move_of_gain one
          exact ⟨now, later, name, a, form, discipline, body, aspec, next, earlier, shown, script,
            moved, had, number, same, .refl⟩
      · rw [two] at held found
        have dropped : (now.world.bridge.after (.drop k)).Clean :=
          (Bridge.clean_after_iff sound clean).mpr trivial
        obtain ⟨had, reached | ⟨c, aspec, none, -⟩⟩ :=
          Bridge.reached_before (e := .forget x) (Bridge.sound_after sound (.drop k)) dropped
            held found
        · exact onward had (Bridge.lookup_of_after_drop reached).2
        · cases none

/-- A machine that gets an index finds under it what was left there. -/
theorem inherits {allowed : Situation → Move → Prop} (run : Run allowed {} now)
    (moved : Next now move later) (missing : now.world.bridge.registry.find h = none)
    (held : HasIndex h j later) :
    j = now.world.bridge.registry.allocator.allocate.1 ∧
      later.world.bridge.tables = now.world.bridge.tables := by
  rw [HasIndex, bridge_of_next run moved] at held
  rw [bridge_of_next run moved]
  rcases now.events_cases move with none | ⟨e, one⟩ | ⟨k, x, two⟩
  · rw [none] at held
    cases missing.symm.trans held
  · rw [one] at held ⊢
    obtain ⟨-, allocated, same⟩ := Bridge.lookup_after_enrolled missing held
    exact ⟨allocated, same⟩
  · rw [two] at held
    have still : (now.world.bridge.after (.drop k)).registry.find h = none := missing
    obtain ⟨none, -⟩ := Bridge.lookup_after_enrolled (e := .forget x) still held
    cases none

/-! ## Closing a linked machine -/

/-- What other machines have under their indices is left as it is. -/
def LeavesOthers (now : Situation) (i : Instance) (later : Situation) : Prop :=
  ∀ h j, h ≠ i.machine.handle → HasIndex h j now →
    later.world.bridge.tables.count j = now.world.bridge.tables.count j ∧
      ∀ f, later.world.bridge.tables.lookup j f = now.world.bridge.tables.lookup j f

theorem leavesOthers_iff {name : String} {i : Instance} {k : Nat}
    {allowed : Situation → Move → Prop} (run : Run allowed {} now)
    (moved : Next now (.close name) later) (present : now.world.instance? name = some i)
    (link : i.link = some k) :
    LeavesOthers now i later ↔
      ∀ h, h ≠ i.machine.handle → HasIndex h k now → now.world.bridge.tables.count k = 0 := by
  have tables : later.world.bridge.tables = now.world.bridge.tables.drop k := by
    rw [bridge_of_next run moved, events, present]
    simp [link, Bridge.afterAll, Bridge.after]
  have dropped : (now.world.bridge.tables.drop k).count k = 0 :=
    Tables.count_eq_zero.mpr fun f => Tables.lookup_drop_self
  constructor
  · intro leaves h other held
    have same := (leaves h k other held).1
    rw [tables, dropped] at same
    exact same.symm
  · intro empty h j other held
    rw [tables]
    by_cases same : j = k
    · subst same
      have none := empty h other held
      have vacant := Tables.count_eq_zero.mp none
      rw [none, dropped]
      refine ⟨rfl, fun f => ?_⟩
      rw [vacant f, Tables.lookup_drop_self]
    · exact ⟨Tables.count_drop_of_ne same, fun f => Tables.lookup_drop_of_ne same⟩

/-! ## Isolation -/

/-- What machines can call under their indices, and what becomes of it by a further move. -/
structure Isolated (now : Situation) : Prop where
  /-- A bridged call asks for its callable under the index of its own machine. -/
  asks : ∀ name a form receiver f, now.scene? name = some a →
    a.script = gatewayRun form receiver f →
    ∃ args mark s,
      Scene.Steps a
        ⟨.hostCall form (now.world.bridge.registry.indexOf a.stage.machine.handle) receiver f args
          (gatewayEnd mark), a.pending, s⟩ ∧
      s.bridge = now.world.bridge
  /-- What a call runs under the index of a machine was registered for it since it got the index. -/
  runs : ∀ name a b form j receiver f args next h, now.scene? name = some a →
    a.script = .hostCall form j receiver f args next → HasIndex h j now → a.step = some b →
    (∃ v, b.script = next v ∧ b.pending = a.pending) ∨
      ∃ slot, RegisteredFor h j f slot now ∧
        b.script = slot.callable.body ⟨j, receiver, f⟩ args ∧
        b.pending = .host slot.callable.discipline next :: a.pending
  /-- A machine that gets an index finds nothing under it. -/
  fresh : ∀ move later h j, Next now move later → now.world.bridge.registry.find h = none →
    HasIndex h j later →
    later.world.bridge.tables.count j = 0 ∧ ∀ f, later.world.bridge.tables.lookup j f = none
  /-- Closing a linked machine that is still registered changes nothing for the others. -/
  closes : ∀ name later i k, Next now (.close name) later → now.world.instance? name = some i →
    i.link = some k → HasIndex i.machine.handle k now → LeavesOthers now i later
  /-- Closing any linked machine does so exactly when its index is not by now the index of another
  machine with callables. -/
  closesIff : ∀ name later i k, Next now (.close name) later → now.world.instance? name = some i →
    i.link = some k →
    (LeavesOthers now i later ↔
      ∀ h, h ≠ i.machine.handle → HasIndex h k now → now.world.bridge.tables.count k = 0)
  /-- Nothing can be called under an index without a holder after exactly the moves that leave nothing
  behind. -/
  cleanIff : ∀ move later, Next now move later → (later.world.bridge.Clean ↔ Tidying now move)

theorem isolated (run : Run Tidying {} now) : Isolated now := by
  obtain ⟨sound, clean⟩ := run.clean
  constructor
  · intro name a form receiver f shown script
    obtain ⟨i, -, -, bridge, -⟩ := scene?_eq_some shown
    obtain ⟨_, pending, stage⟩ := a
    cases script
    have steps := (Scene.leads_gatewayRun (s := stage) form receiver f).steps pending
    rw [Stage.ownIndex, bridge] at steps
    exact ⟨_, _, _, steps, (stage.handing_bridge form).trans bridge⟩
  · intro name a b form j receiver f args next h shown script held stepped
    obtain ⟨i, present, machine, bridge, -⟩ := scene?_eq_some shown
    have tidy := tidy_of_run run present
    rw [← machine] at tidy
    obtain ⟨_, pending, stage⟩ := a
    cases script
    rcases Scene.step_hostCall tidy stepped with refused | ⟨slot, found, body, waiting⟩
    · exact .inl refused
    · rw [bridge] at found
      exact .inr ⟨slot, registeredFor run held found, body, waiting⟩
  · intro move later h j moved missing held
    obtain ⟨rfl, same⟩ := inherits run moved missing held
    have vacant := clean _ sound.allocate_ne_zero fun _ => sound.allocate_unheld
    rw [same]
    exact ⟨Tables.count_eq_zero.mpr vacant, vacant⟩
  · intro name later i k moved present link own
    apply (leavesOthers_iff run moved present link).mpr
    intro x apart taken
    exact (apart (sound.apart x _ k taken own)).elim
  · exact fun name later i k moved present link => leavesOthers_iff run moved present link
  · exact fun move later moved => clean_next_iff run moved

def hosting : Script :=
  .register 1 .bound .direct (fun _ _ => Script.ret .nil) .any fun _ => Script.ret .nil

def hosted : Scene where
  script := Script.ret .nil
  stage :=
    { machine := .opened ⟨1⟩ {}
      bridge := ((World.openLinked {} "vm" {}).bridge).after
        (.gain 1 ⟨.bound, .direct, fun _ _ => Script.ret .nil⟩ .any) }

/-- In the middle of a script that has registered a callable for its own machine. -/
theorem isolated_hosted :
    hosted.stage.bridge.tables.count 1 = 1 ∧
      Isolated ((beginningLinked hosting).showing "vm"
        { machine := .opened ⟨1⟩ {}, link := some 1 } hosted) := by
  have acted : Next (beginningLinked hosting) (.act "vm") _ :=
    .act "vm" { machine := .opened ⟨1⟩ {}, link := some 1 } _ hosted rfl rfl rfl rfl
  have begun : Run Tidying {} (beginningLinked hosting) :=
    run_beginningLinked hosting ⟨trivial, trivial⟩ trivial
  have tidying : Tidying (beginningLinked hosting) (.act "vm") := ⟨.inr ⟨⟨1⟩, rfl⟩, trivial⟩
  exact ⟨rfl, isolated (begun.tail ⟨_, tidying, acted⟩)⟩

end Situation

end GuestVM
