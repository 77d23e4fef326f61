import GuestVM.Proofs.Bridge.Hosting
import GuestVM.Proofs.Rows
import GuestVM.Proofs.Scene

/-! # What a machine sees of the bridge

The machines share a registry and the tables of callables, but the code of a machine that asks for
its own index only sees one table, and changes no other.  So it does the same beside two bridges that
agree on the registry and on that table (`Stage.Beside`): each request is answered alike and leaves
them in agreement, and what else there was in the second bridge is still there
(`Stage.together_askBridge`). -/
set_option autoImplicit false

namespace GuestVM

/-! ## Code that keeps to an index -/

/-- The request asks for no table but that of an index, and does not give up the index itself. -/
def BridgeRequest.Within (k : Nat) {a : Answer} : BridgeRequest a → Prop
  | .lookup index _ | .unregister index _ | .callbackCount index | .dropTable index => index = k
  | .unregisterInstance => False
  | _ => True

/-- What a script begins with keeps to an index. -/
def Script.Within (k : Nat) : Script → Prop
  | .bridge r _ => r.Within k
  | .register index _ _ _ _ _ | .hostCall _ index _ _ _ _ => index = k
  | _ => True

instance {k : Nat} : {a : Answer} → (r : BridgeRequest a) → Decidable (r.Within k)
  | _, .lookup index _ | _, .unregister index _ | _, .callbackCount index | _, .dropTable index =>
    inferInstanceAs (Decidable (index = k))
  | _, .unregisterInstance => .isFalse id
  | _, .attachEnv _ _ | _, .envGet _ _ | _, .envSet _ _ _ | _, .envLen _ | _, .raise _ _
  | _, .raiseError _ | _, .raiseIfLive _ | _, .defineCallable _ _ _ _ | _, .callableProc _
  | _, .registerInstance | _, .currentIndex | _, .liveInstances | _, .indexOf _ | _, .ownHandle
  | _, .intoGuest _ _ | _, .fromGuest _ _ | _, .itemOr _ _ _ | _, .fetch _ _ => .isTrue trivial

instance {k : Nat} : (script : Script) → Decidable (script.Within k)
  | .bridge r _ => inferInstanceAs (Decidable (r.Within k))
  | .register index _ _ _ _ _ | .hostCall _ index _ _ _ _ => inferInstanceAs (Decidable (index = k))
  | .done _ | .guest _ _ | .memo _ _ | .call _ _ _ _ _ | .callProc _ _ _ _ | .protect _ _
  | .newNative _ _ | .newLexical _ _ | .walkHash _ _ _ _ | .walkHeap _ _ _ => .isTrue trivial

/-! ## Two bridges -/

/-- The second bridge is the first but for the table of an index. -/
structure Bridge.ButFor (k : Nat) (b b' : Bridge) : Prop where
  registry : b'.registry = b.registry
  others : ∀ j, j ≠ k → b'.tables.table? j = b.tables.table? j

/-- Two bridges that look the same under an index; in all else, the second is as `c`. -/
structure Bridge.Beside (k : Nat) (c b b' : Bridge) : Prop where
  registry : b'.registry = b.registry
  table : b'.tables.table? k = b.tables.table? k
  still : Bridge.ButFor k c b'

/-- Two stages that differ only in what code which keeps to an index does not see. -/
structure Stage.Beside (k : Nat) (c : Bridge) (s t : Stage) : Prop where
  machine : t.machine = s.machine
  memory : t.memory = s.memory
  bridge : Bridge.Beside k c s.bridge t.bridge

/-- Two ways to go on come to the same, beside each other. -/
abbrev Stage.Together {α : Type} (k : Nat) (c : Bridge) :
    Option (α × Stage) → Option (α × Stage) → Prop :=
  Option.Rel fun x y => y.1 = x.1 ∧ Stage.Beside k c x.2 y.2

variable {k : Nat} {c b b' : Bridge} {s t : Stage}

/-! ## Tables of an index -/

namespace Tables

/-- An operation on the table of an index. -/
structure Local (k : Nat) {α : Type} (f : Tables → α × Tables) : Prop where
  answer : ∀ t t' : Tables, t'.table? k = t.table? k → (f t').1 = (f t).1
  table : ∀ t t' : Tables, t'.table? k = t.table? k → (f t').2.table? k = (f t).2.table? k
  others : ∀ (t : Tables) (j : Nat), j ≠ k → (f t).2.table? j = t.table? j

theorem local_register (callable : Callable) (aspec : Aspec) :
    Local k (·.register k callable aspec) where
  answer := by
    intro t t' same
    simp only [register, same]
  table := by
    intro t t' same
    simp only [register, same, table?_put_self]
  others := fun t j apart => table?_put_of_ne _ apart

theorem local_unregister (function : Nat) : Local k (·.unregister k function) where
  answer := by
    intro t t' same
    simp only [unregister, same]
    split <;> rfl
  table := by
    intro t t' same
    simp only [unregister, same]
    cases found : t.table? k with
    | none => simpa only using same
    | some table => simp only [table?_put_self]
  others := by
    intro t j apart
    unfold unregister
    split
    · exact table?_put_of_ne _ apart
    · rfl

theorem local_drop : Local k fun t => ((), t.drop k) where
  answer := fun _ _ _ => rfl
  table := fun t t' _ => by simp only [table?_drop_self]
  others := fun t j apart => table?_drop_of_ne apart

end Tables

theorem Bridge.ButFor.beside {l : Nat} (only : Bridge.ButFor k b b') (apart : l ≠ k) :
    Bridge.Beside l b' b b' where
  registry := only.registry
  table := only.others l apart
  still := ⟨rfl, fun _ _ => rfl⟩

theorem Bridge.Beside.onTables {α : Type} {f : Tables → α × Tables} (near : Tables.Local k f)
    (beside : Bridge.Beside k c b b') :
    Bridge.Beside k c { b with tables := (f b.tables).2 } { b' with tables := (f b'.tables).2 } where
  registry := beside.registry
  table := near.table _ _ beside.table
  still := ⟨beside.still.registry, fun j apart =>
    (near.others _ j apart).trans (beside.still.others j apart)⟩

theorem Bridge.Beside.lookup (beside : Bridge.Beside k c b b') (n : Nat) :
    b'.tables.lookup k n = b.tables.lookup k n := by
  simp only [Tables.lookup, beside.table]

theorem Bridge.Beside.formOf {h : Handle} (beside : Bridge.Beside k c b b')
    (index : b.registry.find h = some k) (n : Nat) (missing : Form) :
    b'.formOf h n missing = b.formOf h n missing := by
  have own : b.registry.indexOf h = k := by rw [Registry.indexOf, index, Option.getD_some]
  simp only [Bridge.formOf, Bridge.callable?, beside.registry, own, beside.lookup]

namespace Stage

/-! ## Going on beside each other -/

theorem Together.of_none {α : Type} {y : Option (α × Stage)} (together : Together k c none y) :
    y = none := by
  cases together
  rfl

theorem Together.of_some {α : Type} {a : α} {y : Option (α × Stage)}
    (together : Together k c (some (a, s)) y) : ∃ t, y = some (a, t) ∧ Beside k c s t := by
  cases together with
  | some both =>
      rename_i q
      obtain ⟨a', t⟩ := q
      obtain ⟨rfl, beside⟩ := both
      exact ⟨t, rfl, beside⟩

/-- What is to be shown of both, by whether they go on. -/
@[elab_as_elim]
theorem together_elim {α : Type} {motive : Option (α × Stage) → Option (α × Stage) → Prop}
    {x y : Option (α × Stage)} (together : Together k c x y) (ended : motive none none)
    (further : ∀ a s t, x = some (a, s) → Beside k c s t → motive (some (a, s)) (some (a, t))) :
    motive x y := by
  cases x with
  | none =>
      rw [together.of_none]
      exact ended
  | some p =>
      obtain ⟨a, s⟩ := p
      obtain ⟨t, rfl, beside⟩ := together.of_some
      exact further a s t rfl beside

theorem Beside.together {α : Type} (beside : Beside k c s t) (a : α) :
    Together k c (some (a, s)) (some (a, t)) := .some ⟨rfl, beside⟩

theorem Beside.onMachine (beside : Beside k c s t) (f : Machine → Machine) :
    Beside k c (s.onMachine f) (t.onMachine f) where
  machine := congrArg f beside.machine
  memory := beside.memory
  bridge := beside.bridge

theorem Beside.onMemory (beside : Beside k c s t) (f : Memory → Memory) :
    Beside k c (s.onMemory f) (t.onMemory f) where
  machine := beside.machine
  memory := congrArg f beside.memory
  bridge := beside.bridge

theorem Beside.hook (beside : Beside k c s t) (route : Route) (kind : HookKind) :
    (t.hook route kind).1 = (s.hook route kind).1 ∧
      Beside k c (s.hook route kind).2 (t.hook route kind).2 := by
  simp only [Stage.hook, beside.memory]
  exact ⟨trivial, beside.machine, rfl, beside.bridge⟩

theorem Beside.endWalk (beside : Beside k c s t) (hook : Option Nat) :
    Beside k c (s.endWalk hook) (t.endWalk hook) :=
  (beside.onMachine Machine.endWalk).onMemory (·.unhook hook)

theorem Beside.withMachine (beside : Beside k c s t) (m : Machine) :
    Beside k c { s with machine := m } { t with machine := m } :=
  ⟨rfl, beside.memory, beside.bridge⟩

/-- Going on with the machine alone. -/
theorem Together.map {α β : Type} {x y : Option (α × Stage)} (together : Together k c x y)
    (f : α → β) (g : α → Machine → Machine) :
    Together k c (x.map fun (a, s) => (f a, s.onMachine (g a)))
      (y.map fun (a, s) => (f a, s.onMachine (g a))) := by
  refine together_elim together .none fun a s t _ beside => ?_
  exact (beside.onMachine (g a)).together (f a)

section Actions

variable {α : Type}

theorem together_act (beside : Beside k c s t) (a : Act α) : Together k c (s.act a) (t.act a) := by
  simp only [act, beside.machine]
  rcases a.run.run s.machine with ⟨(e | _) | x, m⟩
  · exact (beside.withMachine m).together _
  · exact .none
  · exact (beside.withMachine m).together _

theorem together_ask (beside : Beside k c s t) (a : Act α) : Together k c (s.ask a) (t.ask a) := by
  unfold ask
  refine together_elim (together_act beside a) .none fun r s' t' acted beside' => ?_
  cases r with
  | error e => exact .none
  | ok x => exact beside'.together x

theorem together_surface (beside : Beside k c s t) (o : Outcome) :
    Together k c (s.surface o) (t.surface o) := by
  cases o with
  | value v => exact beside.together _
  | raised e => exact beside.together _
  | failed e => exact (together_ask beside _).map Except.error fun _ m => m

theorem together_visitWith {play : Player} (kind : HookKind) (hook : Option Nat)
    (beside : Beside k c s t)
    (played : (∀ {α : Type} (visit stray : α), s.memory.callback kind hook visit stray = visit) →
      Together k c (play s) (play t)) :
    Together k c (visitWith kind hook play s) (visitWith kind hook play t) := by
  let stray : Player := fun s => some (.value WalkStatus.stray.value, s)
  have called : Together k c (s.memory.callback kind hook play stray s)
      (t.memory.callback kind hook play stray t) := by
    rw [beside.memory]
    rcases s.memory.callback_cases kind hook with hooked | strayed
    · rw [hooked]
      exact played hooked
    · rw [strayed]
      exact beside.together _
  unfold visitWith
  dsimp only
  refine together_elim called .none fun o s' t' _ beside' => ?_
  exact (together_surface beside' o).map WalkStatus.ofResult fun _ m => m

theorem together_handOn (beside : Beside k c s t) (d : Discipline) (o : Outcome) :
    Together k c (s.handOn d o) (t.handOn d o) := by
  cases o with
  | value v => exact beside.together v
  | raised e =>
      cases d with
      | direct => exact beside.together e.value
      | fallible => exact together_ask beside _
  | failed e => exact together_ask beside _

end Actions

/-! ## Requests to the bridge -/

section Requests

variable {α : Type}

/-- The two bridges give the machine the same answer, which leaves them side by side. -/
def Answers (k : Nat) (c : Bridge) (d : Bridge.Deed α) : Prop :=
  ∀ s t, Beside k c s t → s.bridge.registry.find s.machine.handle = some k →
    Together k c (s.askBridge d) (t.askBridge d)

theorem answers_seeing (f : Bridge → Handle → Act α)
    (same : ∀ b b' h, Bridge.Beside k c b b' → b.registry.find h = some k → f b' h = f b h) :
    Answers k c (Bridge.seeing f) := by
  intro s t beside index
  rw [askBridge_seeing, askBridge_seeing, beside.machine,
    same s.bridge t.bridge s.machine.handle beside.bridge index]
  exact together_ask beside _

/-- A request that the machine answers. -/
theorem answers_lift (a : Act α) : Answers k c (liftM a) :=
  answers_seeing (fun _ _ => a) fun _ _ _ _ _ => rfl

/-- A request that only the bridge answers. -/
theorem answers_beside {d : Bridge.Deed α} (x : Bridge → Handle → α × Bridge)
    (ran : ∀ b m, (d.run b).run.run m = (.ok (x b m.handle), m))
    (same : ∀ b b' h, Bridge.Beside k c b b' → b.registry.find h = some k →
      (x b' h).1 = (x b h).1 ∧ Bridge.Beside k c (x b h).2 (x b' h).2) : Answers k c d := by
  intro s t beside index
  obtain ⟨answer, bridges⟩ := same s.bridge t.bridge s.machine.handle beside.bridge index
  have asked : ∀ s : Stage, s.askBridge d =
      some ((x s.bridge s.machine.handle).1,
        { s with bridge := (x s.bridge s.machine.handle).2 }) := by
    intro s
    simp only [askBridge, ask, act, ran]
  rw [asked, asked, beside.machine, answer]
  exact .some ⟨rfl, rfl, beside.memory, bridges⟩

theorem answers_answer {a : Answer} (r : BridgeRequest a) (own : r.Within k) :
    Answers k c (Bridge.answer r) := by
  cases r with
  | attachEnv | envGet | envSet | envLen | raise | raiseError | raiseIfLive | ownHandle | intoGuest
  | itemOr | fetch => exact answers_lift _
  | fromGuest t v =>
      exact answers_lift (do Act.ofOption ((← (get : Act Machine)).fromGuest t v).run)
  | defineCallable place name n aspec =>
      refine answers_seeing
        (fun b h => Act.attempt (Act.defineCallable (b.formOf h n .bound) place name n aspec)) ?_
      intro b b' h beside index
      rw [beside.formOf index]
  | callableProc n =>
      refine answers_seeing (fun b h => Act.attempt (Act.callableProc (b.formOf h n .free) n)) ?_
      intro b b' h beside index
      rw [beside.formOf index]
  | lookup index n =>
      cases own
      refine answers_beside (fun b _ => (_, b)) (fun _ _ => rfl) ?_
      intro b b' h beside _
      exact ⟨by rw [beside.lookup], beside⟩
  | unregister index n =>
      cases own
      refine answers_beside (fun b _ => (_, { b with tables := _ })) (fun _ _ => rfl) ?_
      intro b b' h beside _
      exact ⟨(Tables.local_unregister n).answer _ _ beside.table,
        beside.onTables (Tables.local_unregister n)⟩
  | callbackCount index =>
      cases own
      refine answers_beside (fun b _ => (_, b)) (fun _ _ => rfl) ?_
      intro b b' h beside _
      exact ⟨by rw [Tables.count, Tables.count, beside.table], beside⟩
  | dropTable index =>
      cases own
      refine answers_beside (fun b _ => (_, { b with tables := _ })) (fun _ _ => rfl) ?_
      intro b b' h beside _
      exact ⟨rfl, beside.onTables Tables.local_drop⟩
  | registerInstance =>
      refine answers_beside (fun b h => ((b.registry.register h).1,
        { b with registry := (b.registry.register h).2 })) (fun _ _ => rfl) ?_
      intro b b' h beside index
      rw [beside.registry, Registry.register_of_found index]
      exact ⟨rfl, rfl, beside.table, beside.registry ▸ beside.still.registry, beside.still.others⟩
  | unregisterInstance => exact own.elim
  | currentIndex =>
      refine answers_seeing (fun b h => pure (b.registry.indexOf h)) ?_
      intro b b' h beside _
      rw [beside.registry]
  | liveInstances =>
      refine answers_beside (fun b _ => (b.registry.size, b)) (fun _ _ => rfl) ?_
      intro b b' h beside _
      exact ⟨by rw [beside.registry], beside⟩
  | indexOf x =>
      refine answers_beside (fun b _ => (b.registry.indexOf x, b)) (fun _ _ => rfl) ?_
      intro b b' h beside _
      exact ⟨by rw [beside.registry], beside⟩

theorem together_askBridge {a : Answer} {r : BridgeRequest a} (own : r.Within k)
    (index : s.bridge.registry.find s.machine.handle = some k) (beside : Beside k c s t) :
    Together k c (s.askBridge (Bridge.answer r)) (t.askBridge (Bridge.answer r)) :=
  answers_answer r own s t beside index

end Requests

end Stage

end GuestVM
