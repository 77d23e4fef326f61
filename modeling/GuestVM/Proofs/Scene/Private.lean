import GuestVM.Proofs.Bridge.Events
import GuestVM.Proofs.Bridge.Locality
import GuestVM.Proofs.Bridge.Reaching
import GuestVM.Proofs.Scene.Running

/-! # Scripts that keep to an index

Code acts within an index if it asks for no table but that of the index (`Scene.ActsWithin`).  Nothing
is asked of bridged procs: what they look up they look up under the index that their machine has, so
in the machine that has the index, all that comes of such code keeps to it (`private_of_actsWithin`).
Run beside another bridge, it does the same within the same fuel (`parallel_run`).

The induction is that of `steps_of_run`: on the fuel, for the code that a script itself consists of on
the script, and within a walk on the visits.  What a part of a script comes to is followed by steps
each time, since only the steps from the first scene on are known to keep to the index. -/
set_option autoImplicit false

namespace GuestVM

/-- The script begins with the lookup of a callable that is to run. -/
def Script.Looks : Script → Prop
  | .hostCall _ _ _ _ _ _ => True
  | _ => False

namespace Scene

open Stage

/-- The code that runs asks only for the index of the machine that it runs in. -/
structure KeepsTo (k : Nat) (a : Scene) : Prop where
  script : a.script.Within k
  index : a.stage.bridge.registry.find a.stage.machine.handle = some k

/-- All that comes of the scene keeps to an index. -/
def Private (k : Nat) (a : Scene) : Prop := ∀ b, Steps a b → b.KeepsTo k

/-- The code is on the way of a bridged proc to its callable, a way that `a` came to. -/
def OfGateway (a b : Scene) : Prop :=
  ∃ c form receiver function, Steps a c ∧ c.script = gatewayRun form receiver function ∧
    Relation.ReflTransGen (fun x y => x.step = some y ∧ ¬ x.script.Looks) c b

/-- Of all that comes of the scene, only bridged procs may ask for the tables of other indices. -/
def ActsWithin (k : Nat) (a : Scene) : Prop :=
  ∀ b, Steps a b → b.script.Within k ∨ OfGateway a b

/-- A way to run scripts in which those that keep to an index do the same beside another bridge. -/
def Parallel (k : Nat) (c : Bridge) (enter : Script → Player) : Prop :=
  ∀ code pending s t, Private k ⟨code, pending, s⟩ → Beside k c s t →
    Together k c (enter code s) (enter code t)

variable {k : Nat} {c : Bridge} {enter : Script → Player} {s t : Stage} {a b : Scene}
  {pending : List Pending}

theorem Private.onward (alone : Private k a) (steps : Steps a b) : Private k b :=
  fun later further => alone later (steps.trans further)

theorem Private.step (alone : Private k a) (stepped : a.step = some b) : Private k b :=
  alone.onward (.single stepped)

theorem Private.here (alone : Private k a) : a.KeepsTo k := alone a .refl

/-! ## Bridged procs -/

/-- A bridged proc looks its callable up under the index that its machine has. -/
theorem within_of_gateway (through : OfGateway a b)
    (index : b.stage.bridge.registry.find b.stage.machine.handle = some k) :
    b.script.Within k := by
  obtain ⟨⟨_, pending, s⟩, form, receiver, function, -, rfl, way⟩ := through
  have own : ∀ s : Stage, s.bridge.registry.find s.machine.handle = some k → s.ownIndex = k :=
    fun s index => congrArg (Option.getD · 0) index
  -- On the way the index and the mark of the arena are asked for, then, for a free callable, the
  -- arguments and an array of them; the lookup itself ends it.
  rcases way.cases_head with rfl | ⟨_, ⟨stepped, -⟩, way⟩
  · trivial
  cases stepped
  rcases way.cases_head with rfl | ⟨_, ⟨stepped, -⟩, way⟩
  · trivial
  cases stepped
  cases form with
  | bound =>
      rcases way.cases_head with rfl | ⟨_, ⟨-, on⟩, -⟩
      · exact own s index
      · exact (on trivial).elim
  | free =>
      rcases way.cases_head with rfl | ⟨_, ⟨stepped, -⟩, way⟩
      · trivial
      cases stepped
      rcases way.cases_head with rfl | ⟨_, ⟨stepped, -⟩, way⟩
      · trivial
      cases stepped
      rcases way.cases_head with rfl | ⟨_, ⟨-, on⟩, -⟩
      · exact own s index
      · exact (on trivial).elim

theorem find_effect {script : Script} {h : Handle} {b : Bridge} (own : script.Within k)
    (index : b.registry.find h = some k) : (script.effect h b).registry.find h = some k := by
  rw [Script.effect_eq]
  apply Bridge.find_afterAll index
  cases script with
  | bridge r next =>
      cases r with
      | unregisterInstance => exact own.elim
      | _ => simp [Script.events, BridgeRequest.events]
  | _ => simp [Script.events]

theorem private_of_actsWithin (tidy : a.stage.machine.heap.Tidy)
    (index : a.stage.bridge.registry.find a.stage.machine.handle = some k)
    (acts : ActsWithin k a) : Private k a := by
  have own : ∀ b, Steps a b → b.stage.bridge.registry.find b.stage.machine.handle = some k →
      b.script.Within k := by
    intro b steps index
    rcases acts b steps with within | through
    · exact within
    · exact within_of_gateway through index
  have kept : ∀ b, Steps a b → b.stage.machine.heap.Tidy ∧
      b.stage.bridge.registry.find b.stage.machine.handle = some k := by
    intro b steps
    induction steps with
    | refl => exact ⟨tidy, index⟩
    | tail earlier stepped ih =>
        rename_i x y
        obtain ⟨tidy, index⟩ := ih
        obtain ⟨evolution, effect⟩ := step_evolution stepped tidy
        refine ⟨evolution.tidy tidy, ?_⟩
        rw [effect, evolution.handle_eq]
        exact find_effect (own x earlier index) index
  exact fun b steps => ⟨own b steps (kept b steps).2, (kept b steps).2⟩

/-- The scene comes to its end in fewer than so many steps, and asks for no other index on the way. -/
def endsWithin (k : Nat) : Nat → Scene → Bool
  | 0, _ => false
  | n + 1, a => decide (a.script.Within k) && (a.step.all (endsWithin k n))

theorem actsWithin_of_endsWithin {n : Nat} (ends : endsWithin k n a = true) : ActsWithin k a := by
  intro b steps
  left
  induction n generalizing a with
  | zero => cases ends
  | succ n ih =>
      obtain ⟨within, rest⟩ := Bool.and_eq_true_iff.mp ends
      rcases steps.cases_head with rfl | ⟨c, stepped, steps⟩
      · exact of_decide_eq_true within
      · rw [stepped, Option.all_some] at rest
        exact ih rest steps

/-! ## Calls and regions -/

theorem parallel_callWith (parallel : Parallel k c enter) {begin : Act Script}
    {next : Except Raised Value → Script} (stepped : a.step = entering begin next pending s)
    (alone : Private k a) (beside : Beside k c s t) :
    Together k c (callWith enter begin s) (callWith enter begin t) := by
  unfold callWith
  rw [beside.machine]
  refine together_elim (together_act beside begin) .none fun begun s' t' acted beside' => ?_
  cases begun with
  | error e => exact beside'.together _
  | ok code =>
      have entered : a.step = some ⟨code, .call s.machine.depth next :: pending, s'⟩ := by
        rw [stepped, entering, acted]
        rfl
      dsimp only
      refine together_elim (parallel code _ s' t' (alone.step entered) beside') .none
        fun o s'' t'' ran beside'' => ?_
      exact (together_surface beside'' o).map id fun _ => (·.unwound s.machine.depth)

theorem parallel_protectWith {body : Script} {next : Except Raised Value → Script} {play : Player}
    (parallel : ∀ pending s t, Private k ⟨body, pending, s⟩ → Beside k c s t →
      Together k c (play s) (play t))
    (alone : Private k ⟨.protect body next, pending, s⟩) (beside : Beside k c s t) :
    Together k c (protectWith play s) (protectWith play t) := by
  unfold protectWith
  rw [beside.machine]
  refine together_elim (parallel _ _ _ (alone.step rfl) (beside.onMachine shield)) .none
    fun o s' t' ran beside' => ?_
  exact (together_surface beside' o).map id (unshield s.machine.depth)

theorem parallel_hostCallWith (parallel : Parallel k c enter) {form : Form} {index function : Nat}
    {receiver args : Value} {next : Value → Script}
    (alone : Private k ⟨.hostCall form index receiver function args next, pending, s⟩)
    (beside : Beside k c s t) :
    Together k c (hostCallWith enter form ⟨index, receiver, function⟩ args s)
      (hostCallWith enter form ⟨index, receiver, function⟩ args t) := by
  have own : index = k := alone.here.script
  subst own
  unfold hostCallWith
  dsimp only
  rw [beside.bridge.lookup]
  refine together_elim (together_ask beside _) .none fun resolved s' t' asked beside' => ?_
  cases resolved with
  | error v => exact beside'.together v
  | ok callable =>
      have entered := alone.step (b := ⟨callable.body ⟨index, receiver, function⟩ args,
        .host callable.discipline next :: pending, s'⟩) (by simp [Scene.step, asked])
      dsimp only
      refine together_elim (parallel _ _ s' t' entered beside') .none
        fun o s'' t'' ran beside'' => ?_
      exact together_handOn beside'' _ o

/-! ## Walks -/

section HashWalks

variable {visit : Nat → Value → Value → Script} {play : Script → Player}
  (followed : ∀ n key v s o s', play (visit n key v) s = some (o, s') → ∀ pending,
    Steps ⟨visit n key v, pending, s⟩ ⟨.done o, pending, s'⟩)
  (parallel : ∀ n key v pending s t, Private k ⟨visit n key v, pending, s⟩ → Beside k c s t →
    Together k c (play (visit n key v) s) (play (visit n key v) t))
include followed parallel

theorem parallel_walkEntries (hook : Option Nat) (hash : Value) (removing : Bool)
    (next : Except Raised Nat → Script) (pending : List Pending) :
    ∀ (fuel position n : Nat) (s t : Stage),
      Private k (atEntry hook hash removing position n visit next pending s) → Beside k c s t →
      Together k c
        (walkEntries (fun n key v => play (visit n key v)) hook hash removing fuel position n s)
        (walkEntries (fun n key v => play (visit n key v)) hook hash removing fuel position n t) := by
  intro fuel
  induction fuel with
  | zero =>
      intro position n s t alone beside
      exact .none
  | succ fuel ih =>
      intro position n s t alone beside
      unfold walkEntries
      unfold atEntry at alone
      rw [beside.machine]
      cases found : (s.machine.table hash).entryAt? position with
      | none => exact beside.together n
      | some entry =>
          obtain ⟨key, v⟩ := entry
          simp only [found] at alone
          dsimp only
          refine together_elim (together_visitWith .hash hook beside fun hooked => ?_) .none
            fun status s'' t'' visited beside'' => ?_
          · rw [hooked] at alone
            exact parallel n key v _ s t alone beside
          obtain ⟨o, s', r, steps, surfaced, rfl⟩ := steps_visitWith (followed n key v) visited
          have inside := alone.onward (steps _)
          cases status : WalkStatus.ofResult r with
          | next =>
              refine ih (position + 1) (n + 1) s'' t'' (inside.step ?_) beside''
              simp [Scene.step, resume, surfaced, status]
          | remove =>
              cases removing with
              | true =>
                  refine ih position (n + 1) _ _ (inside.step ?_)
                    (beside''.onMachine (·.removeEntry hash position))
                  simp [Scene.step, resume, surfaced, status]
              | false =>
                  refine ih (position + 1) (n + 1) s'' t'' (inside.step ?_) beside''
                  simp [Scene.step, resume, surfaced, status]
          | stop => exact beside''.together (n + 1)

theorem parallel_walkHashWith {route : Route} {hash : Value} {next : Except Raised Nat → Script}
    {fuel : Nat} (alone : Private k ⟨.walkHash route hash visit next, pending, s⟩)
    (beside : Beside k c s t) :
    Together k c (walkHashWith (fun n key v => play (visit n key v)) fuel route hash s)
      (walkHashWith (fun n key v => play (visit n key v)) fuel route hash t) := by
  obtain ⟨address, hooked⟩ := beside.hook route .hash
  unfold walkHashWith
  dsimp only
  rw [address]
  refine together_elim (together_act hooked (Act.expectType hash .hash)) .none
    fun checked s' t' acted beside' => ?_
  cases checked with
  | error e => exact (beside'.onMemory _).together _
  | ok id =>
      have walking := beside'.onMachine Machine.beginWalk
      have entered := alone.step (b := atEntry (s.hook route .hash).1 hash
        (!s'.machine.isFrozen hash) 0 0 visit next pending (s'.onMachine Machine.beginWalk))
        (by simp [Scene.step, acted])
      dsimp only
      rw [beside'.machine]
      refine together_elim (parallel_walkEntries followed parallel _ hash _ next pending fuel 0 0 _ _
        entered walking) .none fun n s'' t'' _ ended => ?_
      exact (ended.endWalk _).together _

end HashWalks

section HeapWalks

variable {visit : Nat → ObjId → Script} {play : Script → Player}
  (followed : ∀ n id s o s', play (visit n id) s = some (o, s') → ∀ pending,
    Steps ⟨visit n id, pending, s⟩ ⟨.done o, pending, s'⟩)
  (parallel : ∀ n id pending s t, Private k ⟨visit n id, pending, s⟩ → Beside k c s t →
    Together k c (play (visit n id) s) (play (visit n id) t))
include followed parallel

theorem parallel_walkObjects (hook : Option Nat) (next : List ObjId → Script)
    (pending : List Pending) :
    ∀ (rest : List ObjId) (n : Nat) (before : List ObjId) (s t : Stage),
      Private k (atObject hook n before rest visit next pending s) → Beside k c s t →
      Together k c (walkObjects (fun n id => play (visit n id)) hook n rest s)
        (walkObjects (fun n id => play (visit n id)) hook n rest t) := by
  intro rest
  induction rest with
  | nil =>
      intro n before s t alone beside
      exact beside.together []
  | cons id rest ih =>
      intro n before s t alone beside
      unfold walkObjects
      rw [atObject] at alone
      rw [beside.machine]
      split
      case isTrue dead =>
          rw [if_pos dead] at alone
          exact ih n before s t alone beside
      case isFalse alive =>
          rw [if_neg alive] at alone
          refine together_elim (together_visitWith .object hook beside fun hooked => ?_) .none
            fun status s'' t'' visited beside'' => ?_
          · rw [hooked] at alone
            exact parallel n id _ s t alone beside
          obtain ⟨o, s', r, steps, surfaced, rfl⟩ := steps_visitWith (followed n id) visited
          have inside := alone.onward (steps _)
          cases status : WalkStatus.ofResult r with
          | next =>
              have onward := ih (n + 1) (before ++ [id]) s'' t'' (inside.step (by
                simp [Scene.step, resume, surfaced, status])) beside''
              exact onward.map (id :: ·) fun _ m => m
          | _ => exact beside''.together [id]

theorem parallel_walkHeapWith {route : Route} {next : List ObjId → Script}
    (alone : Private k ⟨.walkHeap route visit next, pending, s⟩) (beside : Beside k c s t) :
    Together k c (walkHeapWith (fun n id => play (visit n id)) route s)
      (walkHeapWith (fun n id => play (visit n id)) route t) := by
  obtain ⟨address, hooked⟩ := beside.hook route .object
  have entered := alone.step rfl
  unfold walkHeapWith
  dsimp only
  rw [address, hooked.machine]
  refine together_elim (parallel_walkObjects followed parallel _ next pending _ 0 [] _ _ entered
    (hooked.onMachine Machine.beginWalk)) .none fun visited s' t' _ ended => ?_
  exact (ended.endWalk _).together _

end HeapWalks

/-! ## Running -/

theorem parallel_runWith (followed : Followed enter) (parallel : Parallel k c enter) (fuel : Nat) :
    Parallel k c (runWith enter fuel) := by
  have inner := followed_runWith followed fuel
  intro script
  induction script with
  | done o =>
      intro pending s t alone beside
      exact beside.together o
  | guest r next ih =>
      intro pending s t alone beside
      unfold runWith
      refine together_elim (together_ask beside (Act.answer r)) .none
        fun x s' t' asked beside' => ?_
      exact ih x pending s' t' (alone.step (by simp [Scene.step, asked])) beside'
  | bridge r next ih =>
      intro pending s t alone beside
      unfold runWith
      refine together_elim (together_askBridge alone.here.script alone.here.index beside) .none
        fun x s' t' asked beside' => ?_
      exact ih x pending s' t' (alone.step (by simp [Scene.step, asked])) beside'
  | memo r next ih =>
      intro pending s t alone beside
      have answered : t.memory.answer r = s.memory.answer r := by rw [beside.memory]
      unfold runWith
      simp only [askMemory, answered]
      exact ih _ pending _ _ (alone.step rfl) ⟨beside.machine, rfl, beside.bridge⟩
  | call receiver mid args block next ih =>
      intro pending s t alone beside
      unfold runWith
      refine together_elim (parallel_callWith parallel rfl alone beside) .none
        fun r s' t' called beside' => ?_
      exact ih r pending s' t' (alone.onward (steps_callWith followed rfl called)) beside'
  | callProc proc self args next ih =>
      intro pending s t alone beside
      unfold runWith
      refine together_elim (parallel_callWith parallel rfl alone beside) .none
        fun r s' t' called beside' => ?_
      exact ih r pending s' t' (alone.onward (steps_callWith followed rfl called)) beside'
  | protect body next bodyIh ih =>
      intro pending s t alone beside
      unfold runWith
      refine together_elim (parallel_protectWith bodyIh alone beside) .none
        fun r s' t' guarded beside' => ?_
      exact ih r pending s' t' (alone.onward (steps_protectWith (inner body) guarded)) beside'
  | newNative body next bodyIh ih =>
      intro pending s t alone beside
      unfold runWith
      refine together_elim (together_ask beside (Act.newNative body)) .none
        fun x s' t' asked beside' => ?_
      exact ih x pending s' t' (alone.step (by simp [Scene.step, asked])) beside'
  | newLexical body next bodyIh ih =>
      intro pending s t alone beside
      unfold runWith
      refine together_elim (together_ask beside (Act.newLexical body)) .none
        fun x s' t' asked beside' => ?_
      exact ih x pending s' t' (alone.step (by simp [Scene.step, asked])) beside'
  | register index form discipline body aspec next bodyIh ih =>
      intro pending s t alone beside
      have own : index = k := alone.here.script
      subst own
      have near := Tables.local_register (k := index) ⟨form, discipline, body⟩ aspec
      unfold runWith
      dsimp only
      rw [near.answer _ _ beside.bridge.table]
      exact ih _ pending _ _ (alone.step rfl)
        ⟨beside.machine, beside.memory, beside.bridge.onTables near⟩
  | hostCall form index receiver function args next ih =>
      intro pending s t alone beside
      unfold runWith
      refine together_elim (parallel_hostCallWith parallel alone beside) .none
        fun v s' t' called beside' => ?_
      exact ih v pending s' t' (alone.onward (steps_hostCallWith followed called)) beside'
  | walkHash route hash visit next visitIh ih =>
      intro pending s t alone beside
      have visits := fun n key v => inner (visit n key v)
      unfold runWith
      refine together_elim (parallel_walkHashWith visits visitIh alone beside) .none
        fun r s' t' walked beside' => ?_
      exact ih r pending s' t' (alone.onward (steps_walkHashWith visits walked)) beside'
  | walkHeap route visit next visitIh ih =>
      intro pending s t alone beside
      have visits := fun n id => inner (visit n id)
      unfold runWith
      refine together_elim (parallel_walkHeapWith visits visitIh alone beside) .none
        fun visited s' t' walked beside' => ?_
      exact ih visited pending s' t' (alone.onward (steps_walkHeapWith visits walked)) beside'

theorem parallel_run (fuel : Nat) : Parallel k c (Stage.run fuel) := by
  induction fuel with
  | zero =>
      refine parallel_runWith ?_ (fun _ _ _ _ _ _ => .none) 0
      intro code s o s' none
      cases none
  | succ fuel ih => exact parallel_runWith (steps_of_run fuel) ih (fuel + 1)

/-- Such a script changes nothing of the bridge but the table of its index. -/
theorem butFor_of_run {script : Script} {fuel : Nat} {o : Outcome} {s' : Stage}
    (alone : Private k ⟨script, pending, s⟩) (ran : Stage.run fuel script s = some (o, s')) :
    Bridge.ButFor k s.bridge s'.bridge := by
  have itself : Beside k s.bridge s s := ⟨rfl, rfl, rfl, rfl, rfl, fun _ _ => rfl⟩
  have both := parallel_run fuel script pending s s alone itself
  rw [ran] at both
  obtain ⟨t, same, beside⟩ := both.of_some
  cases same
  exact beside.bridge.still

end Scene

end GuestVM
