import GuestVM.Proofs.Bridge.Events
import GuestVM.Proofs.Machine.Building
import GuestVM.Proofs.Scene.Current

/-! # Frozen data

What a frozen array, hash or string holds stays as it was when it was frozen, and so do the instance
variables of every frozen object: each operation looks at the flag at the moment it writes.  A walk
over a hash is the exception.  It looks once, before the first visit, and goes on taking entries out
although a visit has frozen the hash meanwhile. -/
set_option autoImplicit false

namespace GuestVM

/-- What the items of an array, the entries of a hash or the bytes of a string are. -/
inductive Content where
  | items (values : Array Value)
  | entries (rows : Array (Value × Value))
  | bytes (text : List UInt8)
  deriving DecidableEq

/-- Bodies of other kinds have no content. -/
def Body.content : Body → Option Content
  | .array values => some (.items values)
  | .hash t => some (.entries t.entries)
  | .string text => some (.bytes text)
  | _ => none

structure Object.FrozenWith (o : Object) (ivars : SymMap Value) (content : Option Content) :
    Prop where
  frozen : o.frozen = true
  ivars : o.ivars = ivars
  content : o.body.content = content

namespace HashTable

variable {t : HashTable} {p : Nat}

theorem entries_removeAt_of_le (outside : t.size ≤ p) : (t.removeAt p).entries = t.entries := by
  have past : ¬ p < t.entries.size := Nat.not_lt.mpr outside
  simp [removeAt, Array.eraseIdxIfInBounds, past]

theorem size_removeAt (inside : p < t.size) : (t.removeAt p).size + 1 = t.size := by
  have within : p < t.entries.size := inside
  simp only [size, removeAt, Array.eraseIdxIfInBounds, within, dite_true, Array.size_eraseIdx]
  omega

end HashTable

/-! ## Changes -/

section Changes

variable {g : Grant} {m m' : Machine} {x : ObjId} {o o' : Object} {ivars : SymMap Value}
  {content : Option Content}

/-- Code that is granted the removal of an entry at some place has none to remove there. -/
def Grant.PastEnd (g : Grant) (x : ObjId) (content : Option Content) : Prop :=
  ∀ rows p, content = some (.entries rows) → g.drops = some x → g.walk = some p → rows.size ≤ p

theorem Touch.keeps_frozen (how : Touch g m x o o') (frozen : o.FrozenWith ivars content)
    (unedited : g.edits ≠ some x) (past : g.PastEnd x content) : o'.FrozenWith ivars content := by
  obtain ⟨isFrozen, sameIvars, sameContent⟩ := frozen
  have never : o.frozen = false → o'.FrozenWith ivars content := by
    intro thawed
    rw [isFrozen] at thawed
    cases thawed
  cases how with
  | freeze => exact ⟨rfl, sameIvars, sameContent⟩
  | ivar s v thawed => exact never thawed
  | reclass s => exact ⟨isFrozen, sameIvars, sameContent⟩
  | items before after body thawed => exact never thawed
  | bytes before after body thawed => exact never thawed
  | table before after body thawed => exact never thawed
  | removal t p body may walking =>
      have rows : content = some (.entries t.entries) := by
        rw [← sameContent, body]
        rfl
      have kept := HashTable.entries_removeAt_of_le (past _ p rows may walking)
      refine ⟨isFrozen, sameIvars, ?_⟩
      rw [rows, Body.content, kept]
  | const c s v body => exact ⟨isFrozen, sameIvars, by rw [← sameContent, body]; rfl⟩
  | method c s method body thawed => exact never thawed
  | unmethod c s body thawed => exact never thawed
  | install p c noArg body => exact ⟨isFrozen, sameIvars, by rw [← sameContent, body]; rfl⟩
  | rebind p env body => exact ⟨isFrozen, sameIvars, by rw [← sameContent, body]; rfl⟩
  | write q values after isShared body =>
      exact ⟨isFrozen, sameIvars, by rw [← sameContent, body]; rfl⟩
  | edit e may => exact absurd may unedited

theorem Change.keeps_frozen (change : Change g m m') (tidy : m.heap.Tidy)
    (quiet : g.sweeps = false) (unedited : g.edits ≠ some x) (past : g.PastEnd x content)
    (before : ∃ o, m.object? x = some o ∧ o.FrozenWith ivars content) :
    ∃ o, m'.object? x = some o ∧ o.FrozenWith ivars content := by
  obtain ⟨o, present, frozen⟩ := before
  rcases change.object?_after tidy present with same | ⟨o', after, how⟩ |
    ⟨p, env, body, after⟩ | ⟨sweeps, -⟩
  · exact ⟨o, same, frozen⟩
  · exact ⟨o', after, how.keeps_frozen frozen unedited past⟩
  · refine ⟨_, after, frozen.frozen, frozen.ivars, ?_⟩
    rw [← frozen.content, body]
    rfl
  · rw [quiet] at sweeps
    cases sweeps

theorem Evolution.keeps_frozen (evolution : Evolution g m m') (tidy : m.heap.Tidy)
    (quiet : g.sweeps = false) (unedited : g.edits ≠ some x) (past : g.PastEnd x content)
    (before : ∃ o, m.object? x = some o ∧ o.FrozenWith ivars content) :
    ∃ o, m'.object? x = some o ∧ o.FrozenWith ivars content := by
  induction evolution with
  | refl => exact before
  | tail earlier change ih =>
      exact change.keeps_frozen (Evolution.tidy earlier tidy) quiet unedited past ih

end Changes

/-! ## Steps -/

namespace Scene

variable {a b : Scene} {x : ObjId} {o o' : Object} {ivars : SymMap Value}
  {content : Option Content}

/-- A visit of the hash `x` ends, and the walk takes out the entry at a place of the hash.  It may,
since the hash was thawed when the walk began. -/
def TakesOut (a : Scene) (x : ObjId) : Prop :=
  ∃ v hook position n visit next rest,
    a.script = .done (.value v) ∧
      a.pending = .entry hook (.obj x) true position n visit next :: rest ∧
      WalkStatus.ofResult (.ok v) = .remove ∧ position < (a.stage.machine.table (.obj x)).size

/-- Only the end of a visit is granted the removal of an entry at a place. -/
theorem visit_of_walk {p : Nat} (drops : a.grant.drops = some x) (walk : a.grant.walk = some p) :
    ∃ v hook n visit next rest, a.script = .done (.value v) ∧
      a.pending = .entry hook (.obj x) true p n visit next :: rest ∧
      WalkStatus.ofResult (.ok v) = .remove := by
  obtain ⟨script, pending, stage⟩ := a
  cases script with
  | guest r next => cases r <;> cases walk
  | bridge r next => cases r <;> cases walk
  | done o =>
      rcases pending with - | ⟨waiting, rest⟩
      · cases walk
      · cases waiting with
        | shield depth next => cases o <;> cases walk
        | entry hook hash removing position n visit next =>
            cases o with
            | value v =>
                simp only [grant, visitGrant, removes, Option.ite_none_right_eq_some,
                  Bool.and_eq_true, decide_eq_true_eq] at drops walk
                obtain ⟨⟨rfl, status⟩, same⟩ := walk
                cases same
                cases hash with
                | obj id =>
                    obtain ⟨-, same⟩ := drops
                    cases same
                    exact ⟨v, hook, n, visit, next, rest, rfl, rfl, status⟩
                | _ => cases drops.2
            | _ => simp [grant, visitGrant, removes] at walk
        | _ => cases walk
  | _ => cases walk

theorem step_keeps_frozen (stepped : a.step = some b) (tidy : a.stage.machine.heap.Tidy)
    (before : a.stage.machine.object? x = some o) (frozen : o.FrozenWith ivars content)
    (lawful : a.Lawful) (stays : ¬ a.TakesOut x)
    (after : b.stage.machine.object? x = some o') : o'.FrozenWith ivars content := by
  cases sweeps : a.grant.sweeps with
  | true =>
      obtain ⟨next, script⟩ := script_of_sweeps sweeps
      rw [machine_of_collect script stepped] at after
      have same : a.stage.machine.object? x = some o' := Heap.get?_of_get?_collect after
      cases before.symm.trans same
      exact frozen
  | false =>
      have past : a.grant.PastEnd x content := by
        intro rows p isEntries drops walk
        obtain ⟨v, hook, n, visit, next, rest, script, pending, status⟩ := visit_of_walk drops walk
        have holds : (a.stage.machine.table (.obj x)).entries = rows := by
          have content := frozen.content.trans isEntries
          cases body : o.body <;> simp only [body, Body.content] at content <;> cases content
          rw [Machine.table_of_hash before body]
        by_contra inside
        refine stays ⟨v, hook, p, n, visit, next, rest, script, pending, status, ?_⟩
        rw [HashTable.size, holds]
        exact Nat.not_le.mp inside
      have unedited : a.grant.edits ≠ some x := by simp [lawful]
      obtain ⟨p, present, kept⟩ := (step_evolution stepped tidy).1.keeps_frozen tidy sweeps unedited
        past ⟨o, before, frozen⟩
      cases after.symm.trans present
      exact kept

/-- A walk takes an entry out of a hash whether the hash is frozen or not. -/
theorem object?_of_takesOut (stepped : a.step = some b) (takes : a.TakesOut x)
    (before : a.stage.machine.object? x = some o) :
    ∃ t p, o.body = .hash t ∧ p < t.size ∧
      b.stage.machine.object? x = some { o with body := .hash (t.removeAt p) } := by
  obtain ⟨v, hook, p, n, visit, next, rest, script, pending, status, inside⟩ := takes
  obtain ⟨_, _, s⟩ := a
  cases script
  cases pending
  have machine : b.stage.machine.object? x = (s.machine.removeEntry (.obj x) p).object? x := by
    simp only [step, resume, Stage.surface, Option.map_some, status, if_true,
      Option.some.injEq] at stepped
    subst stepped
    unfold atEntry
    split <;> rfl
  obtain ⟨cls, isFrozen, vars, body⟩ := o
  have holds : body = .hash (s.machine.table (.obj x)) := by
    cases body with
    | hash t => rw [Machine.table_of_hash before rfl]
    | _ =>
        have none : s.machine.table (.obj x) = .empty := by
          simp [Machine.table, Machine.body?, Value.asObj, before]
        simp [none, HashTable.size, HashTable.empty] at inside
  refine ⟨_, p, holds, inside, ?_⟩
  rw [machine, Machine.removeEntry, Value.asObj, Machine.object?_modify, if_pos rfl, before, holds]
  rfl

end Scene

/-! ## Runs -/

namespace Situation

attribute [local irreducible] Machine.opened

variable {now later : Situation} {move : Move} {name : String} {i j : Instance} {x : ObjId}
  {ivars : SymMap Value} {content : Option Content}

def Lives (name : String) (x : ObjId) (now : Situation) : Prop :=
  ∃ i, now.world.instance? name = some i ∧ i.machine.Live x

def HasFrozen (name : String) (x : ObjId) (ivars : SymMap Value) (content : Option Content)
    (now : Situation) : Prop :=
  ∃ i o, now.world.instance? name = some i ∧ i.machine.object? x = some o ∧
    o.FrozenWith ivars content

/-- No walk takes an entry out of the object. -/
def Heeds (name : String) (x : ObjId) (now : Situation) : Move → Prop
  | .act acting => acting = name → ∀ a, now.scene? name = some a → ¬ a.TakesOut x
  | _ => True

theorem frozen_next {allowed : Situation → Move → Prop} (run : Run allowed {} now)
    (frozen : HasFrozen name x ivars content now) (heeds : Heeds name x now move)
    (moved : Next now move later) (lives : Lives name x later) :
    HasFrozen name x ivars content later := by
  obtain ⟨i, o, present, before, frozen⟩ := frozen
  obtain ⟨j, present', live⟩ := lives
  obtain ⟨o', after⟩ := live.object?
  have kept : move ≠ .close name := by
    intro closed
    subst closed
    cases moved
    rw [World.instance?_close_self] at present'
    cases present'
  obtain ⟨k, found, -, same | ⟨a, b, rfl, shown, stepped, here, there⟩⟩ := moved.onward present kept
  · cases found.symm.trans present'
    rw [same, before] at after
    cases after
    exact ⟨j, o, present', by rw [same, before], frozen⟩
  · cases found.symm.trans present'
    have tidy := tidy_of_run run present
    rw [← here] at before tidy
    rw [there] at after
    refine ⟨j, o', present', by rw [there, after], ?_⟩
    exact Scene.step_keeps_frozen stepped tidy before frozen (moved.lawful shown) (heeds rfl a shown)
      after

/-- What a frozen object holds stays the same for as long as the object lives, whatever is done
meanwhile, unless a walk that began before the object was frozen takes an entry out of it.  Each
time that happens a frozen hash loses an entry. -/
theorem frozen_data_kept (run : Run Anything {} now) (frozen : HasFrozen name x ivars content now) :
    (∀ later, Run (fun s move => Lives name x s ∧ Heeds name x s move) now later →
        Lives name x later → HasFrozen name x ivars content later) ∧
      ∀ later a, now.scene? name = some a → a.TakesOut x → Next now (.act name) later →
        ∃ rows less, content = some (.entries rows) ∧ less.size + 1 = rows.size ∧
          HasFrozen name x ivars (some (.entries less)) later := by
  constructor
  · intro later onward
    induction onward with
    | refl => exact fun _ => frozen
    | tail earlier moved ih =>
        intro lives
        obtain ⟨move, ⟨livesBefore, heeds⟩, moved⟩ := moved
        have start : Run Anything {} _ := run.trans (Run.mono (fun _ _ _ => trivial) earlier)
        exact frozen_next start (ih livesBefore) heeds moved lives
  · intro later a shown takes moved
    obtain ⟨i, o, present, before, frozen⟩ := frozen
    obtain ⟨j, b, found, machine, stepped, rfl⟩ := moved.acted shown
    cases present.symm.trans found
    rw [← machine] at before
    obtain ⟨t, p, body, inside, after⟩ := Scene.object?_of_takesOut stepped takes before
    refine ⟨t.entries, (t.removeAt p).entries, ?_, HashTable.size_removeAt inside, ?_⟩
    · rw [← frozen.content, body]
      rfl
    · exact ⟨_, _, World.instance?_put_self _, after, frozen.frozen, frozen.ivars, rfl⟩

/-! ## A hash frozen on a visit -/

/-- On its visit of an entry a script freezes the hash and has the entry taken out. -/
def freezing (h : Value) : Script := .guest (.freeze h) fun _ => Script.ret (.int 2)

def filling (h : Value) : Script :=
  .guest (.hashSet h (.int 1) (.int 2)) fun _ =>
    .walkHash .direct h (fun _ _ _ => freezing h) fun _ => Script.ret h

/-- A script that does so for a hash with one entry. -/
def sieve : Script := .guest .hashNew filling

def sieveTable : HashTable := HashTable.empty.insert (.int 1) (.int 1) (.int 2)

/-- The visit of the only entry is about to end. -/
def sieving (h : ObjId) (s : Stage) : Scene where
  script := Script.ret (.int 2)
  pending := [.entry none (.obj h) true 0 0 (fun _ _ _ => freezing (.obj h))
    fun _ => Script.ret (.obj h)]
  stage := s

theorem steps_sieving {m : Machine} (tidy : m.heap.Tidy) :
    ∃ s : Stage, Scene.LawfulSteps ⟨sieve, [], { machine := m }⟩
        (sieving (m.newId (Object.ofTable .empty)) s) ∧
      s.machine.object? (m.newId (Object.ofTable .empty)) =
        some { Object.ofTable sieveTable with frozen := true } := by
  let made := m.withNew (Object.ofTable .empty)
  have present : made.object? (m.newId (Object.ofTable .empty)) = some (Object.ofTable .empty) := by
    rw [Machine.object?_withNew tidy, if_pos rfl]
  have first : Scene.step ⟨sieve, [], { machine := m }⟩ =
      some ⟨filling (.obj (m.newId (Object.ofTable .empty))), [], { machine := made }⟩ := rfl
  generalize m.newId (Object.ofTable .empty) = h at present first ⊢
  let filled := made.withTable h sieveTable
  have holds : filled.object? h = some (Object.ofTable sieveTable) :=
    Machine.object?_withTable present _
  have walked : Scene.step ⟨.walkHash .direct (.obj h) (fun _ _ _ => freezing (.obj h))
        fun _ => Script.ret (.obj h), [], { machine := filled }⟩ =
      some ⟨freezing (.obj h), (sieving h { machine := filled }).pending,
        { machine := filled.beginWalk }⟩ := by
    have typed : filled.typeOf (.obj h) = .hash := Machine.typeOf_obj holds
    have rows : filled.beginWalk.table (.obj h) = sieveTable := Machine.table_of_hash holds rfl
    have thawed : filled.isFrozen (.obj h) = false := by
      simp [Machine.isFrozen, holds, Object.ofTable]
    simp only [Scene.step, Stage.hook_direct, Stage.act, Act.run_expectType typed, Option.map_some,
      Scene.atEntry, Stage.onMachine, rows, thawed]
    rfl
  let frozen : Machine := { filled.beginWalk with
    heap := filled.beginWalk.heap.modify h fun o => { o with frozen := true } }
  have last : Scene.step ⟨freezing (.obj h), (sieving h { machine := filled }).pending,
      { machine := filled.beginWalk }⟩ = some (sieving h { machine := frozen }) := rfl
  have second := Scene.step_hashSet_int present 1 (.int 2) (fun _ =>
    .walkHash .direct (.obj h) (fun _ _ _ => freezing (.obj h)) fun _ => Script.ret (.obj h)) []
  refine ⟨{ machine := frozen },
    .head ⟨rfl, first⟩ (.head ⟨rfl, second⟩ (.head ⟨rfl, walked⟩ (.single ⟨rfl, last⟩))), ?_⟩
  rw [Machine.object?_modify, if_pos rfl]
  exact congrArg (Option.map _) holds

def sieveId : ObjId := (Machine.opened ⟨1⟩ {}).newId (Object.ofTable .empty)

/-- In a run of the script the hash is frozen and still has its entry when the visit ends. -/
theorem run_sieving : ∃ s : Stage,
    Run Anything {} ((beginning sieve).showing "vm" { machine := .opened ⟨1⟩ {} }
      (sieving sieveId s)) ∧
      s.machine.object? sieveId = some { Object.ofTable sieveTable with frozen := true } := by
  obtain ⟨s, steps, present⟩ := steps_sieving (Machine.original_opened ⟨1⟩ {}).tidy
  have begun : Run Anything {} (beginning sieve) := run_beginning sieve trivial trivial
  rw [← showing_beginning sieve] at begun
  exact ⟨s, begun.trans (run_showing steps), present⟩

/-- The hash keeps its entry until the visit ends, and then loses it although it is frozen. -/
theorem frozen_data_kept_sieved :
    ∃ now later, Run Anything {} now ∧
      HasFrozen "vm" sieveId {} (some (.entries #[(.int 1, .int 2)])) now ∧
      (∀ next, Run (fun s move => Lives "vm" sieveId s ∧ Heeds "vm" sieveId s move) now next →
        Lives "vm" sieveId next →
        HasFrozen "vm" sieveId {} (some (.entries #[(.int 1, .int 2)])) next) ∧
      Next now (.act "vm") later ∧ HasFrozen "vm" sieveId {} (some (.entries #[])) later := by
  obtain ⟨s, run, present⟩ := run_sieving
  have isFrozen : HasFrozen "vm" sieveId {} (some (.entries #[(.int 1, .int 2)]))
      ((beginning sieve).showing "vm" { machine := .opened ⟨1⟩ {} } (sieving sieveId s)) :=
    ⟨_, _, World.instance?_put_self _, present, rfl, rfl, rfl⟩
  obtain ⟨kept, loses⟩ := frozen_data_kept run isFrozen
  have takes : (sieving sieveId s).TakesOut sieveId := by
    have rows : s.machine.table (.obj sieveId) = sieveTable := Machine.table_of_hash present rfl
    refine ⟨.int 2, none, 0, 0, _, _, [], rfl, rfl, by decide, ?_⟩
    rw [sieving, rows]
    decide
  obtain ⟨b, stepped⟩ : ∃ b, (sieving sieveId s).step = some b := ⟨_, rfl⟩
  obtain ⟨rows, less, same, fewer, left⟩ := loses _ _ scene?_showing takes (next_showing stepped rfl)
  cases same
  obtain rfl : less = #[] := Array.eq_empty_of_size_eq_zero (Nat.succ.inj fewer)
  exact ⟨_, _, run, ⟨_, _, World.instance?_put_self _, present, rfl, rfl, rfl⟩, kept,
    next_showing stepped rfl, left⟩

end Situation

end GuestVM
