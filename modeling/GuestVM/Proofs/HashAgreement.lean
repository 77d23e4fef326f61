import GuestVM.Proofs.Machine.Building
import GuestVM.Proofs.Machine.Keys
import GuestVM.Proofs.NoDangling

/-! # Enumeration and lookup of hashes

What a hash enumerates is what its lookup finds, by the content of the keys, and the entries are in
the order in which their keys came in.  The table of a hash notes what a key stands for only once,
so this rests on everything else that a machine does: string keys are copied and frozen, no
operation writes a frozen string, and no collection takes a key. -/
set_option autoImplicit false

namespace GuestVM

namespace Machine

variable {m : Machine} {h : ObjId} {t : HashTable} {o : Object}

/-- What a hash holds, in its order. -/
def entriesOf (m : Machine) (h : ObjId) : List (Value × Value) := (m.table (.obj h)).entries.toList

structure HashAgrees (m : Machine) (h : ObjId) : Prop where
  entries : (Act.hashEntries (.obj h)).run.run m = (.ok (m.entriesOf h), m)
  distinct : (m.entriesOf h).Pairwise fun e e' => ¬ m.SameContent e.1 e'.1
  found : ∀ e ∈ m.entriesOf h, (Act.hashGet (.obj h) e.1).run.run m = (.ok (some e.2), m)
  lookup : ∀ key, ∃ r, (Act.hashGet (.obj h) key).run.run m = (.ok r, m) ∧
    ∀ v, r = some v ↔ ∃ e ∈ m.entriesOf h, m.SameContent e.1 key ∧ e.2 = v
  /-- A key that is there keeps its place, and any other goes behind all. -/
  set : ∀ key v m', (Act.hashSet (.obj h) key v).run.run m = (.ok (), m') →
    (∃ before e after, m.entriesOf h = before ++ e :: after ∧ m.SameContent e.1 key ∧
        m'.entriesOf h = before ++ (e.1, v) :: after) ∨
      (∀ e ∈ m.entriesOf h, ¬ m.SameContent e.1 key) ∧
        ∃ stored, m'.hashKey stored = m.hashKey key ∧
          m'.entriesOf h = m.entriesOf h ++ [(stored, v)]

theorem Keyed.agrees (keyed : m.Keyed t) (tidy : m.heap.Tidy) (present : m.object? h = some o)
    (body : o.body = .hash t) : m.HashAgrees h := by
  have typed : m.typeOf (.obj h) = .hash := by
    rw [typeOf_obj present, Object.tag, body]
  have holds : m.table (.obj h) = t := table_of_hash present body
  have rows : m.entriesOf h = t.entries.toList := by rw [entriesOf, holds]
  have run : ∀ key, (Act.hashGet (.obj h) key).run.run m =
      (.ok (t.get? (m.hashKey key)), m) := by
    intro key
    unfold Act.hashGet Act.hashTable
    rw [Act.run_bind, Act.run_bind, Act.run_expectType typed, ← holds]
    rfl
  constructor
  case entries =>
    unfold Act.hashEntries Act.hashTable
    rw [Act.run_bind, Act.run_bind, Act.run_expectType typed]
    rfl
  case distinct => exact rows ▸ keyed.distinct
  case found =>
    intro e member
    rw [run e.1, keyed.get?_iff.mpr ⟨e, rows ▸ member, .inl rfl, rfl⟩]
  case lookup =>
    intro key
    refine ⟨_, run key, fun v => ?_⟩
    rw [rows, keyed.get?_iff]
  case set =>
    intro key v m' ran
    have did := Act.does_hashSet (g := { ids := Value.objects [key, v] }) (.obj h) key v rfl
      (fun x member => .inl member) tidy
    rw [ran] at did
    obtain ⟨-, stored, stands, after⟩ := did
    have rows' : m'.entriesOf h = (t.insert (m.hashKey key) stored v).entries.toList := by
      rw [entriesOf, after, holds]
    rw [rows, rows']
    rcases keyed.entries_insert stored with kept | ⟨fresh, last⟩
    · exact .inl kept
    · exact .inr ⟨fresh, stored, stands, last⟩

/-- What a careful run keeps of the hashes of a machine. -/
structure Filed (m : Machine) : Prop where
  tidy : m.heap.Tidy
  closed : m.Closed
  keyed : m.AllKeyed

namespace Filed

theorem of_original (original : m.Original) : m.Filed :=
  ⟨original.tidy, .of_original original, .of_original original⟩

theorem contents (filed : m.Filed) (h : ObjId) :
    ((m.entriesOf h).map fun e => m.hashKey e.1) = m.keysOf h := by
  cases present : m.object? h with
  | none =>
      have empty : m.table (.obj h) = .empty := by
        simp [table, body?, Value.asObj, present]
      rw [keysOf_of_dead present, entriesOf, empty]
      rfl
  | some o =>
      rw [keysOf_of_object? present]
      by_cases isHash : ∃ t, o.body = .hash t
      · obtain ⟨t, body⟩ := isHash
        rw [Object.keys_of_hash body, entriesOf, table_of_hash present body]
        exact (filed.keyed h o t present body).stands
      · have empty : m.table (.obj h) = .empty := by
          cases body : o.body with
          | hash t => exact absurd ⟨t, body⟩ isHash
          | _ => simp [table, body?, Value.asObj, present, body]
        rw [Object.keys_of_other fun t body => isHash ⟨t, body⟩, entriesOf, empty]
        rfl

end Filed

end Machine

namespace Scene

variable {a b : Scene}

theorem step_filed (stepped : a.step = some b) (lawful : a.Lawful)
    (handed : ∀ x ∈ a.grant.ids, a.stage.machine.Live x)
    (filed : a.stage.machine.Filed) :
    b.stage.machine.Filed ∧ ∀ h, KeysGo (a.stage.machine.keysOf h) (b.stage.machine.keysOf h) := by
  obtain ⟨tidy, closed, keyed⟩ := filed
  obtain ⟨tidy', closed'⟩ := Situation.closed_step stepped handed ⟨tidy, closed⟩
  rcases step_kind stepped tidy with ⟨quiet, evolution⟩ | collected
  · obtain ⟨keyed', go⟩ := evolution.keysOf tidy closed handed lawful quiet keyed
    exact ⟨⟨tidy', closed', keyed'⟩, go⟩
  · have keyed' := collected.allKeyed tidy closed (List.forall_mem_nil _) rfl keyed
    exact ⟨⟨tidy', closed', keyed'⟩, fun h => (collected.keysOf tidy rfl keyed h).go⟩

end Scene

namespace Situation

attribute [local irreducible] Machine.opened

/-- A key with a content is in the hash. -/
def HasKey (name : String) (h : ObjId) (k : HashKey) (now : Situation) : Prop :=
  ∃ i, now.world.instance? name = some i ∧ ∃ e ∈ i.machine.entriesOf h, i.machine.hashKey e.1 = k

/-- The key has been in the hash at every moment since an earlier one. -/
def KeyStays (name : String) (h : ObjId) (k : HashKey) (earlier now : Situation) : Prop :=
  Run (fun s move => Careful s move ∧ HasKey name h k s) earlier now

structure HashInOrder (now : Situation) (name : String) (i : Instance) (h : ObjId) : Prop where
  agrees : i.machine.HashAgrees h
  /-- What stands before a key has been in the hash for as long as the key. -/
  order : ∀ p q, [p, q].Sublist (i.machine.entriesOf h) → ∀ earlier, Run Careful {} earlier →
    KeyStays name h (i.machine.hashKey q.1) earlier now →
      HasKey name h (i.machine.hashKey p.1) earlier ∧
        KeyStays name h (i.machine.hashKey p.1) earlier now

variable {now later : Situation} {move : Move} {name : String} {i : Instance} {h : ObjId}
  {p q : HashKey}

theorem Run.filed (run : Run Careful {} now) (present : now.world.instance? name = some i) :
    i.machine.Filed := by
  refine Run.machines (P := Machine.Filed)
    (fun h c => .of_original (Machine.original_opened h c)) ?_ run present
  intro now name a b careful shown lawful stepped filed
  exact (Scene.step_filed stepped lawful (careful a shown) filed).1

theorem hasKey_iff (run : Run Careful {} now) (present : now.world.instance? name = some i) :
    HasKey name h p now ↔ p ∈ i.machine.keysOf h := by
  rw [← (run.filed present).contents h, List.mem_map]
  constructor
  · intro has
    obtain ⟨j, present', e, member, stands⟩ := has
    cases present.symm.trans present'
    exact ⟨e, member, stands⟩
  · intro there
    obtain ⟨e, member, stands⟩ := there
    exact ⟨i, present, e, member, stands⟩

/-- Two identities of keys in the hash, one before the other. -/
def KeysBefore (name : String) (h : ObjId) (p q : HashKey) (now : Situation) : Prop :=
  ∃ i, now.world.instance? name = some i ∧ [p, q].Sublist (i.machine.keysOf h)

/-- What stands before a key that was there was there, too, and stood before it. -/
theorem keysBefore_earlier (run : Run Careful {} now) (careful : Careful now move)
    (moved : Next now move later) (had : HasKey name h q now)
    (ordered : KeysBefore name h p q later) : KeysBefore name h p q now := by
  obtain ⟨j, after, ordered⟩ := ordered
  rcases moved.origin after with ⟨i, before, machine, -⟩ | ⟨config, -, can, -⟩ |
    ⟨i, a, b, rfl, before, shown, stepped, here, machine, -⟩
  · exact ⟨i, before, machine ▸ ordered⟩
  · obtain ⟨i, before, -⟩ := had
    rw [can.free] at before
    cases before
  · have filed : a.stage.machine.Filed := here ▸ run.filed before
    have go := (Scene.step_filed stepped (moved.lawful shown) (careful a shown) filed).2 h
    rw [machine] at ordered
    rw [here] at go
    exact ⟨i, before, go.pair ((hasKey_iff run before).mp had) ordered⟩

theorem KeysBefore.hasKey (run : Run Careful {} now) (ordered : KeysBefore name h p q now) :
    HasKey name h p now := by
  obtain ⟨i, present, ordered⟩ := ordered
  exact (hasKey_iff run present).mpr (ordered.subset (List.mem_cons_self ..))

theorem KeyStays.of_keysBefore (stays : KeyStays name h q now later) (run : Run Careful {} now)
    (ordered : KeysBefore name h p q later) :
    KeysBefore name h p q now ∧ KeyStays name h p now later := by
  induction stays using Relation.ReflTransGen.head_induction_on with
  | refl => exact ⟨ordered, .refl⟩
  | head moved rest ih =>
      obtain ⟨move, ⟨careful, had⟩, moved⟩ := moved
      obtain ⟨orderedNext, staysNext⟩ := ih (run.tail ⟨move, careful, moved⟩)
      have before := keysBefore_earlier run careful moved had orderedNext
      exact ⟨before, .head ⟨move, ⟨careful, before.hasKey run⟩, moved⟩ staysNext⟩

/-- In every hash lookup finds the entries, and the keys are in the order in which they came in. -/
theorem hash_agrees (run : Run Careful {} now) (present : now.world.instance? name = some i)
    (typed : i.machine.typeOf (.obj h) = .hash) : HashInOrder now name i h := by
  have filed := run.filed present
  obtain ⟨o, alive⟩ := Machine.live_of_typeOf typed (by decide)
  have body := Machine.hash_of_typeOf alive typed
  refine ⟨(filed.keyed h o _ alive body).agrees filed.tidy alive body, ?_⟩
  intro p q ordered earlier start stays
  have now : KeysBefore name h (i.machine.hashKey p.1) (i.machine.hashKey q.1) now :=
    ⟨i, present, filed.contents h ▸ ordered.map fun e : Value × Value => i.machine.hashKey e.1⟩
  obtain ⟨before, stays'⟩ := stays.of_keysBefore start now
  exact ⟨before.hasKey start, stays'⟩

/-! ## A hash with two keys -/

/-- Makes a hash with two entries and goes on with it. -/
def pairing (after : Value → Script) : Script :=
  .guest .hashNew fun h =>
    .guest (.hashSet h (.int 1) (.int 2)) fun _ =>
      .guest (.hashSet h (.int 3) (.int 4)) fun _ => after h

def pairTable : HashTable :=
  (HashTable.empty.insert (.int 1) (.int 1) (.int 2)).insert (.int 3) (.int 3) (.int 4)

/-- The steps of the script hand over nothing. -/
theorem steps_pairing {m : Machine} (tidy : m.heap.Tidy) (after : Value → Script) :
    ∃ (h : ObjId) (m' : Machine), Relation.ReflTransGen
        (fun a b : Scene => (a.Lawful ∧ a.grant.ids = []) ∧ a.step = some b)
        ⟨pairing after, [], { machine := m }⟩ ⟨after (.obj h), [], { machine := m' }⟩ ∧
      m'.object? h = some (.ofTable pairTable) := by
  let made := m.withNew (.ofTable .empty)
  have present : made.object? (m.newId (.ofTable .empty)) = some (.ofTable .empty) := by
    rw [Machine.object?_withNew tidy, if_pos rfl]
  let setting (h : ObjId) : Script := .guest (.hashSet (.obj h) (.int 3) (.int 4)) fun _ =>
    after (.obj h)
  have first : Scene.step ⟨pairing after, [], { machine := m }⟩ =
      some ⟨.guest (.hashSet (.obj (m.newId (.ofTable .empty))) (.int 1) (.int 2)) fun _ =>
        setting (m.newId (.ofTable .empty)), [], { machine := made }⟩ := rfl
  generalize m.newId (.ofTable .empty) = h at present first
  generalize made = m₁ at present first
  have second := Scene.step_hashSet_int present 1 (.int 2) (fun _ => setting h) []
  have filled :=
    Machine.object?_withTable present (HashTable.empty.insert (.int 1) (.int 1) (.int 2))
  have third := Scene.step_hashSet_int filled 3 (.int 4) (fun _ => after (.obj h)) []
  exact ⟨h, (m₁.withTable h _).withTable h pairTable,
    .head ⟨⟨rfl, rfl⟩, first⟩ (.head ⟨⟨rfl, rfl⟩, second⟩ (.single ⟨⟨rfl, rfl⟩, third⟩)),
    Machine.object?_withTable filled pairTable⟩

theorem entriesOf_pairTable {m : Machine} {h : ObjId}
    (present : m.object? h = some (.ofTable pairTable)) :
    m.entriesOf h = [(.int 1, .int 2), (.int 3, .int 4)] := by
  rw [Machine.entriesOf, Machine.table_of_hash present rfl]
  rfl

theorem run_pairing (after : Value → Script) :
    ∃ (h : ObjId) (m : Machine), Run Careful {} ((beginning (pairing after)).showing "vm"
        { machine := .opened ⟨1⟩ {} } ⟨after (.obj h), [], { machine := m }⟩) ∧
      m.object? h = some (.ofTable pairTable) := by
  obtain ⟨h, m, steps, present⟩ := steps_pairing (Machine.original_opened ⟨1⟩ {}).tidy after
  have begun : Run Careful {} (beginning (pairing after)) :=
    run_beginning (pairing after) trivial trivial
  rw [← showing_beginning (pairing after)] at begun
  refine ⟨h, m, begun.trans (run_while steps fun a quiet => ⟨quiet.1, fun b shown => ?_⟩), present⟩
  cases scene?_showing.symm.trans shown
  simp [quiet.2]

theorem hash_agrees_paired : ∃ now i h, Run Careful {} now ∧
    now.world.instance? "vm" = some i ∧
      i.machine.entriesOf h = [(.int 1, .int 2), (.int 3, .int 4)] ∧
        HashInOrder now "vm" i h := by
  obtain ⟨h, m, run, present⟩ := run_pairing Script.ret
  exact ⟨_, _, h, run, World.instance?_put_self _, entriesOf_pairTable present,
    hash_agrees run (World.instance?_put_self _) (Machine.typeOf_obj present)⟩

end Situation

end GuestVM
