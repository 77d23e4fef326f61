import GuestVM.Proofs.Machine.Building
import GuestVM.Proofs.Machine.Established
import GuestVM.Proofs.Scene.Hooks

/-! # Operations of typed handles

A typed handle is an id whose object had the right type when the handle was made.  Each operation
begins with a check of the type that the object in the slot has by then (`Operation.begins`), and
nothing else tells it whether that is still the object of the handle.  So while the slot holds no
object of the type, every operation is refused (`Operation.refused`), and as soon as it holds one,
the operations serve that one (`Machine.serves_of_typeOf`). -/
set_option autoImplicit false

namespace GuestVM

/-- What typed handles are made for. -/
inductive HandleKind where
  | array | string | hash | range | proc

namespace HandleKind

open Act

def type : HandleKind → ValueType
  | .array => .array
  | .string => .string
  | .hash => .hash
  | .range => .range
  | .proc => .proc

/-- The operations of the handle `x` that may raise; of a call and of a walk, what they begin
with. -/
inductive Operation (x : ObjId) : HandleKind → {α : Type} → Act α → Prop
  | arrayLen : Operation x .array (arrayLen (.obj x))
  | arrayGet (index : Int64) : Operation x .array (arrayGet (.obj x) index)
  | itemOr (index : Int64) (default : Value) : Operation x .array (itemOr x index default)
  | arraySet (index : Int64) (v : Value) : Operation x .array (arraySet (.obj x) index v)
  | arrayPush (v : Value) : Operation x .array (arrayPush (.obj x) v)
  | arrayValues : Operation x .array (arrayValues (.obj x))
  | stringLen : Operation x .string (stringLen (.obj x))
  | stringBytes : Operation x .string (stringBytes (.obj x))
  | stringText : Operation x .string (stringText (.obj x))
  | stringAppend (tail : String) : Operation x .string (stringAppend (.obj x) tail)
  | hashLen : Operation x .hash (hashLen (.obj x))
  | hashGet (key : Value) : Operation x .hash (hashGet (.obj x) key)
  | fetch (key : Value) : Operation x .hash (fetch x key)
  | hashSet (key v : Value) : Operation x .hash (hashSet (.obj x) key v)
  | hashDelete (key : Value) : Operation x .hash (hashDelete (.obj x) key)
  | hashKeys : Operation x .hash (hashKeys (.obj x))
  | hashValues : Operation x .hash (hashValues (.obj x))
  | hashClear : Operation x .hash (hashClear (.obj x))
  | walk : Operation x .hash (expectType (.obj x) .hash)
  | rangeData : Operation x .range (rangeData (.obj x))
  | rangeSpan (len : Int64) (trunc : Bool) : Operation x .range (rangeSpan (.obj x) len trunc)
  | envGet (index : Int64) : Operation x .proc (envGet (.obj x) index)
  | call (self : Value) (args : List Value) : Operation x .proc (enterProc (.obj x) self args)

/-- The checks that operations begin with. -/
inductive Check (x : ObjId) : HandleKind → Act ObjId → Prop
  | type (kind : HandleKind) : Check x kind (expectType (.obj x) kind.type)
  | proc : Check x .proc (expectProc (.obj x))
  | owner : Check x .proc (envOwner (.obj x))

variable {α β : Type} {x : ObjId} {kind : HandleKind} {a : Act α} {m : Machine}

/-! ## Checks -/

def Begins (check : Act ObjId) (a : Act α) : Prop := ∃ rest : ObjId → Act α, a = check >>= rest

theorem Begins.bind {check : Act ObjId} (begins : Begins check a) (f : α → Act β) :
    Begins check (a >>= f) := by
  obtain ⟨rest, rfl⟩ := begins
  exact ⟨fun id => rest id >>= f, bind_assoc _ _ _⟩

theorem begins_arrayItems (v : Value) : Begins (expectType v .array) (arrayItems v) := ⟨_, rfl⟩

theorem begins_arrayLen (v : Value) : Begins (expectType v .array) (Act.arrayLen v) :=
  (begins_arrayItems v).bind _

theorem begins_stringBytes (v : Value) : Begins (expectType v .string) (Act.stringBytes v) :=
  ⟨_, rfl⟩

theorem begins_hashTable (v : Value) : Begins (expectType v .hash) (hashTable v) := ⟨_, rfl⟩

theorem begins_hashGet (v key : Value) : Begins (expectType v .hash) (Act.hashGet v key) :=
  (begins_hashTable v).bind _

theorem begins_hashEntries (v : Value) : Begins (expectType v .hash) (hashEntries v) :=
  (begins_hashTable v).bind _

theorem begins_rangeData (v : Value) : Begins (expectType v .range) (Act.rangeData v) := ⟨_, rfl⟩

theorem Operation.begins (operation : Operation x kind a) :
    ∃ check, Check x kind check ∧ Begins check a := by
  cases operation with
  | arrayLen => exact ⟨_, .type .array, begins_arrayLen _⟩
  | arrayGet => exact ⟨_, .type .array, (begins_arrayItems _).bind _⟩
  | itemOr => exact ⟨_, .type .array, (begins_arrayLen _).bind _⟩
  | arraySet => exact ⟨_, .type .array, _, rfl⟩
  | arrayPush => exact ⟨_, .type .array, _, rfl⟩
  | arrayValues => exact ⟨_, .type .array, (begins_arrayItems _).bind _⟩
  | stringLen => exact ⟨_, .type .string, (begins_stringBytes _).bind _⟩
  | stringBytes => exact ⟨_, .type .string, begins_stringBytes _⟩
  | stringText => exact ⟨_, .type .string, (begins_stringBytes _).bind _⟩
  | stringAppend => exact ⟨_, .type .string, _, rfl⟩
  | hashLen => exact ⟨_, .type .hash, (begins_hashTable _).bind _⟩
  | hashGet => exact ⟨_, .type .hash, begins_hashGet _ _⟩
  | fetch => exact ⟨_, .type .hash, (begins_hashGet _ _).bind _⟩
  | hashSet => exact ⟨_, .type .hash, _, rfl⟩
  | hashDelete => exact ⟨_, .type .hash, _, rfl⟩
  | hashKeys => exact ⟨_, .type .hash, (begins_hashEntries _).bind _⟩
  | hashValues => exact ⟨_, .type .hash, (begins_hashEntries _).bind _⟩
  | hashClear => exact ⟨_, .type .hash, _, rfl⟩
  | walk => exact ⟨_, .type .hash, _, (bind_pure _).symm⟩
  | rangeData => exact ⟨_, .type .range, begins_rangeData _⟩
  | rangeSpan => exact ⟨_, .type .range, (begins_rangeData _).bind _⟩
  | envGet => exact ⟨_, .owner, _, rfl⟩
  | call => exact ⟨_, .proc, _, rfl⟩

/-- The action only raises a TypeError, or has to write out the value, which has no end. -/
def Stops (a : Act α) (m : Machine) (v : Value) : Prop :=
  (∃ message, a.run.run m = (fail .typeError message : Act α).run.run m) ∨
    m.inspect v = none ∧ a.run.run m = (.error .endless, m)

theorem stops_describe_fail (v : Value) (text : String → String) :
    Stops (do fail .typeError (text (← describe v)) : Act α) m v := by
  unfold describe
  cases written : m.inspect v with
  | none =>
      refine .inr ⟨written, ?_⟩
      rw [run_bind, run_get_bind, written]
      rfl
  | some s =>
      refine .inl ⟨text s, ?_⟩
      rw [run_bind, run_get_bind, written]
      rfl

theorem Check.stops {check : Act ObjId} (checks : Check x kind check)
    (other : m.typeOf (.obj x) ≠ kind.type) : Stops check m (.obj x) := by
  cases checks with
  | type =>
      have same : (expectType (.obj x) kind.type).run.run m = (do
          fail .typeError ((← describe (.obj x)) ++ " cannot be converted to " ++ kind.type.name) :
          Act ObjId).run.run m := by
        unfold expectType
        rw [run_get_bind]
        simp only [Value.asObj, if_neg other]
      rw [Stops, same]
      exact stops_describe_fail _ fun text => text ++ " cannot be converted to " ++ kind.type.name
  | proc =>
      have noProc : ¬ m.typeOf (.obj x) = .proc := other
      have same : (expectProc (.obj x)).run.run m = (do
          fail .typeError ((← describe (.obj x)) ++ " is not a Proc") : Act ObjId).run.run m := by
        unfold expectProc
        rw [run_get_bind]
        simp only [Value.asObj, if_neg noProc]
      rw [Stops, same]
      exact stops_describe_fail _ fun text => text ++ " is not a Proc"
  | owner =>
      have noProc : ¬ m.typeOf (.obj x) = .proc := other
      refine .inl ⟨"Can't get cfunc env from non-cfunc proc.", ?_⟩
      unfold envOwner
      rw [run_get_bind]
      simp only [if_neg noProc]

theorem Operation.stops (operation : Operation x kind a) (other : m.typeOf (.obj x) ≠ kind.type) :
    Stops a m (.obj x) := by
  obtain ⟨check, checks, rest, rfl⟩ := operation.begins
  rcases checks.stops other with ⟨message, ran⟩ | ⟨endless, ran⟩
  · refine .inl ⟨message, ?_⟩
    rw [run_bind, ran, ← run_bind]
    exact run_fail_bind _ _ rest
  · refine .inr ⟨endless, ?_⟩
    rw [run_bind, ran]

end HandleKind

/-! ## Refusals -/

/-- The action raises an exception of a built-in class, and that is all that comes of it. -/
def Machine.Fails {α : Type} (m : Machine) (a : Act α) (b : Builtin) (message : String) : Prop :=
  ∃ e m' id, a.run.run m = (.error (.raised e), m') ∧ m.Unharmed e m' id ∧
    m'.realClassOf e.value = b.id ∧ e.message = message

/-- The action raises a TypeError, and that is all that comes of it. -/
def Machine.Refuses {α : Type} (m : Machine) (a : Act α) : Prop :=
  ∃ e m' id, a.run.run m = (.error (.raised e), m') ∧ m.Unharmed e m' id ∧
    m'.realClassOf e.value = Builtin.typeError.id

section Refusals

variable {α : Type} {x : ObjId} {kind : HandleKind} {a : Act α} {m : Machine}

theorem Machine.Established.fails (established : m.Established) {b : Builtin} {message : String}
    (ran : a.run.run m = (Act.fail b message : Act α).run.run m) : m.Fails a b message := by
  have raisable := established.builtin_raisable b
  obtain ⟨e, failed, value⟩ := Act.run_fail_new (α := α) raisable message
  have spares : Act.Spares (Act.fail b message : Act α) m fun _ _ => True :=
    Act.spares_fail b message
  have spared := spares established.tidy
  rw [failed] at spared
  obtain ⟨id, unharmed⟩ := Machine.Spared.unharmed spared established.tidy
  refine ⟨e, _, id, ran.trans failed, unharmed, ?_, ?_⟩
  · rw [value, Machine.realClassOf_raising raisable, established.realClass_builtin]
  · obtain ⟨c, made⟩ := unharmed.made
    have same : Machine.newId m (.exception b.id message) = id :=
      Value.obj.inj (value.symm.trans unharmed.value)
    have present : (m.raising (.exception b.id message)).object? id =
        some (.exception b.id message) :=
      same ▸ (Machine.object?_withNew established.tidy _ _).trans (if_pos rfl)
    cases present.symm.trans made
    rfl

theorem Machine.Fails.bind {β : Type} {b : Builtin} {message : String} (f : α → Act β)
    (fails : m.Fails a b message) : m.Fails (a >>= f) b message := by
  obtain ⟨e, m', id, ran, rest⟩ := fails
  exact ⟨e, m', id, by rw [Act.run_bind, ran], rest⟩

theorem Machine.Established.refuses (established : m.Established) {message : String}
    (ran : a.run.run m = (Act.fail .typeError message : Act α).run.run m) : m.Refuses a := by
  obtain ⟨e, m', id, failed, unharmed, kind, -⟩ := established.fails ran
  exact ⟨e, m', id, failed, unharmed, kind⟩

theorem HandleKind.Operation.refused (operation : kind.Operation x a) (established : m.Established)
    (other : m.typeOf (.obj x) ≠ kind.type) :
    m.Refuses a ∨ m.inspect (.obj x) = none ∧ a.run.run m = (.error .endless, m) := by
  rcases operation.stops other with ⟨message, ran⟩ | endless
  · exact .inl (established.refuses ran)
  · exact .inr endless

theorem Machine.inspect_dead (dead : m.object? x = none) :
    m.inspect (.obj x) = some ("#<dead " ++ x.text ++ ">") := by
  simp [inspect, inspectWithin, body?, Value.asObj, dead]

theorem HandleKind.type_ne_dead (dead : m.object? x = none) : m.typeOf (.obj x) ≠ kind.type := by
  cases kind <;> simp [Machine.typeOf, dead, HandleKind.type]

theorem HandleKind.Operation.refused_dead (operation : kind.Operation x a)
    (established : m.Established) (dead : m.object? x = none) : m.Refuses a := by
  rcases operation.refused established (HandleKind.type_ne_dead dead) with refuses | ⟨endless, -⟩
  · exact refuses
  · rw [Machine.inspect_dead dead] at endless
    cases endless

end Refusals

/-! ## What operations change -/

section Changes

variable {α : Type} {x : ObjId} {kind : HandleKind} {a : Act α} {m : Machine}

open Act

theorem HandleKind.Operation.spares (operation : kind.Operation x a) :
    Spares a m fun _ m' => m.OnlyIn (.obj x) m' := by
  have reads : Spares a m (fun _ m' => m' = m) → Spares a m fun _ m' => m.OnlyIn (.obj x) m' :=
    fun spares => spares.mono fun _ _ same => same ▸ .refl m _
  cases operation with
  | arrayLen => exact reads (spares_arrayLen _)
  | arrayGet index => exact reads (spares_arrayGet _ index)
  | itemOr index default => exact reads (spares_itemOr x index default)
  | arraySet index v => exact spares_arraySet _ index v
  | arrayPush v => exact spares_arrayPush _ v
  | arrayValues => exact reads (spares_arrayValues _)
  | stringLen => exact reads (spares_stringLen _)
  | stringBytes => exact reads (spares_stringBytes _)
  | stringText => exact reads (spares_stringText _)
  | stringAppend tail => exact spares_stringAppend _ tail
  | hashLen => exact reads (spares_hashLen _)
  | hashGet key => exact reads (spares_hashGet _ key)
  | fetch key => exact reads (spares_fetch x key)
  | hashSet key v => exact spares_hashSet _ key v
  | hashDelete key => exact spares_hashDelete _ key
  | hashKeys => exact reads (spares_hashKeys _)
  | hashValues => exact reads (spares_hashValues _)
  | hashClear => exact spares_hashClear _
  | walk => exact reads ((spares_expectType _ .hash).mono fun _ _ told => told.1)
  | rangeData => exact reads (spares_rangeData _)
  | rangeSpan len trunc => exact reads (spares_rangeSpan _ len trunc)
  | envGet index => exact reads (spares_envGet _ index)
  | call self args => exact spares_enterProc _ self args

theorem Stage.act_of_refuses {s : Stage} (refuses : s.machine.Refuses a) :
    ∃ e m', s.act a = some (.error e, { s with machine := m' }) ∧
      ∃ id, s.machine.Unharmed e m' id := by
  obtain ⟨e, m', id, ran, unharmed, -⟩ := refuses
  exact ⟨e, m', by simp only [Stage.act, ran], id, unharmed⟩

end Changes

/-- What may come of the operations of a handle `x`, whatever is in the slot. -/
structure Machine.Guards (m : Machine) (x : ObjId) (kind : HandleKind) : Prop where
  empty : ∀ {α : Type} {a : Act α}, kind.Operation x a → ¬ m.Live x → m.Refuses a
  /-- A refusal writes out the object that is in the slot, if that has an end. -/
  other : ∀ {α : Type} {a : Act α}, kind.Operation x a → m.typeOf (.obj x) ≠ kind.type →
    m.Refuses a ∨ m.inspect (.obj x) = none ∧ a.run.run m = (.error .endless, m)
  unharmed : ∀ {α : Type} {a : Act α} {e m'}, kind.Operation x a →
    a.run.run m = (.error (.raised e), m') → ∃ id, m.Unharmed e m' id
  only : ∀ {α : Type} {a : Act α} {r m'}, kind.Operation x a →
    a.run.run m = (.ok r, m') → m.OnlyIn (.obj x) m'
  /-- Code that calls a proc that is gone, or walks a hash that is, goes on with the exception. -/
  call : kind = .proc → ¬ m.Live x → ∀ (s : Stage) self args next rest, s.machine = m →
    ∃ e m', Scene.step ⟨.callProc (.obj x) self args next, rest, s⟩ =
        some ⟨next (.error e), rest, { s with machine := m' }⟩ ∧ ∃ id, m.Unharmed e m' id
  walk : kind = .hash → ¬ m.Live x → ∀ (s : Stage) route visit next rest, s.machine = m →
    ∃ e m', Scene.step ⟨.walkHash route (.obj x) visit next, rest, s⟩ =
        some ⟨next (.error e), rest, { s with machine := m' }⟩ ∧ ∃ id, m.Unharmed e m' id

theorem Machine.Established.guards {m : Machine} (established : m.Established) (x : ObjId)
    (kind : HandleKind) : m.Guards x kind := by
  have empty : ∀ {kind : HandleKind} {α : Type} {a : Act α}, kind.Operation x a → ¬ m.Live x →
      m.Refuses a := fun operation absent =>
    operation.refused_dead established (by simpa [Machine.Live] using absent)
  constructor
  case empty => exact empty
  case other => exact fun operation => operation.refused established
  case unharmed =>
      intro α a e m' operation ran
      have spared := operation.spares established.tidy
      rw [ran] at spared
      exact Machine.Spared.unharmed spared established.tidy
  case only =>
      intro α a r m' operation ran
      have only := operation.spares established.tidy
      rwa [ran] at only
  case call =>
      rintro rfl absent s self args next rest rfl
      obtain ⟨e, m', acted, unharmed⟩ := Stage.act_of_refuses (empty (.call self args) absent)
      exact ⟨e, m', by simp only [Scene.step, Scene.entering, acted, Option.map_some], unharmed⟩
  case walk =>
      rintro rfl absent s route visit next rest rfl
      obtain ⟨e, m', acted, unharmed⟩ :=
        Stage.act_of_refuses (s := (s.hook route .hash).2) (empty .walk absent)
      refine ⟨e, m', ?_, unharmed⟩
      simp only [Scene.step, acted, Option.map_some]
      change some (Scene.mk (next (.error e)) rest ⟨m', s.bridge,
        (s.memory.hook route .hash).2.unhook (s.memory.hook route .hash).1⟩) = _
      rw [Memory.unhook_hook]

/-! ## What operations find -/

/-- The object `o` is what a handle of `x` reads and writes. -/
inductive Machine.Serves (m : Machine) (x : ObjId) (o : Object) : HandleKind → Prop
  | array (items : Array Value) (body : o.body = .array items)
      (reads : (Act.arrayValues (.obj x)).run.run m = (.ok items.toList, m))
      (writes : ∀ v, o.frozen = false → items.size < m.config.maxArrayLen.toNat →
        (Act.arrayPush (.obj x) v).run.run m =
          (.ok (), m.put x { o with body := .array (items.push v) })) : Serves m x o .array
  | string (bytes : List UInt8) (body : o.body = .string bytes)
      (reads : (Act.stringBytes (.obj x)).run.run m = (.ok bytes, m))
      (writes : ∀ tail, o.frozen = false → (Act.stringAppend (.obj x) tail).run.run m =
        (.ok (), m.put x { o with body := .string (bytes ++ Text.encode tail) })) :
      Serves m x o .string
  | hash (t : HashTable) (body : o.body = .hash t)
      (reads : ∀ key, (Act.hashGet (.obj x) key).run.run m = (.ok (t.get? (m.hashKey key)), m))
      (writes : o.frozen = false →
        (Act.hashClear (.obj x)).run.run m = (.ok (), m.put x { o with body := .hash .empty })) :
      Serves m x o .hash
  | range (data : RangeData) (body : o.body = .range data)
      (reads : (Act.rangeData (.obj x)).run.run m = (.ok data, m)) : Serves m x o .range
  | proc (p : ProcData) (body : o.body = .proc p)
      (runs : ∀ self args, m.depth < m.config.maxCallDepth.toNat →
        (Act.enterProc (.obj x) self args).run.run m =
          (.ok (p.body.script self args), m.inFrame ⟨none, x, self, args, .nil⟩)) :
      Serves m x o .proc

section Serving

variable {m : Machine} {x : ObjId} {o : Object}

open Act

theorem Act.run_setBody (present : m.object? x = some o) (b : Body) :
    (setBody x b).run.run m = (.ok (), m.put x { o with body := b }) := by
  have same : m.heap.modify x (fun o => { o with body := b }) =
      m.heap.modify x fun _ => { o with body := b } := Heap.modify_of_live _ present
  change (Except.ok (), { m with heap := m.heap.modify x fun o => { o with body := b } }) = _
  rw [same]
  rfl

theorem serves_array (present : m.object? x = some o) {items : Array Value}
    (body : o.body = .array items) : m.Serves x o .array := by
  have typed : m.typeOf (.obj x) = .array := by rw [Machine.typeOf_obj present, Object.tag, body]
  have held : m.items (.obj x) = items := by
    simp [Machine.items, Machine.body?, Value.asObj, present, body]
  refine .array items body ?_ fun v thawed room => ?_
  · unfold arrayValues arrayItems
    rw [run_bind, run_bind, run_expectType typed, ← held]
    rfl
  · unfold arrayPush
    rw [run_ok_bind (run_expectType typed), run_ok_bind (run_checkFrozen present thawed),
      run_get_bind, held, if_neg (Nat.not_le.mpr room), ← run_setBody present]

theorem serves_string (present : m.object? x = some o) {bytes : List UInt8}
    (body : o.body = .string bytes) : m.Serves x o .string := by
  have typed : m.typeOf (.obj x) = .string := by rw [Machine.typeOf_obj present, Object.tag, body]
  have held : m.bytes (.obj x) = bytes := by
    simp [Machine.bytes, Machine.body?, Value.asObj, present, body]
  refine .string bytes body ?_ fun tail thawed => ?_
  · unfold stringBytes
    rw [run_bind, run_expectType typed, ← held]
    rfl
  · unfold stringAppend
    rw [run_ok_bind (run_expectType typed), run_ok_bind (run_checkFrozen present thawed),
      run_get_bind, held, run_setBody present]

theorem serves_hash (present : m.object? x = some o) {t : HashTable} (body : o.body = .hash t) :
    m.Serves x o .hash := by
  have typed : m.typeOf (.obj x) = .hash := by rw [Machine.typeOf_obj present, Object.tag, body]
  have held : m.table (.obj x) = t := Machine.table_of_hash present body
  refine .hash t body (fun key => ?_) fun thawed => ?_
  · unfold hashGet hashTable
    rw [run_bind, run_bind, run_expectType typed, ← held]
    rfl
  · unfold hashClear
    rw [run_ok_bind (run_expectType typed), run_ok_bind (run_checkFrozen present thawed),
      run_setBody present]

theorem serves_range (present : m.object? x = some o) {data : RangeData}
    (body : o.body = .range data) : m.Serves x o .range := by
  have typed : m.typeOf (.obj x) = .range := by rw [Machine.typeOf_obj present, Object.tag, body]
  have found : m.body? (.obj x) = some (.range data) := by
    simp [Machine.body?, Value.asObj, present, body]
  refine .range data body ?_
  unfold rangeData
  rw [run_ok_bind (run_expectType typed), run_get_bind, found]
  rfl

theorem Machine.serves_of_typeOf {kind : HandleKind} (typed : m.typeOf (.obj x) = kind.type) :
    ∃ o, m.object? x = some o ∧ m.Serves x o kind := by
  cases kind with
  | array =>
      obtain ⟨o, present⟩ := live_of_typeOf typed (by decide)
      exact ⟨o, present, serves_array present (array_of_typeOf present typed)⟩
  | string =>
      obtain ⟨o, present⟩ := live_of_typeOf typed (by decide)
      exact ⟨o, present, serves_string present (string_of_typeOf present typed)⟩
  | hash =>
      obtain ⟨o, present⟩ := live_of_typeOf typed (by decide)
      exact ⟨o, present, serves_hash present (hash_of_typeOf present typed)⟩
  | range =>
      obtain ⟨o, present⟩ := live_of_typeOf typed (by decide)
      obtain ⟨data, body⟩ := range_of_typeOf present typed
      exact ⟨o, present, serves_range present body⟩
  | proc =>
      obtain ⟨p, isProc⟩ := proc_of_typeOf typed
      obtain ⟨o, present, body⟩ := procData?_eq_some.mp isProc
      exact ⟨o, present, .proc p body fun self args room => run_enterProc isProc room self args⟩

end Serving

end GuestVM
