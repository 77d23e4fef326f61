import GuestVM.Bridge.Typed
import GuestVM.Machine.Ranges
import GuestVM.Proofs.Machine.Raising

/-! # What the operations on containers do

Arrays, strings, hashes and ranges.  An operation that writes has checked that the object is of its
kind and thawed, and what it writes names only what it was given or what was there. -/
set_option autoImplicit false

namespace GuestVM

/-! ## What containers name -/

theorem Value.mem_objects {x : ObjId} {vs : List Value} :
    x ∈ Value.objects vs ↔ .obj x ∈ vs := by
  simp only [Value.objects, List.mem_filterMap]
  constructor
  · intro given
    obtain ⟨v, member, equation⟩ := given
    cases v with
    | obj id =>
        cases equation
        exact member
    | _ => cases equation
  · intro member
    exact ⟨_, member, rfl⟩

theorem Object.mem_references_withBody {o : Object} {b : Body} {x : ObjId}
    (member : x ∈ ({ o with body := b } : Object).references) :
    x ∈ o.references ∨ x ∈ b.references := by
  simp only [Object.references, List.mem_cons, List.mem_append] at member ⊢
  tauto

theorem Object.mem_references_of_body {o : Object} {x : ObjId} (member : x ∈ o.body.references) :
    x ∈ o.references := by
  simp only [Object.references, List.mem_cons, List.mem_append]
  exact .inr member

theorem Act.mem_itemsWith {items : Array Value} {position : Nat} {v w : Value}
    (member : w ∈ Act.itemsWith items position v) : w ∈ items ∨ w = .nil ∨ w = v := by
  rw [Act.itemsWith, Array.mem_iff_getElem?] at member
  obtain ⟨i, found⟩ := member
  rw [Array.getElem?_setIfInBounds] at found
  split at found
  · split at found
    · exact .inr (.inr (Option.some.inj found).symm)
    · cases found
  · have inside := Array.mem_of_getElem? found
    rw [Array.mem_append] at inside
    rcases inside with old | filler
    · exact .inl old
    · rw [Array.mem_replicate] at filler
      exact .inr (.inl filler.2)

namespace HashTable

theorem mem_references {t : HashTable} {x : ObjId} :
    x ∈ (Body.hash t).references ↔ ∃ e ∈ t.entries, e.1 = .obj x ∨ e.2 = .obj x := by
  simp only [Body.references, Value.mem_objects, List.mem_flatMap, List.mem_cons,
    List.not_mem_nil, or_false, Array.mem_toList_iff]
  constructor
  · intro given
    obtain ⟨e, member, key | value⟩ := given
    · exact ⟨e, member, .inl key.symm⟩
    · exact ⟨e, member, .inr value.symm⟩
  · intro given
    obtain ⟨e, member, key | value⟩ := given
    · exact ⟨e, member, .inl key.symm⟩
    · exact ⟨e, member, .inr value.symm⟩

theorem mem_references_insert {t : HashTable} {k : HashKey} {key v : Value} {x : ObjId}
    (member : x ∈ (Body.hash (t.insert k key v)).references) :
    x ∈ (Body.hash t).references ∨ key = .obj x ∨ v = .obj x := by
  rw [mem_references] at member ⊢
  obtain ⟨e, inside, named⟩ := member
  unfold insert at inside
  split at inside
  case h_1 p _ =>
      obtain ⟨i, found⟩ := Array.mem_iff_getElem?.mp inside
      rw [Array.getElem?_modify] at found
      split at found
      · obtain ⟨before, present, rfl⟩ := Option.map_eq_some_iff.mp found
        rcases named with first | second
        · exact .inl ⟨before, Array.mem_of_getElem? present, .inl first⟩
        · exact .inr (.inr second)
      · exact .inl ⟨e, Array.mem_of_getElem? found, named⟩
  case h_2 =>
      rcases Array.mem_push.mp inside with old | rfl
      · exact .inl ⟨e, old, named⟩
      · exact .inr named

theorem mem_references_removeAt {t : HashTable} {p : Nat} {x : ObjId}
    (member : x ∈ (Body.hash (t.removeAt p)).references) : x ∈ (Body.hash t).references := by
  rw [mem_references] at member ⊢
  obtain ⟨e, inside, named⟩ := member
  refine ⟨e, ?_, named⟩
  rw [← Array.mem_toList_iff] at inside ⊢
  simp only [removeAt, Array.eraseIdxIfInBounds] at inside
  split at inside
  · rw [Array.toList_eraseIdx] at inside
    exact List.mem_of_mem_eraseIdx inside
  · exact inside

theorem mem_references_erase {t : HashTable} {k : HashKey} {x : ObjId}
    (member : x ∈ (Body.hash (t.erase k).2).references) : x ∈ (Body.hash t).references := by
  unfold erase at member
  split at member
  · exact mem_references_removeAt member
  · exact member

end HashTable

/-! ## Values of a kind -/

namespace Machine

variable {m : Machine}

theorem array_of_typeOf {id : ObjId} {o : Object} (live : m.object? id = some o)
    (typed : m.typeOf (.obj id) = .array) : o.body = .array (m.items (.obj id)) := by
  rw [typeOf_obj live] at typed
  cases shape : o.body with
  | array values => simp [items, body?, Value.asObj, live, shape]
  | «class» c => cases kind : c.kind <;> simp [Object.tag, shape, kind] at typed
  | _ => simp [Object.tag, shape] at typed

theorem string_of_typeOf {id : ObjId} {o : Object} (live : m.object? id = some o)
    (typed : m.typeOf (.obj id) = .string) : o.body = .string (m.bytes (.obj id)) := by
  rw [typeOf_obj live] at typed
  cases shape : o.body with
  | string text => simp [bytes, body?, Value.asObj, live, shape]
  | «class» c => cases kind : c.kind <;> simp [Object.tag, shape, kind] at typed
  | _ => simp [Object.tag, shape] at typed

theorem hash_of_typeOf {id : ObjId} {o : Object} (live : m.object? id = some o)
    (typed : m.typeOf (.obj id) = .hash) : o.body = .hash (m.table (.obj id)) := by
  rw [typeOf_obj live] at typed
  cases shape : o.body with
  | hash t => simp [table, body?, Value.asObj, live, shape]
  | «class» c => cases kind : c.kind <;> simp [Object.tag, shape, kind] at typed
  | _ => simp [Object.tag, shape] at typed

theorem range_of_typeOf {id : ObjId} {o : Object} (live : m.object? id = some o)
    (typed : m.typeOf (.obj id) = .range) : ∃ data, o.body = .range data := by
  rw [typeOf_obj live] at typed
  cases shape : o.body with
  | range data => exact ⟨data, rfl⟩
  | «class» c => cases kind : c.kind <;> simp [Object.tag, shape, kind] at typed
  | _ => simp [Object.tag, shape] at typed

theorem table_of_hash {id : ObjId} {o : Object} {t : HashTable} (live : m.object? id = some o)
    (body : o.body = .hash t) : m.table (.obj id) = t := by
  simp [table, body?, Value.asObj, live, body]

theorem hashKey_of_string {v : Value} {bytes : List UInt8}
    (text : m.body? v = some (.string bytes)) : m.hashKey v = .str bytes := by
  cases v with
  | obj id => simp only [hashKey, text]
  | _ => cases text

theorem hashKey_of_typeOf {v : Value} (typed : m.typeOf v = .string) :
    m.hashKey v = .str (m.bytes v) := by
  cases v with
  | obj id =>
      obtain ⟨o, present⟩ := live_of_typeOf typed (by decide)
      refine hashKey_of_string ?_
      simp [body?, Value.asObj, present, string_of_typeOf present typed]
  | bool b => cases b <;> cases typed
  | _ => cases typed

/-- The machine with another table in a hash. -/
def withTable (m : Machine) (id : ObjId) (t : HashTable) : Machine :=
  { m with heap := m.heap.modify id fun o => { o with body := .hash t } }

theorem object?_withTable {id : ObjId} {o : Object} (present : m.object? id = some o)
    (t : HashTable) : (m.withTable id t).object? id = some { o with body := .hash t } := by
  rw [withTable, object?_modify, if_pos rfl, present]
  rfl

theorem object?_withTable_of_ne {id x : ObjId} (apart : x ≠ id) (t : HashTable) :
    (m.withTable id t).object? x = m.object? x := by
  rw [withTable, object?_modify, if_neg apart]

/-- What becomes of one hash leaves every key what it is. -/
theorem hashKey_withTable {id : ObjId} {o : Object} {t : HashTable} (present : m.object? id = some o)
    (body : o.body = .hash t) (after : HashTable) (v : Value) :
    (m.withTable id after).hashKey v = m.hashKey v := by
  cases v with
  | obj x =>
      simp only [withTable, hashKey, body?, Value.asObj, Option.bind_eq_bind, Option.bind_some,
        object?_modify]
      by_cases same : x = id
      · subst same
        simp [present, body]
      · rw [if_neg same]
  | _ => rfl

end Machine

namespace Act

variable {α β : Type} {g : Grant} {m : Machine}

/-! ## Arrays -/

theorem does_arrayNew {items : List Value} (known : ∀ x ∈ Value.objects items, m.Known g x) :
    Does g (arrayNew items) m fun v m' =>
      let o : Object := { cls := Builtin.array.id, body := .array items.toArray }
      v = .obj (m.newId o) ∧ m' = m.withNew o := by
  refine (does_alloc ⟨rfl, rfl, trivial⟩ ?_ (by nofun)).bind ?_
  · intro x member
    rcases List.mem_cons.mp member with rfl | member
    · exact .builtin .array
    · exact known x (by simpa [Body.references, SymMap.values, Value.objects] using member)
  · intro id m' _ _ done
    obtain ⟨rfl, rfl⟩ := done
    exact .pure ⟨rfl, rfl⟩

theorem does_arrayItems (a : Value) :
    Does g (arrayItems a) m fun items m' => m' = m ∧ items = m.items a := by
  refine .told_bind (does_expectType a .array) fun id _ => ?_
  exact .get_bind (.pure ⟨rfl, rfl⟩)

theorem does_arrayLen (a : Value) : Does g (arrayLen a) m fun _ m' => m' = m :=
  .told_bind (does_arrayItems a) fun _ _ => .pure rfl

theorem does_arrayGet (a : Value) (index : Int64) :
    Does g (arrayGet a index) m fun _ m' => m' = m :=
  .told_bind (does_arrayItems a) fun _ _ => .pure rfl

theorem does_arrayValues (a : Value) : Does g (arrayValues a) m fun _ m' => m' = m :=
  .told_bind (does_arrayItems a) fun _ _ => .pure rfl

/-- Operations that change a container look at its type and then at its flag. -/
theorem does_checked {v : Value} {t : ValueType} {rest : ObjId → Act α} {post : α → Machine → Prop}
    (does : ∀ id, v = .obj id → m.typeOf (.obj id) = t →
      (∀ o, m.object? id = some o → o.frozen = false) → Does g (rest id) m post) :
    Does g (expectType v t >>= fun id => checkFrozen v >>= fun _ => rest id) m post := by
  refine .told_bind (does_expectType v t) fun id typed => ?_
  obtain ⟨rfl, typed⟩ := typed
  exact .told_bind (does_checkFrozen _) fun _ thawed => does id rfl typed (thawed id · rfl)

private theorem does_setItems {id : ObjId} {v : Value} {after : Array Value}
    (typed : m.typeOf (.obj id) = .array)
    (thawed : ∀ o, m.object? id = some o → o.frozen = false)
    (handed : ∀ x ∈ Value.objects [v], x ∈ g.ids)
    (items : ∀ w ∈ after, w ∈ m.items (.obj id) ∨ w = .nil ∨ w = v) :
    Does g (setBody id (.array after)) m fun _ _ => True := by
  refine (does_touch id _ ?_).mono fun _ _ _ _ _ => trivial
  intro o live
  have body := Machine.array_of_typeOf live typed
  refine .inr ⟨.items _ after body (thawed _ live), ?_⟩
  intro x member
  rcases Object.mem_references_withBody member with old | new
  · exact .inl old
  · have inside : Value.obj x ∈ after := by simpa [Body.references, Value.mem_objects] using new
    rcases items _ inside with old | none | given
    · refine .inl (Object.mem_references_of_body ?_)
      rw [body]
      simpa [Body.references, Value.mem_objects] using old
    · cases none
    · exact .inr (.handed (handed x (by simp [Value.mem_objects, given])))

theorem does_arraySet (a : Value) (index : Int64) (v : Value)
    (handed : ∀ x ∈ Value.objects [v], x ∈ g.ids) :
    Does g (arraySet a index v) m fun _ _ => True := by
  refine does_checked fun id same typed thawed => .get_bind ?_
  subst same
  dsimp only
  split
  · exact does_fail_bind _ _ _ _
  split
  · exact does_fail_bind _ _ _ _
  exact does_setItems typed thawed handed fun w member => mem_itemsWith member

theorem does_arrayPush (a v : Value) (handed : ∀ x ∈ Value.objects [v], x ∈ g.ids) :
    Does g (arrayPush a v) m fun _ _ => True := by
  refine does_checked fun id same typed thawed => .get_bind ?_
  subst same
  dsimp only
  split
  · exact does_fail_bind _ _ _ _
  refine does_setItems typed thawed handed fun w member => ?_
  rcases Array.mem_push.mp member with old | new
  · exact .inl old
  · exact .inr (.inr new)

/-! ## Strings -/

theorem does_stringNew (bytes : List UInt8) :
    Does g (stringNew bytes) m fun v m' =>
      let o : Object := { cls := Builtin.string.id, body := .string bytes }
      v = .obj (m.newId o) ∧ m' = m.withNew o := by
  refine (does_alloc ⟨rfl, rfl, trivial⟩ ?_ (by nofun)).bind ?_
  · intro x member
    obtain rfl : x = Builtin.string.id := by
      simpa [Object.references, Body.references, SymMap.values, Value.objects] using member
    exact .builtin .string
  · intro id m' _ _ done
    obtain ⟨rfl, rfl⟩ := done
    exact .pure ⟨rfl, rfl⟩

theorem does_stringBytes (s : Value) : Does g (stringBytes s) m fun _ m' => m' = m :=
  .told_bind (does_expectType s .string) fun _ _ => .get_bind (.pure rfl)

theorem does_stringText (s : Value) : Does g (stringText s) m fun _ m' => m' = m :=
  .check_bind (does_stringBytes s) fun _ => .pure rfl

theorem does_stringLen (s : Value) : Does g (stringLen s) m fun _ m' => m' = m :=
  .check_bind (does_stringBytes s) fun _ => .pure rfl

theorem does_stringAppend (s : Value) (tail : String) :
    Does g (stringAppend s tail) m fun _ _ => True := by
  refine does_checked fun id _ typed thawed => .get_bind ?_
  refine (does_touch id _ fun o live => ?_).mono fun _ _ _ _ _ => trivial
  have body := Machine.string_of_typeOf live typed
  refine .inr ⟨.bytes _ _ body (thawed o live), ?_⟩
  intro x member
  rcases Object.mem_references_withBody member with old | new
  · exact .inl old
  · cases new

/-! ## Hashes -/

theorem does_hashNew :
    Does g hashNew m fun v m' =>
      let o : Object := { cls := Builtin.hash.id, body := .hash .empty }
      v = .obj (m.newId o) ∧ m' = m.withNew o := by
  refine (does_alloc ⟨rfl, rfl, rfl⟩ ?_ (by nofun)).bind ?_
  · intro x member
    rcases List.mem_cons.mp member with rfl | none
    · exact .builtin .hash
    · cases none
  · intro id m' _ _ done
    obtain ⟨rfl, rfl⟩ := done
    exact .pure ⟨rfl, rfl⟩

theorem does_hashTable (h : Value) : Does g (hashTable h) m fun _ m' => m' = m :=
  .told_bind (does_expectType h .hash) fun _ _ => .get_bind (.pure rfl)

theorem does_hashGet (h key : Value) : Does g (hashGet h key) m fun _ m' => m' = m :=
  .check_bind (does_hashTable h) fun _ => .get_bind (.pure rfl)

theorem does_hashLen (h : Value) : Does g (hashLen h) m fun _ m' => m' = m :=
  .check_bind (does_hashTable h) fun _ => .pure rfl

theorem does_hashEntries (h : Value) : Does g (hashEntries h) m fun _ m' => m' = m :=
  .check_bind (does_hashTable h) fun _ => .pure rfl

theorem does_hashKeys (h : Value) : Does g (hashKeys h) m fun _ m' => m' = m :=
  .check_bind (does_hashEntries h) fun _ => .pure rfl

theorem does_hashValues (h : Value) : Does g (hashValues h) m fun _ m' => m' = m :=
  .check_bind (does_hashEntries h) fun _ => .pure rfl

/-- The key that is stored is the key itself or a new string, it stands for what the key stands for,
and no write can change it. -/
theorem does_storedKey (key : Value) :
    Does g (storedKey key) m fun stored m' =>
      (∀ x ∈ Value.objects [stored], x ∈ Value.objects [key] ∨ m'.Live x) ∧ m'.Settled stored ∧
        m'.hashKey stored = m.hashKey key ∧ ∀ x o, m.object? x = some o → m'.object? x = some o := by
  apply Does.get_bind
  split
  case isTrue copied =>
    refine .of_tidy fun tidy => (does_stringNew _).bind ?_
    intro _ _ _ _ done
    obtain ⟨rfl, rfl⟩ := done
    have live := Machine.live_newId tidy
      { cls := Builtin.string.id, body := .string (m.bytes key) }
    apply (does_touch _ _ fun o _ => .inr ⟨.freeze, fun x member => .inl member⟩).bind
    intro _ _ _ _ same
    subst same
    refine .pure ⟨?_, ?_, ?_, ?_⟩
    · intro x member
      obtain rfl := Value.obj.inj (List.mem_singleton.mp (Value.mem_objects.mp member))
      exact .inr (Machine.live_modify live _)
    · intro id o bytes same present _
      cases same
      rw [Machine.object?_modify, if_pos rfl] at present
      obtain ⟨p, -, rfl⟩ := Option.map_eq_some_iff.mp present
      rfl
    · rw [Machine.hashKey_of_typeOf copied.1]
      refine Machine.hashKey_of_string ?_
      simp [Machine.body?, Value.asObj, Machine.object?_modify, Machine.object?_withNew tidy]
    · intro x o present
      have apart : x ≠ m.newId { cls := Builtin.string.id, body := .string (m.bytes key) } :=
        Machine.ne_newId tidy _ (.of_object? present)
      rw [Machine.object?_modify, if_neg apart, Machine.object?_withNew tidy, if_neg apart, present]
  case isFalse kept =>
      refine .pure ⟨fun x member => .inl member, ?_, rfl, fun x o present => present⟩
      intro id o bytes same present body
      subst same
      have typed : m.typeOf (.obj id) = .string := by
        rw [Machine.typeOf_obj present, Object.tag, body]
      simpa [typed, Machine.isFrozen, present] using kept

private theorem does_setTable {id : ObjId} {after : HashTable}
    (typed : m.typeOf (.obj id) = .hash)
    (thawed : ∀ o, m.object? id = some o → o.frozen = false)
    (how : Retabling g m id (m.table (.obj id)) after)
    (known : ∀ x ∈ (Body.hash after).references,
      x ∈ (Body.hash (m.table (.obj id))).references ∨ m.Known g x) :
    Does g (setBody id (.hash after)) m fun _ m' => m' = m.withTable id after := by
  refine does_touch id _ ?_
  intro o live
  have body := Machine.hash_of_typeOf live typed
  refine .inr ⟨.table _ after body (thawed o live) how, ?_⟩
  intro x member
  rcases Object.mem_references_withBody member with old | new
  · exact .inl old
  · rcases known x new with old | given
    · exact .inl (Object.mem_references_of_body (body ▸ old))
    · exact .inr given

theorem does_hashSet (h key v : Value) (keeps : g.drops = none)
    (known : ∀ x ∈ Value.objects [key, v], x ∈ g.ids ∨ m.Live x) :
    Does g (hashSet h key v) m fun _ m' => ∃ stored, m'.hashKey stored = m.hashKey key ∧
      m'.table h = (m.table h).insert (m.hashKey key) stored v := by
  refine does_checked fun id same typed thawed => ?_
  subst same
  apply (does_storedKey key).bind
  intro stored after _ _ done
  obtain ⟨live, settled, stands, kept⟩ := done
  have known' : ∀ x ∈ Value.objects [key, v], after.Known g x := by
    intro x member
    rcases known x member with given | alive
    · exact .handed given
    · obtain ⟨o, present⟩ := alive.object?
      exact .alive (.of_object? (kept x o present))
  obtain ⟨o, present⟩ := Machine.live_of_typeOf typed (by decide)
  have body := Machine.hash_of_typeOf present typed
  refine .get_bind ((does_setTable ?_ ?_ (.enter stored v settled keeps) ?_).mono ?_)
  · rw [Machine.typeOf_obj (kept id o present), ← Machine.typeOf_obj present, typed]
  · intro o' present'
    rw [kept id o present] at present'
    cases present'
    exact thawed o present
  · intro x member
    rcases HashTable.mem_references_insert member with old | named | named
    · exact .inl old
    · refine .inr ?_
      rcases live x (Value.mem_objects.mpr (by simp [named])) with given | alive
      · have same := List.mem_singleton.mp (Value.mem_objects.mp given)
        exact known' x (Value.mem_objects.mpr (by simp [same]))
      · exact .alive alive
    · exact .inr (known' x (Value.mem_objects.mpr (by simp [named])))
  · intro _ _ _ _ same
    subst same
    refine ⟨stored, (Machine.hashKey_withTable (kept id o present) body _ _).trans stands, ?_⟩
    rw [Machine.table_of_hash (Machine.object?_withTable (kept id o present) _) rfl, stands,
      Machine.table_of_hash (kept id o present) body]

theorem does_hashDelete (h key : Value) (may : g.drops = h.asObj) :
    Does g (hashDelete h key) m fun _ _ => True := by
  refine does_checked fun id same typed thawed => .get_bind ?_
  subst same
  refine (does_setTable typed thawed (.drop _ may) ?_).bind ?_
  · exact fun x member => .inl (HashTable.mem_references_erase member)
  · exact fun _ _ _ _ _ => .pure trivial

theorem does_hashClear (h : Value) (may : g.drops = h.asObj) :
    Does g (hashClear h) m fun _ _ => True := by
  refine does_checked fun id same typed thawed => ?_
  subst same
  exact (does_setTable typed thawed (.clear may) fun _ none => nomatch none).mono
    fun _ _ _ _ _ => trivial

/-! ## Ranges -/

theorem does_rangeNew {first last : Value} (exclusive : Bool)
    (known : ∀ x ∈ Value.objects [first, last], m.Known g x) :
    Does g (rangeNew first last exclusive) m fun _ _ => True := by
  refine (does_alloc ⟨rfl, rfl, trivial⟩ ?_ (by nofun)).bind fun _ _ _ _ _ => .pure trivial
  intro x member
  rcases List.mem_cons.mp member with rfl | member
  · exact .builtin .range
  · exact known x (by simpa [Body.references, SymMap.values, Value.objects] using member)

theorem does_rangeData (r : Value) : Does g (rangeData r) m fun _ m' => m' = m := by
  refine .told_bind (does_expectType r .range) fun _ _ => .get_bind ?_
  split
  · exact .pure rfl
  · exact .pure rfl

theorem does_rangeSpan (r : Value) (len : Int64) (trunc : Bool) :
    Does g (rangeSpan r len trunc) m fun _ _ => True := by
  refine .check_bind (does_rangeData r) fun data => ?_
  split
  · split
    · exact .pure trivial
    · exact (does_describe r).bind fun _ _ _ _ _ => does_fail _ _ _
  · exact does_fail _ _ _

/-! ## Typed handles -/

theorem does_itemOr (a : ObjId) (index : Int64) (default : Value) :
    Does g (itemOr a index default) m fun _ m' => m' = m := by
  refine .check_bind (does_arrayLen _) fun len => ?_
  split
  · exact .pure rfl
  · exact does_arrayGet _ _

theorem does_fetch (h : ObjId) (key : Value) : Does g (fetch h key) m fun _ m' => m' = m := by
  refine .check_bind (does_hashGet _ key) fun found => ?_
  cases found with
  | some v => exact .pure rfl
  | none => exact (does_describe key).bind fun _ _ _ _ _ => does_fail _ _ _

end Act

end GuestVM
