import GuestVM.Proofs.Document
import GuestVM.Proofs.Machine.Building
import GuestVM.Proofs.Object.HashTable
import GuestVM.Proofs.Text.Utf8

/-! # Documents in a machine

A value depicts a document when reading it piece by piece gives the document: an array has one item
for each of the document's, a hash one entry for each member, in the same order.  The relation names
the machine in which the objects are not yet there, so that what is done later to an object of that
machine cannot be seen in the value (`Depicts.carry`).  A value that depicts a document is read as
the document with its members in order (`documentWithin_depicts`). -/
set_option autoImplicit false

namespace GuestVM

namespace Object

def ofText (s : String) : Object := { cls := Builtin.string.id, body := .string (Text.encode s) }

def ofItems (values : Array Value) : Object := { cls := Builtin.array.id, body := .array values }

end Object

namespace Machine

/-- An object that is there and was not there in `old`. -/
structure Gained (old m : Machine) (id : ObjId) (o : Object) : Prop where
  absent : ¬ old.Live id
  present : m.object? id = some o

/-- The key of a member is a new frozen string. -/
def NamesMember (old m : Machine) (name : String) (key : Value) : Prop :=
  ∃ id, key = .obj id ∧ old.Gained m id { Object.ofText name with frozen := true }

/-- What the names of members are as keys. -/
def nameKeys (members : List (String × Document)) : List HashKey :=
  members.map fun e => .str (Text.encode e.1)

theorem nodup_nameKeys {members : List (String × Document)}
    (names : (members.map Prod.fst).Nodup) : (nameKeys members).Nodup := by
  have injective : Function.Injective fun name => HashKey.str (Text.encode name) :=
    fun _ _ same => Text.encode_injective (HashKey.str.inj same)
  have keys := names.map injective
  rwa [List.map_map] at keys

mutual

inductive Depicts (old m : Machine) : Document → Value → Prop where
  | null : Depicts old m .null .nil
  | bool (b : Bool) : Depicts old m (.bool b) (.bool b)
  | int (w : Int64) : Depicts old m (.int w.toInt) (.int w)
  | float (x : Binary64) (finite : x.isFinite) : Depicts old m (.float x) (.float x)
  | str {s : String} {id : ObjId} (gained : old.Gained m id (.ofText s)) :
    Depicts old m (.str s) (.obj id)
  | arr {items : List Document} {id : ObjId} {values : Array Value}
    (gained : old.Gained m id (.ofItems values)) (each : DepictsItems old m items values.toList) :
    Depicts old m (.arr items) (.obj id)
  | obj {members : List (String × Document)} {id : ObjId} {t : HashTable}
    (gained : old.Gained m id (.ofTable t)) (coherent : t.Coherent)
    (keys : t.keys.toList = nameKeys members)
    (each : DepictsMembers old m members t.entries.toList) : Depicts old m (.obj members) (.obj id)

inductive DepictsItems (old m : Machine) : List Document → List Value → Prop where
  | nil : DepictsItems old m [] []
  | cons {d : Document} {rest : List Document} {v : Value} {values : List Value}
    (first : Depicts old m d v) (others : DepictsItems old m rest values) :
    DepictsItems old m (d :: rest) (v :: values)

inductive DepictsMembers (old m : Machine) :
    List (String × Document) → List (Value × Value) → Prop where
  | nil : DepictsMembers old m [] []
  | cons {name : String} {d : Document} {rest : List (String × Document)} {key v : Value}
    {entries : List (Value × Value)} (named : old.NamesMember m name key) (first : Depicts old m d v)
    (others : DepictsMembers old m rest entries) :
    DepictsMembers old m ((name, d) :: rest) ((key, v) :: entries)

end

/-! ## What a depicted document does not depend on -/

variable {old older m m' : Machine} {d : Document} {v : Value}

/-- What was not there in `old` was not there in `older`, and is there in `m'` as it is in `m`. -/
structure Carrying (old m older m' : Machine) : Prop where
  absent : ∀ x, older.Live x → old.Live x
  kept : ∀ x o, ¬ old.Live x → m.object? x = some o → m'.object? x = some o

theorem Gained.carry {id : ObjId} {o : Object} (gained : old.Gained m id o)
    (carrying : old.Carrying m older m') : older.Gained m' id o :=
  ⟨fun live => gained.absent (carrying.absent id live),
    carrying.kept id o gained.absent gained.present⟩

theorem NamesMember.carry {name : String} {key : Value} (named : old.NamesMember m name key)
    (carrying : old.Carrying m older m') : older.NamesMember m' name key := by
  obtain ⟨id, rfl, gained⟩ := named
  exact ⟨id, rfl, gained.carry carrying⟩

mutual

theorem Depicts.carry (carrying : old.Carrying m older m') {d : Document} {v : Value} :
    Depicts old m d v → Depicts older m' d v
  | .null => .null
  | .bool b => .bool b
  | .int w => .int w
  | .float x finite => .float x finite
  | .str gained => .str (gained.carry carrying)
  | .arr gained each => .arr (gained.carry carrying) (each.carry carrying)
  | .obj gained coherent keys each =>
    .obj (gained.carry carrying) coherent keys (each.carry carrying)

theorem DepictsItems.carry (carrying : old.Carrying m older m') {items : List Document}
    {values : List Value} : DepictsItems old m items values → DepictsItems older m' items values
  | .nil => .nil
  | .cons first others => .cons (first.carry carrying) (others.carry carrying)

theorem DepictsMembers.carry (carrying : old.Carrying m older m')
    {members : List (String × Document)} {entries : List (Value × Value)} :
    DepictsMembers old m members entries → DepictsMembers older m' members entries
  | .nil => .nil
  | .cons named first others =>
    .cons (named.carry carrying) (first.carry carrying) (others.carry carrying)

end

/-! ## Reading -/

theorem body?_of_gained {id : ObjId} {o : Object} (gained : old.Gained m id o) :
    m.body? (.obj id) = some o.body := by
  simp [body?, Value.asObj, gained.present]

theorem memberName_of_names {name : String} {key : Value} (named : old.NamesMember m name key) :
    m.memberName key = pure name := by
  obtain ⟨id, rfl, gained⟩ := named
  have text : m.readText? (.obj id) = some name := by
    rw [readText?, body?_of_gained gained]
    exact congrArg some (Text.decode_encode name)
  simp only [memberName, text]

mutual

/-- By recursion on what the value depicts; each array and hash on the way takes one level. -/
theorem documentWithin_depicts {d : Document} {v : Value} :
    Depicts old m d v → ∀ n, d.height < n → m.documentWithin n v = pure d.ordered
  | .null, n + 1, _ => rfl
  | .bool _, n + 1, _ => rfl
  | .int _, n + 1, _ => rfl
  | .float x finite, n + 1, _ => by
    rw [documentWithin, if_pos finite]
    rfl
  | .str gained, n + 1, _ => by
    simp only [documentWithin, body?_of_gained gained, Object.ofText, Text.decode_encode]
    rfl
  | .arr gained each, n + 1, shallow => by
    have within := mapM_depicts each n (Nat.lt_of_succ_lt_succ shallow)
    simp only [documentWithin, body?_of_gained gained, Object.ofItems, within, map_pure]
    rfl
  | .obj gained _ _ each, n + 1, shallow => by
    have within := membersOf_depicts each n (Nat.lt_of_succ_lt_succ shallow) []
    simp only [documentWithin, body?_of_gained gained, Object.ofTable, within, map_pure]
    rfl

theorem mapM_depicts {items : List Document} {values : List Value} :
    DepictsItems old m items values → ∀ n, Document.itemsHeight items < n →
      values.mapM (m.documentWithin n) = pure (Document.orderedItems items)
  | .nil, _, _ => rfl
  | .cons first others, n, shallow => by
    obtain ⟨here, there⟩ := Nat.max_lt.mp shallow
    rw [List.mapM_cons, documentWithin_depicts first n here, pure_bind,
      mapM_depicts others n there, pure_bind]
    rfl

theorem membersOf_depicts {members : List (String × Document)} {entries : List (Value × Value)} :
    DepictsMembers old m members entries → ∀ n, Document.membersHeight members < n →
      ∀ done, m.membersOf (m.documentWithin n) entries done =
        pure (Document.orderedMembers members done)
  | .nil, _, _, _ => rfl
  | .cons named first others, n, shallow, done => by
    obtain ⟨here, there⟩ := Nat.max_lt.mp shallow
    rw [membersOf, memberName_of_names named, pure_bind, documentWithin_depicts first n here,
      pure_bind, membersOf_depicts others n there]
    rfl

end

end Machine

end GuestVM
