import GuestVM.Proofs.Machine.Depicting

/-! # Documents on their way in

A document becomes new objects, which depict it.  What lived before is as it was, and the slots in
use grow by at least the depth of the document, so that the value can be read again
(`stores_documentValue`).  The induction goes through the filling of a hash: there the hash is the
one object that changes, and the values put in do not contain it (`stores_putMembers`). -/
set_option autoImplicit false

namespace GuestVM

namespace Machine

/-- Only the object that `v` is may have changed, and at least `n` slots more are in use. -/
structure Grows (m : Machine) (v : Value) (n : Nat) (m' : Machine) : Prop where
  tidy : m'.heap.Tidy
  live : ∀ x, m.Live x → m'.Live x
  only : m.OnlyIn v m'
  room : m.heap.slots.size + m'.heap.free.length + n ≤ m'.heap.slots.size + m.heap.free.length

variable {m m' m'' : Machine} {v : Value} {a b n : Nat} {x : ObjId}

theorem newId_absent (tidy : m.heap.Tidy) (o : Object) : ¬ m.Live (m.newId o) :=
  fun live => ne_newId tidy o live rfl

namespace Grows

theorem object? {o : Object} (grows : m.Grows .nil a m') (present : m.object? x = some o) :
    m'.object? x = some o := grows.only x o nofun present

theorem refl (tidy : m.heap.Tidy) (v : Value) : m.Grows v 0 m :=
  ⟨tidy, fun _ => id, .refl m v, Nat.le_refl _⟩

theorem trans (first : m.Grows v a m') (second : m'.Grows v b m'') : m.Grows v (a + b) m'' := by
  refine ⟨second.tidy, fun x live => second.live x (first.live x live), ?_, ?_⟩
  · exact fun x o other present => second.only x o other (first.only x o other present)
  · have more := first.room
    have more' := second.room
    omega

theorem mono (grows : m.Grows v a m') (fewer : n ≤ a) : m.Grows v n m' :=
  ⟨grows.tidy, grows.live, grows.only, (Nat.add_le_add_left fewer _).trans grows.room⟩

theorem widen (grows : m.Grows .nil a m') (v : Value) : m.Grows v a m' :=
  ⟨grows.tidy, grows.live, fun _ _ _ => grows.object?, grows.room⟩

theorem withNew (tidy : m.heap.Tidy) (o : Object) : m.Grows .nil 1 (m.withNew o) := by
  refine ⟨Heap.Tidy.alloc tidy o, fun x => live_withNew tidy o,
    fun x p _ => object?_withNew_of_live tidy o, ?_⟩
  simp only [Machine.withNew, Heap.alloc]
  split
  case h_1 i rest free => simp [free, Nat.add_assoc]
  case h_2 free => simp [free]

theorem modify (tidy : m.heap.Tidy) (id : ObjId) (f : Object → Object) :
    m.Grows (.obj id) 0 { m with heap := m.heap.modify id f } :=
  ⟨Heap.Tidy.modify tidy id f, fun x live => live_modify live f, .modify m id f,
    by simp [Heap.modify]⟩

/-- What may have changed is not among what lived before. -/
theorem outside (grows : m.Grows .nil a m') (new : ¬ m.Live x) (after : m'.Grows (.obj x) b m'') :
    m.Grows .nil (a + b) m'' := by
  refine ⟨after.tidy, fun y live => after.live y (grows.live y live), ?_, ?_⟩
  · intro y o _ present
    refine after.only y o ?_ (grows.object? present)
    rintro same
    cases same
    exact new (.of_object? present)
  · have more := grows.room
    have more' := after.room
    omega

/-- What was new between two machines is new between wider ones. -/
theorem carrying {old older : Machine} {w : Value} (before : older.Grows w b old)
    (after : m.Grows v a m') (spared : ∀ x, v = .obj x → old.Live x) :
    old.Carrying m older m' :=
  ⟨before.live, fun x o new present =>
    after.only x o (fun same => new (spared x same)) present⟩

theorem carryingBack {old older : Machine} {w : Value} (before : older.Grows w b old) :
    old.Carrying m older m :=
  ⟨before.live, fun _ _ _ => id⟩

theorem carryingOn {old : Machine} (after : m.Grows .nil a m') : old.Carrying m old m' :=
  ⟨fun _ => id, fun _ _ _ => after.object?⟩

/-- There are as many slots as the machine has gained. -/
theorem lt_slots (tidy : m.heap.Tidy) (grows : m.Grows v n m') :
    n < m'.heap.slots.size + 1 := by
  have few : m.heap.free.length ≤ m.heap.slots.size := by
    rw [tidy.free, Heap.emptySlots]
    exact (List.length_filter_le _ _).trans_eq List.length_range
  have more := grows.room
  omega

end Grows

end Machine

namespace Act

open Machine (Grows Depicts DepictsItems DepictsMembers)

variable {m : Machine} {h k : ObjId} {t : HashTable}

/-! ## Filling a hash -/

/-- A text is stored as a frozen copy. -/
theorem run_storedKey_text (tidy : m.heap.Tidy) {s : String}
    (isText : m.object? k = some (.ofText s)) :
    ∃ new m', (storedKey (.obj k)).run.run m = (.ok (.obj new), m') ∧ m.Grows .nil 1 m' ∧
      m.Gained m' new { Object.ofText s with frozen := true } := by
  have copied : m.typeOf (.obj k) = .string ∧ !m.isFrozen (.obj k) := by
    refine ⟨Machine.typeOf_obj isText, ?_⟩
    simp [Machine.isFrozen, isText, Object.ofText]
  have copy : copyOf m (.obj k) = .ofText s := by
    simp [copyOf, Machine.bytes, Machine.body?, Value.asObj, isText, Object.ofText]
  have ran := run_storedKey_copied copied
  rw [copy] at ran
  let o := Object.ofText s
  have absent : ¬ m.Live (m.newId o) := Machine.newId_absent tidy o
  refine ⟨m.newId o, _, ran, ?_, absent, ?_⟩
  · exact (Grows.withNew tidy o).outside absent (.modify (Heap.Tidy.alloc tidy o) _ _)
  · rw [Machine.object?_modify, if_pos rfl, Machine.object?_withNew tidy, if_pos rfl]
    rfl

theorem run_hashSet_text (tidy : m.heap.Tidy) {s : String} (isHash : m.object? h = some (.ofTable t))
    (isText : m.object? k = some (.ofText s)) (v : Value) :
    ∃ stored m', (hashSet (.obj h) (.obj k) v).run.run m = (.ok (), m') ∧
      m.Grows (.obj h) 0 m' ∧ m.NamesMember m' s stored ∧
      m'.object? h = some (.ofTable (t.insert (.str (Text.encode s)) stored v)) := by
  obtain ⟨new, middle, ran, grown, absent, isNew⟩ := run_storedKey_text tidy isText
  have typed : m.typeOf (.obj h) = .hash := Machine.typeOf_obj isHash
  have stillHash : middle.object? h = some (.ofTable t) := grown.object? isHash
  have apart : new ≠ h := fun same => absent (same ▸ .of_object? isHash)
  have key : middle.hashKey (.obj new) = .str (Text.encode s) := by
    refine Machine.hashKey_of_string ?_
    simp [Machine.body?, Value.asObj, isNew, Object.ofText]
  refine ⟨.obj new, middle.withTable h (t.insert (.str (Text.encode s)) (.obj new) v), ?_, ?_,
    ⟨new, rfl, absent, ?_⟩, Machine.object?_withTable stillHash _⟩
  · unfold hashSet
    rw [run_ok_bind (run_expectType typed), run_ok_bind (run_checkFrozen isHash rfl), run_bind, ran,
      ← key, ← Machine.table_of_hash stillHash rfl]
    rfl
  · exact ((grown.mono (Nat.zero_le _)).widen _).trans (.modify grown.tidy h _)
  · rw [Machine.object?_withTable_of_ne apart, isNew]

/-! ## Documents -/

theorem integerValue_toInt (w : Int64) : integerValue w.toInt = .int w := by
  have fits : Word.least ≤ w.toInt ∧ w.toInt ≤ Word.greatest :=
    ⟨Int64.minValue_le_toInt w, Int64.toInt_le w⟩
  rw [integerValue, Word.checked, if_pos fits, Int64.ofInt_toInt]

/-- The action makes a value of new objects, of which the two machines tell. -/
def Stores {α : Type} (a : Act α) (n : Nat) (depicts : Machine → Machine → α → Prop) : Prop :=
  ∀ m, m.heap.Tidy → ∃ x m', a.run.run m = (.ok x, m') ∧ m.Grows .nil n m' ∧ depicts m m' x

theorem stores_pure {α : Type} {x : α} {depicts : Machine → Machine → α → Prop}
    (holds : ∀ m, depicts m m x) : Stores (pure x) 0 depicts :=
  fun m tidy => ⟨x, m, rfl, .refl tidy _, holds m⟩

theorem stores_textValue (s : String) :
    Stores (textValue s) 1 fun old m v => ∃ id, v = .obj id ∧ old.Gained m id (.ofText s) := by
  intro m tidy
  let o := Object.ofText s
  refine ⟨.obj (m.newId o), m.withNew o, rfl, .withNew tidy o, m.newId o, rfl,
    Machine.newId_absent tidy o, ?_⟩
  rw [Machine.object?_withNew tidy, if_pos rfl]

/-- A member's key and value are made of new objects, and the hash gets the entry. -/
theorem run_putMember (tidy : m.heap.Tidy) {name : String} {d : Document}
    (stores : Stores (documentValue d) d.height fun old m v => old.Depicts m d v)
    (isHash : m.object? h = some (.ofTable t)) :
    ∃ key v m', (∀ rest, (putMembers (.obj h) ((name, d) :: rest)).run.run m =
        (putMembers (.obj h) rest).run.run m') ∧
      m.Grows (.obj h) d.height m' ∧ m.NamesMember m' name key ∧ m.Depicts m' d v ∧
      m'.object? h = some (.ofTable (t.insert (.str (Text.encode name)) key v)) := by
  obtain ⟨_, m₁, keyed, grown₁, k, rfl, text⟩ := stores_textValue name m tidy
  obtain ⟨v, m₂, valued, grown₂, depicts⟩ := stores m₁ grown₁.tidy
  have before := grown₁.trans grown₂
  obtain ⟨key, m₃, set, grown₃, named, isHash'⟩ :=
    run_hashSet_text grown₂.tidy (before.object? isHash)
      (grown₂.object? text.present) v
  have attempted : (attempt (hashSet (.obj h) (.obj k) v)).run.run m₂ = (.ok (.ok ()), m₃) := by
    rw [run_attempt, set]
  refine ⟨key, v, m₃, fun rest => ?_, ((before.widen _).trans grown₃).mono ?_, ?_, ?_, isHash'⟩
  · rw [putMembers, run_ok_bind keyed, run_ok_bind valued, run_ok_bind attempted]
  · omega
  · exact named.carry before.carryingBack
  · -- The hash was there before the value, so none of the value's objects is the hash.
    refine depicts.carry (grown₁.carrying grown₃ fun x same => ?_)
    exact Value.obj.inj same ▸ grown₁.live h (.of_object? isHash)

mutual

theorem stores_documentValue : ∀ d : Document, d.Proper →
    Stores (documentValue d) d.height fun old m v => old.Depicts m d v
  | .null, _ => stores_pure fun _ => .null
  | .bool b, _ => stores_pure fun _ => .bool b
  | .int n, proper => by
      cases proper with
      | int w =>
        rw [documentValue, integerValue_toInt]
        exact stores_pure fun _ => .int w
  | .float x, proper => by
      cases proper with
      | float _ finite => exact stores_pure fun _ => .float x finite
  | .str s, _ => by
      intro m tidy
      obtain ⟨_, m', ran, grown, id, rfl, gained⟩ := stores_textValue s m tidy
      exact ⟨_, m', ran, grown.mono (Nat.zero_le _), .str gained⟩
  | .arr items, proper => by
      intro m tidy
      have each : ∀ d ∈ items, d.Proper := by
        cases proper with
        | arr _ each => exact each
      obtain ⟨values, m₁, ran, grown, depicts⟩ := stores_documentValues items each m tidy
      let o := Object.ofItems values.toArray
      have wider := Grows.withNew grown.tidy o
      have gained : m.Gained (m₁.withNew o) (m₁.newId o) o := by
        refine ⟨fun live => Machine.newId_absent grown.tidy o (grown.live _ live), ?_⟩
        rw [Machine.object?_withNew grown.tidy, if_pos rfl]
      refine ⟨.obj (m₁.newId o), m₁.withNew o, ?_, grown.trans wider, .arr gained ?_⟩
      · unfold documentValue
        rw [run_ok_bind ran]
        rfl
      · exact depicts.carry wider.carryingOn
  | .obj members, proper => by
      intro m tidy
      obtain ⟨names, each⟩ : (members.map Prod.fst).Nodup ∧ ∀ e ∈ members, e.2.Proper := by
        cases proper with
        | obj _ names each => exact ⟨names, each⟩
      let o := Object.ofTable .empty
      let h := m.newId o
      have made := Grows.withNew tidy o
      have absent : ¬ m.Live h := Machine.newId_absent tidy o
      have isHash : (m.withNew o).object? h = some (.ofTable .empty) := by
        rw [Machine.object?_withNew tidy, if_pos rfl]
      obtain ⟨m', t, added, ran, grown, still, coherent, keys, entries, depicts⟩ :=
        stores_putMembers members each (m.withNew o) h .empty made.tidy isHash .empty
          (Machine.nodup_nameKeys names)
      have new : hashNew.run.run m = (.ok (.obj h), m.withNew o) := rfl
      have whole : t.entries.toList = added := entries
      refine ⟨.obj h, m', ?_, (made.outside absent grown).mono (Nat.le_of_eq (Nat.add_comm _ _)),
        .obj ⟨absent, still⟩ coherent keys ?_⟩
      · unfold documentValue
        rw [run_ok_bind new, run_bind, ran]
        rfl
      · rw [whole]
        exact depicts.carry made.carryingBack

theorem stores_documentValues : ∀ ds : List Document, (∀ d ∈ ds, d.Proper) →
    Stores (documentValues ds) (Document.itemsHeight ds) fun old m values =>
      old.DepictsItems m ds values
  | [], _ => stores_pure fun _ => .nil
  | d :: rest, each => by
      intro m tidy
      obtain ⟨v, m₁, ran, grown, depicts⟩ :=
        stores_documentValue d (each d List.mem_cons_self) m tidy
      obtain ⟨values, m₂, ran', grown', depicts'⟩ :=
        stores_documentValues rest (fun e member => each e (List.mem_cons_of_mem _ member)) m₁
          grown.tidy
      refine ⟨v :: values, m₂, ?_, (grown.trans grown').mono ?_, .cons ?_ ?_⟩
      · unfold documentValues
        rw [run_ok_bind ran, run_ok_bind ran']
        rfl
      · exact Nat.max_le.mpr ⟨Nat.le_add_right _ _, Nat.le_add_left _ _⟩
      · exact depicts.carry grown'.carryingOn
      · exact depicts'.carry grown.carryingBack

/-- The hash gets one entry for each member, in their order. -/
theorem stores_putMembers : ∀ members : List (String × Document), (∀ e ∈ members, e.2.Proper) →
    ∀ (m : Machine) (h : ObjId) (t : HashTable), m.heap.Tidy → m.object? h = some (.ofTable t) →
    t.Coherent → (t.keys.toList ++ Machine.nameKeys members).Nodup →
    ∃ m' t' added, (putMembers (.obj h) members).run.run m = (.ok (), m') ∧
      m.Grows (.obj h) (Document.membersHeight members) m' ∧
      m'.object? h = some (.ofTable t') ∧ t'.Coherent ∧
      t'.keys.toList = t.keys.toList ++ Machine.nameKeys members ∧
      t'.entries.toList = t.entries.toList ++ added ∧ m.DepictsMembers m' members added
  | [], _, m, h, t, tidy, isHash, coherent, _ =>
      ⟨m, t, [], rfl, .refl tidy _, isHash, coherent, by simp [Machine.nameKeys], by simp, .nil⟩
  | (name, d) :: rest, each, m, h, t, tidy, isHash, coherent, names => by
      obtain ⟨key, v, m₁, first, grown, named, depicts, isHash₁⟩ :=
        run_putMember tidy (stores_documentValue d (each _ List.mem_cons_self)) isHash
      have fresh : HashKey.str (Text.encode name) ∉ t.keys.toList := fun member =>
        (List.nodup_append.mp names).2.2 _ member _ List.mem_cons_self rfl
      obtain ⟨keys₁, entries₁⟩ := HashTable.insert_fresh coherent fresh key v
      have names₁ : ((t.insert (.str (Text.encode name)) key v).keys.toList ++
          Machine.nameKeys rest).Nodup := by
        rw [keys₁, List.append_assoc]
        exact names
      obtain ⟨m₂, t₂, added, ran, grown', isHash₂, coherent₂, keys₂, entries₂, depicts'⟩ :=
        stores_putMembers rest (fun e member => each e (List.mem_cons_of_mem _ member)) m₁ h _
          grown.tidy isHash₁ coherent.insert names₁
      have carrying : m.Carrying m₁ m m₂ :=
        (Grows.refl tidy .nil).carrying grown' fun x same =>
          Value.obj.inj same ▸ .of_object? isHash
      refine ⟨m₂, t₂, (key, v) :: added, (first rest).trans ran, (grown.trans grown').mono ?_,
        isHash₂, coherent₂, ?_, ?_, .cons (named.carry carrying) (depicts.carry carrying) ?_⟩
      · exact Nat.max_le.mpr ⟨Nat.le_add_right _ _, Nat.le_add_left _ _⟩
      · rw [keys₂, keys₁, List.append_assoc]
        rfl
      · rw [entries₂, entries₁, List.append_assoc]
        rfl
      · exact depicts'.carry grown.carryingBack

end

end Act

end GuestVM
