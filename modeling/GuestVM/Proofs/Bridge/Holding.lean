import GuestVM.Proofs.Bridge.Reading
import GuestVM.Proofs.Machine.Storing
import GuestVM.Proofs.Number.Rounding

/-! # What the machine holds of host data

Host data goes in as a document does (`Act.intoGuest_eq`), and the document is the one that the data
is, but for its numbers: a size is held as the signed word of its bits, and an integer of a document
that is no word as a float (`HostType.held`).  So what is held is what was given just if every integer
is a word (`HostType.held_eq_iff`).  A size that is held as a negative word is not read again
(`HostType.stray?`); all the rest is read as it is held. -/
set_option autoImplicit false

namespace GuestVM

namespace Document

/-- What JSON can say: floats are finite, the members of an object have different names, and integers
are words, signed or not. -/
inductive Literal : Document → Prop where
  | null : Literal .null
  | bool (b : Bool) : Literal (.bool b)
  | int (n : Int) (above : Word.least ≤ n) (below : n < (twoTo 64 : Nat)) : Literal (.int n)
  | float (x : Binary64) (finite : x.isFinite) : Literal (.float x)
  | str (s : String) : Literal (.str s)
  | arr (items : List Document) (each : ∀ d ∈ items, Literal d) : Literal (.arr items)
  | obj (members : List (String × Document)) (names : (members.map Prod.fst).Nodup)
    (each : ∀ e ∈ members, Literal e.2) : Literal (.obj members)

/-! ## Held documents -/

def heldInteger (n : Int) : Document :=
  match Word.checked n with
  | some w => .int w.toInt
  | none => .float (Binary64.ofInt n)

mutual

/-- The document with the integers that are no words made into floats. -/
def held : Document → Document
  | .int n => heldInteger n
  | .arr items => .arr (heldItems items)
  | .obj members => .obj (heldMembers members)
  | d => d

def heldItems : List Document → List Document
  | [] => []
  | d :: rest => d.held :: heldItems rest

def heldMembers : List (String × Document) → List (String × Document)
  | [] => []
  | (name, d) :: rest => (name, d.held) :: heldMembers rest

end

theorem heldItems_eq (items : List Document) : heldItems items = items.map held := by
  induction items with
  | nil => rfl
  | cons d rest ih => rw [heldItems, ih, List.map_cons]

theorem heldMembers_eq (members : List (String × Document)) :
    heldMembers members = members.map fun e => (e.1, e.2.held) := by
  induction members with
  | nil => rfl
  | cons e rest ih => rw [heldMembers, ih, List.map_cons]

variable {d : Document}

theorem heldInteger_toInt (w : Int64) : heldInteger w.toInt = .int w.toInt := by
  obtain ⟨w', checked, same⟩ := Word.checked_of_fits (Int64.minValue_le_toInt w) (Int64.toInt_le w)
  simp only [heldInteger, checked, same]

theorem proper_heldInteger {n : Int} (above : Word.least ≤ n) (below : n < (twoTo 64 : Nat)) :
    (heldInteger n).Proper := by
  unfold heldInteger
  split
  · exact .int _
  · have size : twoTo 64 = 18446744073709551616 := rfl
    have least : Word.least = -9223372036854775808 := rfl
    exact .float _ (Binary64.isFinite_ofInt (by omega))

example : heldInteger 9223372036854775809 = .float ⟨0x43e0000000000000⟩ := rfl

theorem Literal.proper_held (literal : d.Literal) : d.held.Proper := by
  induction literal with
  | null => exact .null
  | bool b => exact .bool b
  | int n above below => exact proper_heldInteger above below
  | float x finite => exact .float x finite
  | str s => exact .str s
  | arr items each ih =>
      rw [held, heldItems_eq]
      refine .arr _ fun d member => ?_
      obtain ⟨d', member', rfl⟩ := List.mem_map.mp member
      exact ih d' member'
  | obj members names each ih =>
      rw [held, heldMembers_eq]
      refine .obj _ (by rwa [List.map_map]) fun e member => ?_
      obtain ⟨e', member', rfl⟩ := List.mem_map.mp member
      exact ih e' member'

theorem Proper.held_eq (proper : d.Proper) : d.held = d := by
  induction proper with
  | int w => exact heldInteger_toInt w
  | arr items each ih =>
      rw [held, heldItems_eq, List.map_congr_left ih, List.map_id']
  | obj members names each ih =>
      have same : members.map (fun e => (e.1, e.2.held)) = members.map id :=
        List.map_congr_left fun e member => by rw [ih e member]; rfl
      rw [held, heldMembers_eq, same, List.map_id]
  | _ => rfl

end Document

/-! ## Going in -/

namespace Act

theorem documentValue_int (w : Int64) : documentValue (.int w.toInt) = pure (.int w) := by
  rw [documentValue, integerValue_toInt]

theorem documentValue_int32 (w : Int32) :
    documentValue (.int w.toInt) = pure (.int w.toInt64) := by
  rw [← Int32.toInt_toInt64, documentValue_int]

theorem documentValue_heldInteger (n : Int) :
    documentValue (.int n) = documentValue (Document.heldInteger n) := by
  unfold Document.heldInteger
  cases checked : Word.checked n with
  | none => simp only [documentValue, integerValue, checked]
  | some w =>
      rw [documentValue, integerValue, checked]
      exact (documentValue_int w).symm

mutual

theorem documentValue_held : ∀ d : Document, documentValue d = documentValue d.held
  | .int n => documentValue_heldInteger n
  | .arr items => by
      rw [Document.held, documentValue, documentValue, documentValues_held items]
  | .obj members => by
      have same := fun h => putMembers_held h members
      simp only [Document.held, documentValue, same]
  | .null | .bool _ | .float _ | .str _ => rfl

theorem documentValues_held : ∀ items : List Document,
    documentValues items = documentValues (Document.heldItems items)
  | [] => rfl
  | d :: rest => by
      rw [Document.heldItems, documentValues, documentValues, documentValue_held d,
        documentValues_held rest]

theorem putMembers_held (h : Value) : ∀ members : List (String × Document),
    putMembers h members = putMembers h (Document.heldMembers members)
  | [] => rfl
  | (name, d) :: rest => by
      rw [Document.heldMembers, putMembers, putMembers, documentValue_held d,
        putMembers_held h rest]

end

end Act

namespace HostType

/-- The data is copied into the machine: no value of the guest is in it. -/
def copied : HostType → Bool
  | .value => false
  | .option t | .list t => t.copied
  | _ => true

/-- The data as a document; a value of the guest counts as none. -/
def asDocument : (t : HostType) → t.Carrier → Document
  | .unit, _ => .null
  | .bool, b => .bool b
  | .int64, n => .int n.toInt
  | .int32, n => .int n.toInt
  | .size, n => .int n.toNat
  | .float, x => .float x
  | .text, s => .str s
  | .option _, none => .null
  | .option t, some x => asDocument t x
  | .list t, xs => .arr (List.map (asDocument t) xs)
  | .document, d => d
  | .value, _ => .null

/-- What a machine holds of the data. -/
def held : (t : HostType) → t.Carrier → Document
  | .size, n => .int n.toInt64.toInt
  | .option _, none => .null
  | .option t, some x => held t x
  | .list t, xs => .arr (List.map (held t) xs)
  | .document, d => Document.held d
  | t, x => asDocument t x

/-- The first negative word that a size is held as. -/
def stray? : (t : HostType) → t.Carrier → Option Int64
  | .size, n => if 0 ≤ n.toInt64 then none else some n.toInt64
  | .option _, none => none
  | .option t, some x => stray? t x
  | .list t, xs => List.findSome? (stray? t) xs
  | _, _ => none

end HostType

namespace Act

theorem intoGuest_eq : ∀ (t : HostType) (x : t.Carrier), t.copied = true →
    intoGuest t x = documentValue (t.held x)
  | .unit, _, _ | .bool, _, _ | .float, _, _ | .text, _, _ => rfl
  | .int64, n, _ => (documentValue_int n).symm
  | .int32, n, _ => (documentValue_int32 n).symm
  | .size, n, _ => (documentValue_int (UInt64.toInt64 n)).symm
  | .option _, none, _ => rfl
  | .option t, some x, copied => intoGuest_eq t x copied
  | .list t, xs, copied => by
      have each : ∀ xs : List t.Carrier,
          List.mapM (intoGuest t) xs = documentValues (xs.map t.held) := by
        intro xs
        induction xs with
        | nil => rfl
        | cons x rest ih =>
            rw [List.mapM_cons, List.map_cons, documentValues, intoGuest_eq t x copied, ih]
      have whole : documentValue (.arr (List.map t.held xs)) =
          documentValues (List.map t.held xs) >>= arrayNew := by rw [documentValue]
      exact (congrArg (· >>= arrayNew) (each xs)).trans whole.symm
  | .document, d, _ => documentValue_held d

end Act

namespace HostType

/-! ## What is held and what was given -/

theorem proper_int32 (n : Int32) : (Document.int n.toInt).Proper := by
  rw [← Int32.toInt_toInt64]
  exact .int _

theorem proper_held : ∀ (t : HostType) (x : t.Carrier), (t.asDocument x).Literal →
    (t.held x).Proper
  | .unit, _, _ | .value, _, _ => .null
  | .bool, b, _ => .bool b
  | .int64, n, _ => .int n
  | .int32, n, _ => proper_int32 n
  | .size, n, _ => .int (UInt64.toInt64 n)
  | .float, x, literal => by
      cases literal with
      | float _ finite => exact .float x finite
  | .text, s, _ => .str s
  | .option _, none, _ => .null
  | .option t, some x, literal => proper_held t x literal
  | .list t, xs, literal => by
      cases literal with
      | arr _ each =>
          refine .arr _ fun d member => ?_
          obtain ⟨x, member', rfl⟩ := List.mem_map.mp member
          exact proper_held t x (each _ (List.mem_map_of_mem member'))
  | .document, _, literal => Document.Literal.proper_held literal

theorem toInt_toInt64_of_proper {n : UInt64} (proper : (Document.int n.toNat).Proper) :
    n.toInt64.toInt = n.toNat := by
  obtain ⟨w, same⟩ : ∃ w : Int64, w.toInt = n.toNat := by
    generalize number : (n.toNat : Int) = k at proper
    cases proper with
    | int w => exact ⟨w, rfl⟩
  have bound : w.toInt < 2 ^ 63 := Int64.toInt_lt w
  have half : twoTo 63 = 2 ^ 63 := rfl
  rw [toInt_toInt64, if_pos (by omega)]

theorem held_eq : ∀ (t : HostType) (x : t.Carrier), (t.asDocument x).Proper →
    t.held x = t.asDocument x ∧ t.stray? x = none
  | .unit, _, _ | .value, _, _ | .bool, _, _ | .int64, _, _ | .int32, _, _ | .float, _, _
  | .text, _, _ | .option _, none, _ => ⟨rfl, rfl⟩
  | .size, n, proper => by
      have same := toInt_toInt64_of_proper proper
      have positive : 0 ≤ UInt64.toInt64 n := by
        rw [Int64.le_iff_toInt_le, same]
        exact Int.natCast_nonneg _
      exact ⟨congrArg Document.int same, if_pos positive⟩
  | .option t, some x, proper => held_eq t x proper
  | .list t, xs, proper => by
      cases proper with
      | arr _ each =>
          have each := fun x (member : x ∈ (show List t.Carrier from xs)) =>
            held_eq t x (each _ (List.mem_map_of_mem member))
          exact ⟨congrArg Document.arr (List.map_congr_left fun x member => (each x member).1),
            List.findSome?_eq_none_iff.mpr fun x member => (each x member).2⟩
  | .document, _, proper => ⟨Document.Proper.held_eq proper, rfl⟩

theorem held_eq_iff {t : HostType} {x : t.Carrier} (literal : (t.asDocument x).Literal) :
    t.held x = t.asDocument x ↔ (t.asDocument x).Proper :=
  ⟨fun same => same ▸ proper_held t x literal, fun proper => (held_eq t x proper).1⟩

theorem stray?_of_held_null : ∀ (t : HostType) (x : t.Carrier), t.held x = .null →
    t.stray? x = none
  | .option t, some x, same => stray?_of_held_null t x same
  | .unit, _, _ | .value, _, _ | .bool, _, _ | .int64, _, _ | .int32, _, _ | .float, _, _
  | .text, _, _ | .option _, none, _ | .document, _, _ => rfl

end HostType

/-! ## Coming out -/

namespace Machine

variable {old m : Machine} {t : HostType} {v : Value}

/-- The value is refused for the stray word in it, and is read as it is held if there is none. -/
structure ReadsBack (m : Machine) (t : HostType) (x : t.Carrier) (v : Value) : Prop where
  refused : ∀ w, t.stray? x = some w → m.fromGuest t v = outOfRange w "usize"
  read : t.stray? x = none → ∃ y, m.fromGuest t v = pure y ∧ (t.held x).Alike (t.asDocument y)

theorem ReadsBack.of_read {x y : t.Carrier} (stray : t.stray? x = none)
    (given : m.fromGuest t v = pure y) (same : (t.held x).Alike (t.asDocument y)) :
    m.ReadsBack t x v := by
  constructor
  · intro w strays
    cases stray.symm.trans strays
  · exact fun _ => ⟨y, given, same⟩

theorem readsBack_size {n : UInt64} : m.ReadsBack .size n (.int n.toInt64) := by
  by_cases positive : 0 ≤ n.toInt64
  · have given : m.fromGuest .size (.int n.toInt64) = pure n := by
      change (if 0 ≤ n.toInt64 then pure n.toInt64.toUInt64 else outOfRange _ _) = _
      rw [if_pos positive]
      rfl
    have same : n.toInt64.toInt = n.toNat := by
      have above := Int64.le_iff_toInt_le.mp positive
      have bound := n.toNat_lt
      rw [toInt_toInt64] at above ⊢
      by_cases small : n.toNat < twoTo 63
      · rw [if_pos small]
      · rw [if_neg small] at above
        change (0 : Int) ≤ n.toNat - (twoTo 64 : Nat) at above
        have size : twoTo 64 = 2 ^ 64 := rfl
        omega
    refine .of_read (if_pos positive) given ?_
    change Document.Alike (.int n.toInt64.toInt) (.int n.toNat)
    rw [same]
    exact .same _
  · have strays : HostType.stray? .size n = some n.toInt64 := if_neg positive
    constructor
    · intro w stray
      cases strays.symm.trans stray
      change (if 0 ≤ n.toInt64 then pure n.toInt64.toUInt64 else outOfRange _ _) = _
      rw [if_neg positive]
      rfl
    · intro stray
      cases strays.symm.trans stray

theorem readsBack_some {x : t.Carrier} (depicts : old.Depicts m (t.held x) v)
    (inner : m.ReadsBack t x v) : m.ReadsBack (.option t) (some x) v := by
  by_cases absent : v.isNil = true
  · obtain rfl : v = .nil := by
      cases v with
      | nil => rfl
      | _ => cases absent
    have nothing : t.held x = .null := by
      generalize t.held x = d at depicts
      cases depicts
      rfl
    have stray : HostType.stray? (.option t) (some x) = none := t.stray?_of_held_null x nothing
    refine .of_read (y := none) stray rfl ?_
    change Document.Alike (t.held x) .null
    rw [nothing]
    exact .same _
  · have reading : m.fromGuest (.option t) v = some <$> m.fromGuest t v := if_neg absent
    constructor
    · intro w stray
      rw [reading, inner.refused w stray]
      rfl
    · intro stray
      obtain ⟨y, given, same⟩ := inner.read stray
      exact ⟨some y, by rw [reading, given]; rfl, same⟩

/-- By induction on the items: the first that is refused is the first with a stray word. -/
theorem readsBack_items {xs : List t.Carrier} {values : List Value}
    (each : List.Forall₂ (fun x v => m.ReadsBack t x v) xs values) :
    (∀ w, xs.findSome? t.stray? = some w →
        values.mapM (m.fromGuest t) = outOfRange w "usize") ∧
      (xs.findSome? t.stray? = none → ∃ ys, values.mapM (m.fromGuest t) = pure ys ∧
        List.Forall₂ Document.Alike (xs.map t.held) (ys.map t.asDocument)) := by
  induction each with
  | nil => exact ⟨nofun, fun _ => ⟨[], rfl, .nil⟩⟩
  | @cons x v xs values first others ih =>
      rw [List.findSome?_cons, List.mapM_cons]
      cases here : t.stray? x with
      | some w =>
          refine ⟨fun w' same => ?_, nofun⟩
          cases same
          rw [first.refused w here]
          rfl
      | none =>
          obtain ⟨y, given, same⟩ := first.read here
          rw [given, pure_bind]
          refine ⟨fun w stray => ?_, fun stray => ?_⟩
          · rw [ih.1 w stray]
            rfl
          · obtain ⟨ys, all, alike⟩ := ih.2 stray
            exact ⟨y :: ys, by rw [all]; rfl, .cons same alike⟩

theorem readsBack_list {xs : List t.Carrier} {id : ObjId} {values : Array Value}
    (present : m.object? id = some (.ofItems values))
    (each : List.Forall₂ (fun x v => m.ReadsBack t x v) xs values.toList) :
    m.ReadsBack (.list t) xs (.obj id) := by
  have isArray : m.typeOf (.obj id) = .array := typeOf_obj present
  have items : m.items (.obj id) = values := by
    simp [items, body?, Value.asObj, present, Object.ofItems]
  have reading : m.fromGuest (.list t) (.obj id) = values.toList.mapM (m.fromGuest t) :=
    items ▸ if_pos isArray
  obtain ⟨refused, read⟩ := readsBack_items each
  constructor
  · exact fun w stray => reading.trans (refused w stray)
  · intro stray
    obtain ⟨ys, all, alike⟩ := read stray
    exact ⟨ys, reading.trans all, .arr alike⟩

theorem depicts_int {w : Int64} (depicts : old.Depicts m (.int w.toInt) v) : v = .int w := by
  generalize number : w.toInt = n at depicts
  cases depicts with
  | int w' => rw [Int64.toInt_inj.mp number]

theorem depicts_int32 {w : Int32} (depicts : old.Depicts m (.int w.toInt) v) :
    v = .int w.toInt64 := by
  rw [← Int32.toInt_toInt64] at depicts
  exact depicts_int depicts

theorem readInt32_toInt64 (n : Int32) : m.readInt32 (.int n.toInt64) = pure n := by
  change (if n.toInt64.toInt32.toInt64 = n.toInt64 then pure n.toInt64.toInt32 else _) = _
  rw [Int32.toInt32_toInt64, if_pos rfl]

theorem readString_ofText {s : String} {id : ObjId} (gained : old.Gained m id (.ofText s)) :
    m.readString (.obj id) = pure s := by
  simp only [readString, readText?, body?_of_gained gained, Object.ofText, Text.decode_encode]

mutual

/-- By recursion on the type; the items of a list are one level deeper. -/
theorem readsBack : ∀ (t : HostType) (x : t.Carrier) {v : Value}, t.copied = true →
    (t.held x).Proper → old.Depicts m (t.held x) v → (t.held x).height < m.heap.slots.size + 1 →
      m.ReadsBack t x v
  | .unit, _, _, _, _, _, _ => .of_read rfl rfl (.same _)
  | .bool, b, _, _, _, depicts, _ => by
      cases depicts
      exact .of_read rfl rfl (.same _)
  | .int64, n, _, _, _, depicts, _ => by
      obtain rfl := depicts_int depicts
      exact .of_read rfl rfl (.same _)
  | .int32, n, _, _, _, depicts, _ => by
      obtain rfl := depicts_int32 depicts
      exact .of_read rfl (readInt32_toInt64 n) (.same _)
  | .size, n, _, _, _, depicts, _ => by
      obtain rfl := depicts_int depicts
      exact readsBack_size
  | .float, x, _, _, _, depicts, _ => by
      cases depicts
      exact .of_read rfl rfl (.same _)
  | .text, s, _, _, _, depicts, _ => by
      cases depicts with
      | str gained => exact .of_read rfl (readString_ofText gained) (.same _)
  | .option _, none, _, _, _, depicts, _ => by
      cases depicts
      exact .of_read rfl rfl (.same _)
  | .option t, some x, _, copied, proper, depicts, shallow =>
      readsBack_some depicts (readsBack t x copied proper depicts shallow)
  | .list t, xs, _, copied, proper, depicts, shallow => by
      cases proper with
      | arr _ each =>
      cases depicts with
      | arr gained items =>
          refine readsBack_list gained.present (readsBack_each t xs copied ?_ items ?_)
          · exact fun x member => each _ (List.mem_map_of_mem member)
          · exact Nat.lt_of_succ_lt shallow
  | .document, d, v, _, proper, depicts, shallow => by
      have given : m.fromGuest .document v = pure (Document.held d).ordered :=
        documentWithin_depicts depicts _ shallow
      exact .of_read rfl given (Document.alike_ordered proper)

theorem readsBack_each : ∀ (t : HostType) (xs : List t.Carrier) {values : List Value},
    t.copied = true → (∀ x ∈ xs, (t.held x).Proper) →
      DepictsItems old m (xs.map t.held) values →
      Document.itemsHeight (xs.map t.held) < m.heap.slots.size + 1 →
        List.Forall₂ (fun x v => m.ReadsBack t x v) xs values
  | _, [], _, _, _, .nil, _ => .nil
  | t, x :: rest, _, copied, proper, .cons first others, shallow =>
      have ⟨here, there⟩ := Nat.max_lt.mp shallow
      .cons (readsBack t x copied (proper x List.mem_cons_self) first here)
        (readsBack_each t rest copied (fun y member => proper y (List.mem_cons_of_mem _ member))
          others there)

end

end Machine

end GuestVM
