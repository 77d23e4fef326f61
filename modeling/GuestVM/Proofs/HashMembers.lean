import GuestVM.Proofs.Bridge.Reading
import GuestVM.Proofs.Document
import GuestVM.Proofs.HashAgreement
import GuestVM.Proofs.Text.Utf8

/-! # Hashes as objects of documents

Each entry of a hash that is read as a document becomes a row, the name of its key beside what its
value becomes (`RowsOf`).  Texts, symbols and integers all give names, and ill-formed texts are mended
on the way, so different keys can have one name; of such rows the object has only the last
(`Members.LastsOf`).  So the object has as many members as the hash has entries just if the names are
different.  They are where all keys are integers, or all are well-formed texts. -/
set_option autoImplicit false

namespace GuestVM

namespace Machine

variable {m : Machine} {x : ObjId} {t : HashTable}

/-- What the entries of a hash become, each by itself. -/
def RowsOf (m : Machine) : List (Value × Value) → List (String × Document) → Prop :=
  List.Forall₂ fun e row => m.KeyName e.1 row.1 ∧ m.readDocument e.2 = pure row.2

/-- What comes of reading a hash as a document. -/
structure ReadsHash (m : Machine) (x : ObjId) (t : HashTable) : Prop where
  length : (Act.hashLen (.obj x)).run.run m = (.ok t.size, m)
  becomes : ∀ d, m.readDocument (.obj x) = pure d ↔
    ∃ rows members, m.RowsOf t.entries.toList rows ∧ Members.LastsOf rows members ∧ d = .obj members
  /-- Entries are lost just if names are the same. -/
  lost : ∀ rows members, m.RowsOf t.entries.toList rows → Members.LastsOf rows members →
    members.length ≤ t.size ∧ (members.length = t.size ↔ (rows.map Prod.fst).Nodup) ∧
      ((rows.map Prod.fst).Nodup → members.Perm rows)
  unnamed : ∀ before key v after rows, t.entries.toList = before ++ (key, v) :: after →
    m.RowsOf before rows → (∀ s, ¬ m.KeyName key s) →
    m.readDocument (.obj x) = misread
      ("hash key of type " ++ (m.typeOf key).name ++ " cannot be a JSON object key")
  unread : ∀ before key v after rows s e, t.entries.toList = before ++ (key, v) :: after →
    m.RowsOf before rows → m.KeyName key s → m.readDocument v = throw e →
    m.readDocument (.obj x) = throw e

/-! ## Reading entry by entry -/

theorem mapM_rowBy_iff {entries : List (Value × Value)} {rows : List (String × Document)} :
    entries.mapM (m.rowBy m.readDocument) = pure rows ↔ m.RowsOf entries rows := by
  rw [Reading.mapM_eq_pure, RowsOf]
  simp only [rowBy_eq_pure, memberName_eq_pure]

theorem read_of_rowsOf {entries : List (Value × Value)} {rows : List (String × Document)}
    (read : m.RowsOf entries rows) :
    ∀ e ∈ entries, ∃ row, m.rowBy m.readDocument e = pure row := by
  intro e member
  obtain ⟨row, -, named, given⟩ := exists_of_forall₂ read e member
  exact ⟨row, rowBy_eq_pure.mpr ⟨named.memberName_eq, given⟩⟩

theorem hash_thrown (body : m.body? (.obj x) = some (.hash t)) {before after : List (Value × Value)}
    {entry : Value × Value} {rows : List (String × Document)} {e : HostError}
    (whole : t.entries.toList = before ++ entry :: after) (read : m.RowsOf before rows)
    (thrown : m.rowBy m.readDocument entry = throw e) :
    m.readDocument (.obj x) = throw e := by
  rw [readDocument_hash body, whole, Reading.mapM_of_throw (read_of_rowsOf read) thrown]
  rfl

theorem run_hashLen (body : m.body? (.obj x) = some (.hash t)) :
    (Act.hashLen (.obj x)).run.run m = (.ok t.size, m) := by
  obtain ⟨o, present, isHash⟩ := body?_eq_some.mp body
  have typed : m.typeOf (.obj x) = .hash := by rw [typeOf_obj present, Object.tag, isHash]
  unfold Act.hashLen Act.hashTable
  rw [Act.run_bind, Act.run_bind, Act.run_expectType typed]
  change (Except.ok (m.table (.obj x)).size, m) = _
  rw [table_of_hash present isHash]

theorem readsHash (body : m.body? (.obj x) = some (.hash t)) : m.ReadsHash x t where
  length := run_hashLen body
  becomes d := by
    rw [readDocument_hash body, Reading.map_eq_pure]
    constructor
    · rintro ⟨rows, read, rfl⟩
      exact ⟨rows, .ofRows rows, mapM_rowBy_iff.mp read, Members.lastsOf_ofRows rows, rfl⟩
    · rintro ⟨rows, members, read, lasts, rfl⟩
      refine ⟨rows, mapM_rowBy_iff.mpr read, ?_⟩
      rw [lasts.unique (Members.lastsOf_ofRows rows)]
      rfl
  lost rows members read lasts := by
    have all : rows.length = t.size := (List.Forall₂.length_eq read).symm
    rw [← all]
    exact ⟨lasts.length_le, lasts.length_eq_iff, lasts.perm⟩
  unnamed before key v after rows whole read noName := by
    refine hash_thrown body whole read ?_
    rcases m.named_or_refused key with ⟨s, named⟩ | refused
    · exact absurd named (noName s)
    · rw [rowBy, refused]
      rfl
  unread before key v after rows s e whole read named thrown := by
    refine hash_thrown body whole read ?_
    rw [rowBy, named.memberName_eq, pure_bind, thrown]
    rfl

/-- What comes of reading an array as a document. -/
structure ReadsArray (m : Machine) (x : ObjId) (items : Array Value) : Prop where
  becomes : ∀ d, m.readDocument (.obj x) = pure d ↔
    ∃ ds, List.Forall₂ (fun v e => m.readDocument v = pure e) items.toList ds ∧ d = .arr ds
  unread : ∀ before v after ds e, items.toList = before ++ v :: after →
    List.Forall₂ (fun v e => m.readDocument v = pure e) before ds → m.readDocument v = throw e →
    m.readDocument (.obj x) = throw e

theorem readsArray {items : Array Value} (body : m.body? (.obj x) = some (.array items)) :
    m.ReadsArray x items where
  becomes d := by
    rw [readDocument_array body, Reading.map_eq_pure]
    simp only [Reading.mapM_eq_pure, eq_comm (a := d)]
  unread before v after ds e whole read thrown := by
    rw [readDocument_array body, whole, Reading.mapM_of_throw (fun u member => ?_) thrown]
    · rfl
    · obtain ⟨d, -, given⟩ := exists_of_forall₂ read u member
      exact ⟨d, given⟩

/-! ## Different names -/

/-- The keys are integers all, or well-formed texts. -/
def OfOneKind (m : Machine) (entries : List (Value × Value)) : Prop :=
  (∀ e ∈ entries, ∃ n, e.1 = .int n) ∨
    ∀ e ∈ entries, ∃ y s, e.1 = .obj y ∧ m.body? (.obj y) = some (.string (Text.encode s))

theorem KeyName.string_eq {y : ObjId} {s name : String} (named : m.KeyName (.obj y) name)
    (text : m.body? (.obj y) = some (.string (Text.encode s))) : name = s := by
  cases named with
  | string body =>
      cases text.symm.trans body
      exact Text.decode_encode s

theorem eq_of_natText {n k : Nat} (same : n.repr = k.repr) : n = k := by
  rw [Nat.repr_eq_ofList_toDigits, Nat.repr_eq_ofList_toDigits, String.ofList_inj] at same
  rw [← Nat.ofDigitChars_ten_toDigits (n := n), same, Nat.ofDigitChars_ten_toDigits]

/-- A sign is no digit. -/
theorem natText_unsigned (n k : Nat) : n.repr ≠ "-" ++ k.repr := by
  intro same
  have sign : '-' ∈ Nat.toDigits 10 n := by
    have listed := congrArg String.toList same
    rw [Nat.repr_eq_ofList_toDigits, String.toList_ofList] at listed
    simp [listed]
  cases Nat.isDigit_of_mem_toDigits (by decide) (by decide) sign

theorem eq_of_intText {n k : Int} (same : toString n = toString k) : n = k := by
  cases n with
  | ofNat n =>
      cases k with
      | ofNat k => exact congrArg Int.ofNat (eq_of_natText same)
      | negSucc k => exact (natText_unsigned n _ same).elim
  | negSucc n =>
      cases k with
      | ofNat k => exact (natText_unsigned k _ same.symm).elim
      | negSucc k =>
          have digits := (String.append_right_inj _).mp same
          exact congrArg Int.negSucc (Nat.succ.inj (eq_of_natText digits))

/-- Keys of one kind that differ have different names. -/
theorem nodup_of_ofOneKind {entries : List (Value × Value)} {rows : List (String × Document)}
    (read : m.RowsOf entries rows) (kind : m.OfOneKind entries)
    (distinct : entries.Pairwise fun e e' => ¬ m.SameContent e.1 e'.1) :
    (rows.map Prod.fst).Nodup := by
  have differ : ∀ e ∈ entries, ∀ e' ∈ entries, ∀ name, m.KeyName e.1 name → m.KeyName e'.1 name →
      m.SameContent e.1 e'.1 := by
    intro e member e' member' name named named'
    rcases kind with integers | texts
    · obtain ⟨n, key⟩ := integers e member
      obtain ⟨n', key'⟩ := integers e' member'
      rw [key] at named ⊢
      rw [key'] at named' ⊢
      cases named
      generalize same : toString n.toInt = name at named'
      cases named'
      rw [Int64.toInt_inj.mp (eq_of_intText same)]
      exact .inl rfl
    · obtain ⟨y, s, key, text⟩ := texts e member
      obtain ⟨y', s', key', text'⟩ := texts e' member'
      rw [key] at named ⊢
      rw [key'] at named' ⊢
      obtain rfl := named.string_eq text
      obtain rfl := named'.string_eq text'
      exact .inr ⟨_, text, text'⟩
  clear kind
  induction read with
  | nil => exact List.nodup_nil
  | @cons e row entries rows first others ih =>
      obtain ⟨apart, distinct⟩ := List.pairwise_cons.mp distinct
      refine List.nodup_cons.mpr ⟨fun again => ?_, ih distinct fun e member e' member' =>
        differ e (List.mem_cons_of_mem _ member) e' (List.mem_cons_of_mem _ member')⟩
      obtain ⟨row', member, same⟩ := List.mem_map.mp again
      obtain ⟨e', member', named', -⟩ := exists_of_forall₂ others.flip row' member
      exact apart e' member' (differ e List.mem_cons_self e' (List.mem_cons_of_mem _ member') row.1
        first.1 (same ▸ named'))

end Machine

namespace Situation

attribute [local irreducible] Machine.opened

variable {now : Situation} {name : String} {i : Instance}

/-- What hashes and arrays become in any machine, at any depth as at the top; in runs that hand over
live objects only no entry is lost where the keys are of one kind. -/
theorem hash_members (present : now.world.instance? name = some i) :
    (∀ x t, i.machine.body? (.obj x) = some (.hash t) → i.machine.ReadsHash x t ∧
      (Run Careful {} now → i.machine.OfOneKind t.entries.toList → ∀ d,
        i.machine.readDocument (.obj x) = pure d →
          ∃ members, d = .obj members ∧ members.length = t.size)) ∧
    ∀ x items, i.machine.body? (.obj x) = some (.array items) → i.machine.ReadsArray x items := by
  refine ⟨fun x t body => ⟨Machine.readsHash body, ?_⟩, fun x items => Machine.readsArray⟩
  intro careful kind d read
  obtain ⟨rows, members, rowsRead, lasts, rfl⟩ := ((Machine.readsHash body).becomes d).mp read
  obtain ⟨o, there, isHash⟩ := Machine.body?_eq_some.mp body
  have keyed := (careful.filed present).keyed x o t there isHash
  obtain ⟨-, whole, -⟩ := (Machine.readsHash body).lost rows members rowsRead lasts
  exact ⟨members, rfl, whole.mpr (Machine.nodup_of_ofOneKind rowsRead kind keyed.distinct)⟩

/-! ## An integer and a text -/

/-- Puts values under 1 and under the text of 1. -/
def pairingOnes : Script :=
  .guest .hashNew fun h =>
    .guest (.hashSet h (.int 1) (.int 10)) fun _ =>
      .guest (.stringNew [49]) fun key =>
        .guest (.hashSet h key (.int 20)) fun _ => Script.ret h

/-- The slot after those that a new machine fills. -/
def onesId : ObjId := ⟨62⟩

/-- The slot of the copy of the text that is the key. -/
def oneId : ObjId := ⟨64⟩

def onesTable : HashTable :=
  (HashTable.empty.insert (.int 1) (.int 1) (.int 10)).insert (.str [49]) (.obj oneId) (.int 20)

theorem pairingOnes_replayed : ∃ a,
    carefully 4 ⟨pairingOnes, [], { machine := .opened ⟨1⟩ {} }⟩ = some a ∧
      a.stage.machine.body? (.obj onesId) = some (.hash onesTable) ∧
      a.stage.machine.body? (.obj oneId) = some (.string [49]) := by
  have replayed : ((carefully 4 ⟨pairingOnes, [], { machine := .opened ⟨1⟩ {} }⟩).any fun a =>
      decide (a.stage.machine.typeOf (.obj onesId) = .hash ∧
        a.stage.machine.table (.obj onesId) = onesTable ∧
          a.stage.machine.typeOf (.obj oneId) = .string ∧
            a.stage.machine.bytes (.obj oneId) = [49])) = true := by
    rw [Machine.opened_eq]
    decide +kernel
  obtain ⟨a, reached, holds⟩ := (Option.any_eq_true _ _).mp replayed
  obtain ⟨hash, table, text, bytes⟩ := of_decide_eq_true holds
  obtain ⟨o, isHash⟩ := Machine.live_of_typeOf hash (by decide)
  obtain ⟨k, isText⟩ := Machine.live_of_typeOf text (by decide)
  have held := table ▸ Machine.hash_of_typeOf isHash hash
  have written := bytes ▸ Machine.string_of_typeOf isText text
  exact ⟨a, reached, Machine.body?_eq_some.mpr ⟨o, isHash, held⟩,
    Machine.body?_eq_some.mpr ⟨k, isText, written⟩⟩

/-- Two entries, one member. -/
theorem hash_members_one : ∃ now i, Run Careful {} now ∧
    now.world.instance? "vm" = some i ∧
      (Act.hashLen (.obj onesId)).run.run i.machine = (.ok 2, i.machine) ∧
      i.machine.readDocument (.obj onesId) = pure (.obj [("1", .int 20)]) := by
  obtain ⟨a, reached, hash, text⟩ := pairingOnes_replayed
  have run := run_carefully_beginning reached
  have present : ((beginning pairingOnes).showing "vm" { machine := .opened ⟨1⟩ {} } a).world.instance?
      "vm" = some { machine := a.stage.machine } := World.instance?_put_self _
  obtain ⟨reads, -⟩ := (hash_members present).1 onesId onesTable hash
  refine ⟨_, _, run, present, reads.length, (reads.becomes _).mpr
    ⟨[("1", .int 10), ("1", .int 20)], _, ?_, Members.lastsOf_ofRows _, ?_⟩⟩
  · exact .cons ⟨.integer 1, rfl⟩ (.cons ⟨.string text, rfl⟩ .nil)
  · simp [Members.ofRows, Members.insert]

end Situation

end GuestVM
