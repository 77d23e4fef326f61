import GuestVM.Bridge.Conversion
import GuestVM.Proofs.Machine.Nesting
import Mathlib.Data.List.Forall2

/-! # Readings

A value is read as a document through its items and entries, one after the other up to the first that
is not read.  So a reading is a walk through those parts that it comes to (`walked_documents`), and
ends unless it comes to one that is among its own parts.  More levels than a machine allows itself
read nothing more (`documentWithin_eq_readDocument`), so that an array is read as its items are and a
hash as its entries are (`readDocument_array`, `readDocument_hash`). -/
set_option autoImplicit false

namespace GuestVM

theorem exists_of_forall₂ {α β : Type} {R : α → β → Prop} {xs : List α} {ys : List β}
    (pairs : List.Forall₂ R xs ys) : ∀ x ∈ xs, ∃ y ∈ ys, R x y := by
  induction pairs with
  | nil => exact nofun
  | cons first others ih =>
      refine List.forall_mem_cons.mpr ⟨⟨_, List.mem_cons_self, first⟩, fun x member => ?_⟩
      obtain ⟨y, within, related⟩ := ih x member
      exact ⟨y, List.mem_cons_of_mem _ within, related⟩

/-! ## Readings of lists -/

namespace Reading

variable {α β : Type} {r : Reading α} {f g : α → Reading β} {xs : List α} {ys : List β}

def Ends (r : Reading α) : Prop := r.run.isSome

theorem cases (r : Reading α) :
    (∃ a, r = pure a) ∨ (∃ e, r = throw e) ∨ r = ExceptT.mk none := by
  rcases known : r.run with _ | e | a
  · exact .inr (.inr known)
  · exact .inr (.inl ⟨e, known⟩)
  · exact .inl ⟨a, known⟩

theorem ends_pure (a : α) : (pure a : Reading α).Ends := rfl

theorem ends_throw (e : HostError) : (throw e : Reading α).Ends := rfl

theorem not_ends_none : ¬ Ends (ExceptT.mk none : Reading α) := nofun

theorem pure_ne_throw {a : α} {e : HostError} : (pure a : Reading α) ≠ throw e := nofun

theorem pure_ne_none {a : α} : (pure a : Reading α) ≠ ExceptT.mk none := nofun

theorem pure_inj {a b : α} (same : (pure a : Reading α) = pure b) : a = b := by
  cases same
  rfl

theorem throw_bind (e : HostError) (f : α → Reading β) : (throw e : Reading α) >>= f = throw e := rfl

theorem none_bind (f : α → Reading β) :
    (ExceptT.mk none : Reading α) >>= f = ExceptT.mk none := rfl

theorem ends_map (f : α → β) : (f <$> r).Ends ↔ r.Ends := by
  rcases cases r with ⟨a, rfl⟩ | ⟨e, rfl⟩ | rfl
  · exact iff_of_true rfl rfl
  · exact iff_of_true rfl rfl
  · exact iff_of_false nofun nofun

theorem ends_bind {f : α → Reading β} :
    (r >>= f).Ends ↔ r.Ends ∧ ∀ a, r = pure a → (f a).Ends := by
  rcases cases r with ⟨a, rfl⟩ | ⟨e, rfl⟩ | rfl
  · rw [pure_bind]
    exact ⟨fun ended => ⟨rfl, fun b same => pure_inj same ▸ ended⟩, fun ended => ended.2 a rfl⟩
  · exact iff_of_true rfl ⟨rfl, nofun⟩
  · exact iff_of_false nofun fun ended => not_ends_none ended.1

theorem bind_eq_pure {f : α → Reading β} {b : β} :
    r >>= f = pure b ↔ ∃ a, r = pure a ∧ f a = pure b := by
  rcases cases r with ⟨a, rfl⟩ | ⟨e, rfl⟩ | rfl
  · rw [pure_bind]
    exact ⟨fun given => ⟨a, rfl, given⟩, fun ⟨c, same, given⟩ => pure_inj same ▸ given⟩
  · exact iff_of_false nofun fun ⟨_, given, _⟩ => pure_ne_throw given.symm
  · exact iff_of_false nofun fun ⟨_, given, _⟩ => pure_ne_none given.symm

theorem map_eq_pure {f : α → β} {b : β} : f <$> r = pure b ↔ ∃ a, r = pure a ∧ f a = b := by
  rw [map_eq_pure_bind, bind_eq_pure]
  exact exists_congr fun a => and_congr_right fun _ => ⟨pure_inj, congrArg pure⟩

theorem mapM_eq_pure : xs.mapM f = pure ys ↔ List.Forall₂ (fun x y => f x = pure y) xs ys := by
  induction xs generalizing ys with
  | nil =>
      rw [List.mapM_nil, List.forall₂_nil_left_iff]
      exact ⟨fun same => (pure_inj same).symm, fun same => same ▸ rfl⟩
  | cons x rest ih =>
      rw [List.mapM_cons, bind_eq_pure, List.forall₂_cons_left_iff]
      refine exists_congr fun y => ?_
      rw [bind_eq_pure]
      constructor
      · rintro ⟨given, zs, others, same⟩
        exact ⟨zs, given, ih.mp others, (pure_inj same).symm⟩
      · rintro ⟨zs, given, others, rfl⟩
        exact ⟨given, zs, ih.mpr others, rfl⟩

theorem mapM_of_throw {before after : List α} {x : α} {e : HostError}
    (read : ∀ u ∈ before, ∃ b, f u = pure b) (thrown : f x = throw e) :
    (before ++ x :: after).mapM f = throw e := by
  induction before with
  | nil => rw [List.nil_append, List.mapM_cons, thrown, throw_bind]
  | cons u rest ih =>
      obtain ⟨b, given⟩ := read u List.mem_cons_self
      rw [List.cons_append, List.mapM_cons, given, pure_bind,
        ih fun w member => read w (List.mem_cons_of_mem _ member), throw_bind]

theorem mapM_congr (ended : (xs.mapM f).Ends) (same : ∀ x ∈ xs, (f x).Ends → g x = f x) :
    xs.mapM g = xs.mapM f := by
  induction xs with
  | nil => rfl
  | cons x rest ih =>
      rw [List.mapM_cons] at ended
      obtain ⟨first, others⟩ := ends_bind.mp ended
      rw [List.mapM_cons, List.mapM_cons, same x List.mem_cons_self first]
      rcases cases (f x) with ⟨b, given⟩ | ⟨e, given⟩ | given
      · rw [given, pure_bind, pure_bind,
          ih (ends_bind.mp (others b given)).1 fun u member => same u (List.mem_cons_of_mem _ member)]
      · rw [given, throw_bind, throw_bind]
      · rw [given, none_bind, none_bind]

/-- The reading of a list ends if it does so at each element that it comes to; `fine` says of elements
whose reading ends whether it goes on. -/
theorem ends_mapM {fine : α → Prop}
    (goesOn : ∀ x, (f x).Ends → ((∃ b, f x = pure b) ↔ fine x)) :
    (xs.mapM f).Ends ↔ ∀ before x after, xs = before ++ x :: after → (∀ u ∈ before, fine u) →
      (f x).Ends := by
  induction xs with
  | nil => exact iff_of_true rfl fun before x after empty => by simp at empty
  | cons x rest ih =>
      rw [List.mapM_cons, ends_bind]
      constructor
      · rintro ⟨first, others⟩ before y after whole passed
        rcases before with _ | ⟨z, before⟩ <;> cases whole
        · exact first
        · obtain ⟨b, given⟩ := (goesOn x first).mpr (passed x List.mem_cons_self)
          exact ih.mp (ends_bind.mp (others b given)).1 before y after rfl
            fun u member => passed u (List.mem_cons_of_mem _ member)
      · intro all
        have first := all [] x rest rfl nofun
        refine ⟨first, fun b given => ends_bind.mpr ⟨ih.mpr ?_, fun ys _ => ends_pure _⟩⟩
        intro before y after whole passed
        exact all (x :: before) y after (congrArg (x :: ·) whole) (List.forall_mem_cons.mpr
          ⟨(goesOn x first).mp ⟨b, given⟩, passed⟩)

end Reading

namespace Machine

variable {m : Machine} {n k : Nat} {v w key : Value} {x : ObjId} {s : String}

/-! ## Entries -/

/-- An entry of a hash as a member, given a way to read values. -/
def rowBy (m : Machine) (read : Value → Reading Document) (e : Value × Value) :
    Reading (String × Document) := do
  let name ← m.memberName e.1
  let d ← read e.2
  return (name, d)

theorem membersOf_eq (read : Value → Reading Document) (entries : List (Value × Value))
    (done : Members) :
    m.membersOf read entries done =
      (fun rows => rows.foldl (fun ms (name, d) => Members.insert name d ms) done) <$>
        entries.mapM (m.rowBy read) := by
  induction entries generalizing done with
  | nil => rfl
  | cons e rest ih =>
      obtain ⟨key, v⟩ := e
      rw [membersOf, List.mapM_cons, rowBy]
      rcases Reading.cases (m.memberName key) with ⟨name, named⟩ | ⟨e, named⟩ | named
      · rcases Reading.cases (read v) with ⟨d, given⟩ | ⟨e, given⟩ | given
        · simp only [named, given, pure_bind, ih, map_eq_pure_bind, bind_assoc, List.foldl_cons]
        · simp only [named, given, pure_bind]
          rfl
        · simp only [named, given, pure_bind]
          rfl
      · rw [named]
        rfl
      · rw [named]
        rfl

/-- A key is the name of a member if it is a text or an integer. -/
inductive KeyName (m : Machine) : Value → String → Prop where
  | string {x : ObjId} {bytes : List UInt8} (body : m.body? (.obj x) = some (.string bytes)) :
    KeyName m (.obj x) (Text.decode bytes)
  | symbol (s : Sym) : KeyName m (.sym s) (m.symName s)
  | integer (n : Int64) : KeyName m (.int n) (toString n.toInt)

theorem KeyName.memberName_eq (names : m.KeyName key s) : m.memberName key = pure s := by
  cases names with
  | string body => simp [memberName, readText?, body]
  | symbol s => rfl
  | integer n => rfl

theorem named_or_refused (m : Machine) (key : Value) :
    (∃ s, m.KeyName key s) ∨
      m.memberName key =
        misread ("hash key of type " ++ (m.typeOf key).name ++ " cannot be a JSON object key") := by
  cases key with
  | int n => exact .inl ⟨_, .integer n⟩
  | sym s => exact .inl ⟨_, .symbol s⟩
  | obj x =>
      cases body : m.body? (.obj x) with
      | none => exact .inr (by simp [memberName, readText?, body])
      | some b =>
          cases b with
          | string bytes => exact .inl ⟨_, .string body⟩
          | _ => exact .inr (by simp [memberName, readText?, body])
  | _ => exact .inr rfl

theorem memberName_eq_pure : m.memberName key = pure s ↔ m.KeyName key s := by
  refine ⟨fun given => ?_, KeyName.memberName_eq⟩
  rcases m.named_or_refused key with ⟨s', names⟩ | refused
  · rw [names.memberName_eq] at given
    exact Reading.pure_inj given ▸ names
  · rw [refused] at given
    exact absurd given.symm Reading.pure_ne_throw

theorem ends_memberName (m : Machine) (key : Value) : (m.memberName key).Ends := by
  rcases m.named_or_refused key with ⟨s, names⟩ | refused
  · rw [names.memberName_eq]
    exact Reading.ends_pure s
  · rw [refused]
    exact Reading.ends_throw _

theorem rowBy_eq_pure {read : Value → Reading Document} {e : Value × Value}
    {row : String × Document} :
    m.rowBy read e = pure row ↔ m.memberName e.1 = pure row.1 ∧ read e.2 = pure row.2 := by
  simp only [rowBy, Reading.bind_eq_pure]
  constructor
  · rintro ⟨name, named, d, given, same⟩
    cases Reading.pure_inj same
    exact ⟨named, given⟩
  · rintro ⟨named, given⟩
    exact ⟨_, named, _, given, rfl⟩

theorem ends_rowBy {read : Value → Reading Document} {e : Value × Value} :
    (m.rowBy read e).Ends ↔ ((∃ name, m.memberName e.1 = pure name) → (read e.2).Ends) := by
  rw [rowBy, Reading.ends_bind]
  constructor
  · rintro ⟨-, further⟩ ⟨name, named⟩
    exact (Reading.ends_bind.mp (further name named)).1
  · intro further
    refine ⟨m.ends_memberName e.1, fun name named => Reading.ends_bind.mpr ?_⟩
    exact ⟨further ⟨name, named⟩, fun d _ => Reading.ends_pure _⟩

theorem rowBy_congr {read read' : Value → Reading Document} {e : Value × Value}
    (ended : (m.rowBy read e).Ends) (same : (read e.2).Ends → read' e.2 = read e.2) :
    m.rowBy read' e = m.rowBy read e := by
  rw [rowBy, rowBy]
  rcases Reading.cases (m.memberName e.1) with ⟨name, named⟩ | ⟨err, named⟩ | named
  · rw [named, pure_bind, pure_bind, same (ends_rowBy.mp ended ⟨name, named⟩)]
  · rw [named]
    rfl
  · rw [named]
    rfl

/-! ## Levels -/

theorem documentWithin_array {items : Array Value} (body : m.body? (.obj x) = some (.array items)) :
    m.documentWithin (n + 1) (.obj x) = .arr <$> items.toList.mapM (m.documentWithin n) := by
  simp only [documentWithin, body]

theorem documentWithin_hash {t : HashTable} (body : m.body? (.obj x) = some (.hash t)) :
    m.documentWithin (n + 1) (.obj x) =
      Document.ofMembers <$> t.entries.toList.mapM (m.rowBy (m.documentWithin n)) := by
  simp only [documentWithin, body, membersOf_eq, Functor.map_map]
  rfl

/-- What is neither an array nor a hash is read at once. -/
theorem documentWithin_flat (array : ∀ items, m.body? v ≠ some (.array items))
    (hash : ∀ t, m.body? v ≠ some (.hash t)) :
    m.documentWithin (n + 1) v = m.documentWithin 1 v ∧ (m.documentWithin 1 v).Ends := by
  cases v with
  | obj x =>
      simp only [documentWithin]
      cases body : m.body? (.obj x) with
      | none => exact ⟨rfl, rfl⟩
      | some b =>
          cases b with
          | array items => exact absurd body (array items)
          | hash t => exact absurd body (hash t)
          | _ => exact ⟨rfl, rfl⟩
  | float y =>
      refine ⟨rfl, ?_⟩
      rw [documentWithin]
      split <;> rfl
  | _ => exact ⟨rfl, rfl⟩

theorem body?_cases (m : Machine) (v : Value) :
    (∃ x items, v = .obj x ∧ m.body? (.obj x) = some (.array items)) ∨
      (∃ x t, v = .obj x ∧ m.body? (.obj x) = some (.hash t)) ∨
        (∀ items, m.body? v ≠ some (.array items)) ∧ ∀ t, m.body? v ≠ some (.hash t) := by
  cases v with
  | obj x =>
      cases body : m.body? (.obj x) with
      | none => exact .inr (.inr ⟨nofun, nofun⟩)
      | some b =>
          cases b with
          | array items => exact .inl ⟨x, items, rfl, body⟩
          | hash t => exact .inr (.inl ⟨x, t, rfl, body⟩)
          | _ => exact .inr (.inr ⟨nofun, nofun⟩)
  | _ => exact .inr (.inr ⟨nofun, nofun⟩)

theorem documentWithin_succ (ended : (m.documentWithin n v).Ends) :
    m.documentWithin (n + 1) v = m.documentWithin n v := by
  induction n generalizing v with
  | zero => exact absurd ended Reading.not_ends_none
  | succ n ih =>
      rcases m.body?_cases v with ⟨x, items, rfl, body⟩ | ⟨x, t, rfl, body⟩ | ⟨array, hash⟩
      · rw [documentWithin_array body, Reading.ends_map] at ended
        rw [documentWithin_array body, documentWithin_array body,
          Reading.mapM_congr ended fun u _ => ih]
      · rw [documentWithin_hash body, Reading.ends_map] at ended
        rw [documentWithin_hash body, documentWithin_hash body,
          Reading.mapM_congr ended fun e _ here => rowBy_congr here ih]
      · obtain ⟨above, -⟩ := documentWithin_flat (n := n + 1) array hash
        obtain ⟨here, -⟩ := documentWithin_flat (n := n) array hash
        rw [above, here]

theorem documentWithin_of_le (ended : (m.documentWithin n v).Ends) (more : n ≤ k) :
    m.documentWithin k v = m.documentWithin n v := by
  induction more with
  | refl => rfl
  | step _ ih => rw [documentWithin_succ (ih ▸ ended), ih]

/-- Two numbers of levels that are both enough give the same. -/
theorem documentWithin_unique (ended : (m.documentWithin n v).Ends)
    (other : (m.documentWithin k v).Ends) : m.documentWithin n v = m.documentWithin k v := by
  rcases Nat.le_total n k with less | less
  · exact (documentWithin_of_le ended less).symm
  · exact documentWithin_of_le other less

/-! ## Reading as a walk -/

/-- The value becomes a document, with enough levels. -/
def Readable (m : Machine) (v : Value) : Prop := ∃ n d, m.documentWithin n v = pure d

/-- The reading of the first value comes to the second: all that stands before it is read. -/
inductive ComesTo (m : Machine) : Value → Value → Prop where
  | item {x : ObjId} {items : Array Value} {before after : List Value} {w : Value}
    (body : m.body? (.obj x) = some (.array items)) (whole : items.toList = before ++ w :: after)
    (read : ∀ u ∈ before, m.Readable u) : ComesTo m (.obj x) w
  | entry {x : ObjId} {t : HashTable} {before after : List (Value × Value)} {key w : Value}
    (body : m.body? (.obj x) = some (.hash t))
    (whole : t.entries.toList = before ++ (key, w) :: after)
    (read : ∀ e ∈ before, (∃ s, m.KeyName e.1 s) ∧ m.Readable e.2) (named : ∃ s, m.KeyName key s) :
    ComesTo m (.obj x) w

theorem readable_iff (ended : (m.documentWithin n v).Ends) :
    (∃ d, m.documentWithin n v = pure d) ↔ m.Readable v := by
  refine ⟨fun ⟨d, given⟩ => ⟨n, d, given⟩, fun ⟨k, d, given⟩ => ⟨d, ?_⟩⟩
  rw [documentWithin_unique ended (k := k) (given ▸ Reading.ends_pure d), given]

theorem readable_row_iff {e : Value × Value} (ended : (m.rowBy (m.documentWithin n) e).Ends) :
    (∃ row, m.rowBy (m.documentWithin n) e = pure row) ↔
      (∃ s, m.KeyName e.1 s) ∧ m.Readable e.2 := by
  simp only [rowBy_eq_pure, memberName_eq_pure]
  constructor
  · rintro ⟨row, named, given⟩
    exact ⟨⟨_, named⟩, n, _, given⟩
  · rintro ⟨⟨s, named⟩, readable⟩
    have within := ends_rowBy.mp ended ⟨s, named.memberName_eq⟩
    obtain ⟨d, given⟩ := (readable_iff within).mpr readable
    exact ⟨(s, d), named, given⟩

theorem ends_array {items : Array Value} (body : m.body? (.obj x) = some (.array items)) :
    (m.documentWithin (n + 1) (.obj x)).Ends ↔
      ∀ w, m.ComesTo (.obj x) w → (m.documentWithin n w).Ends := by
  rw [documentWithin_array body, Reading.ends_map, Reading.ends_mapM fun _ => readable_iff]
  constructor
  · intro all w comes
    cases comes with
    | item body' whole read =>
        cases body.symm.trans body'
        exact all _ w _ whole read
    | entry body' => cases body.symm.trans body'
  · exact fun all before w after whole read => all w (.item body whole read)

theorem ends_hash {t : HashTable} (body : m.body? (.obj x) = some (.hash t)) :
    (m.documentWithin (n + 1) (.obj x)).Ends ↔
      ∀ w, m.ComesTo (.obj x) w → (m.documentWithin n w).Ends := by
  rw [documentWithin_hash body, Reading.ends_map, Reading.ends_mapM fun _ => readable_row_iff]
  simp only [ends_rowBy, memberName_eq_pure]
  constructor
  · intro all w comes
    cases comes with
    | item body' => cases body.symm.trans body'
    | entry body' whole read named =>
        cases body.symm.trans body'
        exact all _ _ _ whole read named
  · exact fun all before e after whole read named => all e.2 (.entry body whole read named)

theorem ComesTo.live (comes : m.ComesTo v w) : ∃ x, v = .obj x ∧ m.Live x := by
  cases comes with
  | item body => exact ⟨_, rfl, live_of_body? body⟩
  | entry body => exact ⟨_, rfl, live_of_body? body⟩

theorem walked_documents (m : Machine) :
    m.Walked m.ComesTo fun n v => (m.documentWithin n v).Ends where
  zero _ := Reading.not_ends_none
  succ n v := by
    rcases m.body?_cases v with ⟨x, items, rfl, body⟩ | ⟨x, t, rfl, body⟩ | ⟨array, hash⟩
    · exact ends_array body
    · exact ends_hash body
    · obtain ⟨flat, ended⟩ := documentWithin_flat (n := n) array hash
      refine iff_of_true (flat ▸ ended) fun w comes => ?_
      cases comes with
      | item body => exact absurd body (array _)
      | entry body => exact absurd body (hash _)
  live _ _ := ComesTo.live

theorem ends_readDocument_iff : (m.readDocument v).Ends ↔ ¬ Recurs m.ComesTo v :=
  m.walked_documents.ends_iff (Nat.lt_succ_self _)

/-- More levels than a machine allows itself read nothing more. -/
theorem documentWithin_eq_readDocument (more : m.heap.slots.size < n) :
    m.documentWithin n v = m.readDocument v := by
  have same : (m.documentWithin n v).Ends ↔ (m.readDocument v).Ends := by
    rw [ends_readDocument_iff, m.walked_documents.ends_iff more]
  by_cases ended : (m.readDocument v).Ends
  · exact documentWithin_unique (same.mpr ended) ended
  · have unended := mt same.mp ended
    rcases Reading.cases (m.readDocument v) with ⟨d, given⟩ | ⟨e, given⟩ | given
    · exact absurd (given ▸ Reading.ends_pure d) ended
    · exact absurd (given ▸ Reading.ends_throw e) ended
    · rcases Reading.cases (m.documentWithin n v) with ⟨d, given'⟩ | ⟨e, given'⟩ | given'
      · exact absurd (given' ▸ Reading.ends_pure d) unended
      · exact absurd (given' ▸ Reading.ends_throw e) unended
      · rw [given, given']

theorem readDocument_array {items : Array Value} (body : m.body? (.obj x) = some (.array items)) :
    m.readDocument (.obj x) = .arr <$> items.toList.mapM m.readDocument := by
  rw [← documentWithin_eq_readDocument (Nat.lt_succ_of_lt (Nat.lt_succ_self _)),
    documentWithin_array body]
  rfl

theorem readDocument_hash {t : HashTable} (body : m.body? (.obj x) = some (.hash t)) :
    m.readDocument (.obj x) =
      Document.ofMembers <$> t.entries.toList.mapM (m.rowBy m.readDocument) := by
  rw [← documentWithin_eq_readDocument (Nat.lt_succ_of_lt (Nat.lt_succ_self _)),
    documentWithin_hash body]
  rfl

end Machine

end GuestVM
