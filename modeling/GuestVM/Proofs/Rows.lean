import GuestVM.World

/-! # Tables kept as rows

The tables of callables, the registry and the instances of a world are lists of rows that are looked
up by key.  A row is replaced or taken out by filtering its key away. -/
set_option autoImplicit false

namespace GuestVM

/-! ## Rows without a key -/

section Rows

variable {κ α : Type} [BEq κ] [LawfulBEq κ]

theorem lookup_without_self (rows : List (κ × α)) (k : κ) :
    (rows.filter (·.1 != k)).lookup k = none := by
  rw [List.lookup_eq_none_iff]
  intro row member
  have apart := (List.mem_filter.mp member).2
  rw [bne_iff_ne] at apart
  rw [bne_iff_ne]
  exact apart.symm

theorem lookup_without_of_ne (rows : List (κ × α)) {k l : κ} (apart : l ≠ k) :
    (rows.filter (·.1 != k)).lookup l = rows.lookup l := by
  induction rows with
  | nil => rfl
  | cons row rest ih =>
      obtain ⟨key, a⟩ := row
      by_cases dropped : key = k
      · subst dropped
        have unlike : (l == key) = false := beq_false_of_ne apart
        simp [List.lookup_cons, unlike, ih]
      · have kept : (key != k) = true := bne_iff_ne.mpr dropped
        simp only [List.filter_cons, kept, if_true, List.lookup_cons, ih]

theorem mem_of_lookup {rows : List (κ × α)} {k : κ} {a : α} (found : rows.lookup k = some a) :
    (k, a) ∈ rows := by
  obtain ⟨before, after, rfl, -⟩ := List.lookup_eq_some_iff.mp found
  simp

theorem lookup_put_self (rows : List (κ × α)) (k : κ) (a : α) :
    ((k, a) :: rows.filter (·.1 != k)).lookup k = some a := List.lookup_cons_self

theorem lookup_put_of_ne (rows : List (κ × α)) {k l : κ} (a : α) (apart : l ≠ k) :
    ((k, a) :: rows.filter (·.1 != k)).lookup l = rows.lookup l := by
  have unlike : (l == k) = false := beq_false_of_ne apart
  rw [List.lookup_cons, unlike]
  exact lookup_without_of_ne rows apart

end Rows

/-! ## Tables of callables -/

namespace Tables

variable {t : Tables} {index other : Nat}

@[simp] theorem table?_put_self (table : CallableTable) :
    (t.put index table).table? index = some table := lookup_put_self t.rows index table

theorem table?_put_of_ne (table : CallableTable) (apart : other ≠ index) :
    (t.put index table).table? other = t.table? other := lookup_put_of_ne t.rows table apart

@[simp] theorem table?_drop_self : (t.drop index).table? index = none :=
  lookup_without_self t.rows index

theorem table?_drop_of_ne (apart : other ≠ index) : (t.drop index).table? other = t.table? other :=
  lookup_without_of_ne t.rows apart

end Tables

/-! ## Instances of a world -/

namespace World

variable {w : World} {name other : String}

@[simp] theorem instance?_put_self (i : Instance) : (w.put name i).instance? name = some i :=
  lookup_put_self w.instances name i

theorem instance?_put_of_ne (i : Instance) (apart : other ≠ name) :
    (w.put name i).instance? other = w.instance? other := lookup_put_of_ne w.instances i apart

theorem instance?_close_self : (w.close name).instance? name = none := by
  unfold close
  split
  · exact lookup_without_self w.instances name
  · assumption

theorem instance?_close_of_ne (apart : other ≠ name) :
    (w.close name).instance? other = w.instance? other := by
  unfold close
  split
  · exact lookup_without_of_ne w.instances apart
  · rfl

end World

end GuestVM
