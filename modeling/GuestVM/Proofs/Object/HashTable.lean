import GuestVM.Object.HashTable
import Mathlib.Data.List.Nodup
import Mathlib.Data.List.Sublists

/-! # Laws of ordered hash tables

A table is coherent when its three containers are in step: `keys` is as long as `entries` and names
no identity twice, and `index` finds every identity at its place and no other.  The operations keep
a table coherent.  They enter identities at the end only, and taking one out leaves the others in
their order. -/
set_option autoImplicit false

namespace GuestVM.HashTable

structure Coherent (t : HashTable) : Prop where
  sizes : t.keys.size = t.entries.size
  nodup : t.keys.toList.Nodup
  position : ∀ k p, t.position k = some p ↔ t.keys[p]? = some k

variable {t : HashTable} {k : HashKey} {key v : Value} {p : Nat}

theorem toList_eraseIdxIfInBounds {α : Type} (xs : Array α) (p : Nat) :
    (xs.eraseIdxIfInBounds p).toList = xs.toList.eraseIdx p := by
  simp only [Array.eraseIdxIfInBounds]
  split
  · exact Array.toList_eraseIdx ..
  case isFalse outside => rw [List.eraseIdx_of_length_le (by simpa using outside)]

theorem entries_removeAt (t : HashTable) (p : Nat) :
    (t.removeAt p).entries.toList = t.entries.toList.eraseIdx p := toList_eraseIdxIfInBounds ..

/-- The identities go with their entries. -/
theorem identities_removeAt (t : HashTable) (p : Nat) :
    (t.removeAt p).keys.toList = t.keys.toList.eraseIdx p := toList_eraseIdxIfInBounds ..

/-! ## Positions -/

theorem lookup_zipIdx {ks : List HashKey} (nodup : ks.Nodup) (k : HashKey) (p n : Nat) :
    (ks.zipIdx n).lookup k = some p ↔ n ≤ p ∧ ks[p - n]? = some k := by
  induction ks generalizing n with
  | nil => simp
  | cons head tail ih =>
      obtain ⟨fresh, rest⟩ := List.nodup_cons.mp nodup
      rw [List.zipIdx_cons, List.lookup_cons]
      by_cases here : k = head
      · subst here
        simp only [beq_self_eq_true, Option.some.injEq]
        constructor
        · intro same
          subst same
          simp
        · intro found
          obtain ⟨bound, found⟩ := found
          cases gap : p - n with
          | zero => omega
          | succ q =>
              rw [gap, List.getElem?_cons_succ] at found
              exact absurd (List.mem_of_getElem? found) fresh
      · have other : (k == head) = false := by simpa using here
        rw [other, ih rest]
        constructor
        · intro found
          obtain ⟨bound, found⟩ := found
          refine ⟨by omega, ?_⟩
          rw [show p - n = p - (n + 1) + 1 by omega, List.getElem?_cons_succ, found]
        · intro found
          obtain ⟨bound, found⟩ := found
          cases gap : p - n with
          | zero =>
              rw [gap, List.getElem?_cons_zero] at found
              exact absurd (Option.some.inj found).symm here
          | succ q =>
              rw [gap, List.getElem?_cons_succ] at found
              refine ⟨by omega, ?_⟩
              rw [show p - (n + 1) = q by omega, found]

namespace Coherent

theorem empty : HashTable.empty.Coherent :=
  ⟨rfl, List.nodup_nil, fun k p => by simp [HashTable.position, HashTable.empty]⟩

theorem position_lt (coherent : t.Coherent) (found : t.position k = some p) :
    p < t.entries.size := by
  have there := (coherent.position k p).mp found
  rw [← coherent.sizes]
  exact (Array.getElem?_eq_some_iff.mp there).1

theorem position_eq_none (coherent : t.Coherent) : t.position k = none ↔ k ∉ t.keys.toList := by
  constructor
  · intro absent member
    obtain ⟨p, found⟩ := List.mem_iff_getElem?.mp member
    rw [Array.getElem?_toList] at found
    rw [(coherent.position k p).mpr found] at absent
    cases absent
  · intro absent
    by_contra present
    obtain ⟨p, found⟩ := Option.ne_none_iff_exists'.mp present
    have there := (coherent.position k p).mp found
    exact absent (Array.mem_toList_iff.mpr (Array.mem_of_getElem? there))

/-! ## What the operations keep -/

theorem insert (coherent : t.Coherent) : (t.insert k key v).Coherent := by
  unfold HashTable.insert
  cases found : t.position k with
  | some p => exact ⟨by simp [coherent.sizes], coherent.nodup, coherent.position⟩
  | none =>
      have fresh := coherent.position_eq_none.mp found
      refine ⟨by simp [coherent.sizes], ?_, ?_⟩
      · rw [Array.toList_push]
        exact List.nodup_append'.mpr ⟨coherent.nodup, List.nodup_singleton k, by simpa using fresh⟩
      · intro l p
        change ((k, t.entries.size) :: t.index).lookup l = some p ↔ (t.keys.push k)[p]? = some l
        rw [List.lookup_cons, Array.getElem?_push, coherent.sizes]
        by_cases same : l = k
        · subst same
          simp only [beq_self_eq_true, Option.some.injEq]
          constructor
          · intro last
            simp [last]
          · intro there
            split at there
            case isTrue last => exact last.symm
            case isFalse =>
                exact absurd (Array.mem_toList_iff.mpr (Array.mem_of_getElem? there)) fresh
        · have other : (l == k) = false := by simpa using same
          rw [other]
          change t.position l = some p ↔ _
          rw [coherent.position l p]
          split
          case isTrue last =>
              have past : t.keys[p]? = none := Array.getElem?_eq_none (by simp [last, coherent.sizes])
              simp [past, Ne.symm same]
          case isFalse => exact Iff.rfl

theorem removeAt (coherent : t.Coherent) (p : Nat) : (t.removeAt p).Coherent := by
  have nodup : (t.removeAt p).keys.toList.Nodup := by
    rw [identities_removeAt]
    exact (List.eraseIdx_sublist _ p).nodup coherent.nodup
  refine ⟨?_, nodup, ?_⟩
  · simp only [HashTable.removeAt, Array.eraseIdxIfInBounds, coherent.sizes]
    split <;> simp [coherent.sizes]
  · intro k q
    have found := lookup_zipIdx nodup k q 0
    rw [Nat.sub_zero, Array.getElem?_toList] at found
    change (t.removeAt p).keys.toList.zipIdx.lookup k = some q ↔ _
    simpa using found

theorem erase (coherent : t.Coherent) (k : HashKey) : (t.erase k).2.Coherent := by
  unfold HashTable.erase
  split
  · exact coherent.removeAt _
  · exact coherent

/-! ## What is found -/

theorem get?_eq_some (coherent : t.Coherent) :
    t.get? k = some v ↔
      ∃ p : Nat, t.keys[p]? = some k ∧ ∃ e : Value × Value, t.entries[p]? = some e ∧ e.2 = v := by
  simp only [HashTable.get?, entryAt?, Option.bind_eq_bind, Option.bind_eq_some_iff,
    coherent.position, Option.pure_def, Option.some.injEq]

end Coherent

/-! ## The order of the keys -/

/-- An identity that is new goes to the end. -/
theorem keys_insert (coherent : t.Coherent) :
    (k ∈ t.keys.toList ∧ (t.insert k key v).keys = t.keys) ∨
      (k ∉ t.keys.toList ∧ (t.insert k key v).keys.toList = t.keys.toList ++ [k]) := by
  unfold insert
  cases found : t.position k with
  | some p =>
      have there := (coherent.position k p).mp found
      exact .inl ⟨Array.mem_toList_iff.mpr (Array.mem_of_getElem? there), rfl⟩
  | none => exact .inr ⟨coherent.position_eq_none.mp found, Array.toList_push⟩

/-- The entry of a new identity goes to the end with it. -/
theorem insert_fresh (coherent : t.Coherent) (fresh : k ∉ t.keys.toList) (key v : Value) :
    (t.insert k key v).keys.toList = t.keys.toList ++ [k] ∧
      (t.insert k key v).entries.toList = t.entries.toList ++ [(key, v)] := by
  unfold insert
  rw [coherent.position_eq_none.mpr fresh]
  exact ⟨Array.toList_push, Array.toList_push⟩

theorem keys_removeAt (t : HashTable) (p : Nat) :
    (t.removeAt p).keys.toList.Sublist t.keys.toList := by
  rw [identities_removeAt]
  exact List.eraseIdx_sublist _ p

theorem keys_erase (t : HashTable) (k : HashKey) :
    (t.erase k).2.keys.toList.Sublist t.keys.toList := by
  unfold erase
  split
  · exact keys_removeAt t _
  · exact List.Sublist.refl _

/-! ## Rows -/

theorem map_view (coherent : t.Coherent) : t.view.map (·.1) = t.keys.toList := by
  rw [view, List.map_fst_zip]
  simp [coherent.sizes]

theorem length_view (coherent : t.Coherent) : t.view.length = t.size := by
  simp [view, size, coherent.sizes]

theorem zip_eraseIdx {α β : Type} (xs : List α) (ys : List β) (p : Nat) :
    (xs.eraseIdx p).zip (ys.eraseIdx p) = (xs.zip ys).eraseIdx p := by
  induction xs generalizing ys p with
  | nil => simp
  | cons x xs ih =>
      cases ys with
      | nil => simp
      | cons y ys =>
          cases p with
          | zero => simp
          | succ p => simp [ih]

theorem view_removeAt (t : HashTable) (p : Nat) : (t.removeAt p).view = t.view.eraseIdx p := by
  rw [view, view, identities_removeAt, entries_removeAt, zip_eraseIdx]

end GuestVM.HashTable
