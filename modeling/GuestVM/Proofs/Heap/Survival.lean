import GuestVM.Proofs.Heap.Marking

/-! # What a collection keeps

A collection of a tidy heap keeps exactly the objects that its roots and the arena reach, each as it
was (`get?_collect`).  The sweep frees what is not marked, and sorting the freed slots in among the
empty ones lists all that are empty then, so that the heap is tidy again. -/
set_option autoImplicit false

namespace GuestVM.Heap

variable {h : Heap} {roots others : List ObjId} {x : ObjId} {o : Object}

/-! ## The sweep -/

theorem cell?_sweep (h : Heap) (x : ObjId) : h.sweep.2.cell? x = sweptSlot (h.cell? x) := by
  simp only [sweep, cell?, Array.getElem?_map]
  cases h.slots[x.slot]? <;> rfl

theorem get?_sweep (h : Heap) (x : ObjId) :
    h.sweep.2.get? x = if h.isMarked x then h.get? x else none := by
  rw [get?, cell?_sweep, isMarked, get?]
  cases h.cell? x with
  | none => simp [sweptSlot]
  | some c => cases marked : c.marked <;> simp [sweptSlot, marked]

theorem isMarked_sweep (h : Heap) (x : ObjId) : h.sweep.2.isMarked x = false := by
  rw [isMarked, cell?_sweep, sweptSlot, Option.any_map]
  cases (h.cell? x).filter (·.marked) <;> rfl

theorem mem_unmarkedSlots {i : Nat} :
    i ∈ h.unmarkedSlots ↔ h.isMarked ⟨i⟩ = false ∧ (h.get? ⟨i⟩).isSome := by
  simp only [unmarkedSlots, List.mem_filter, List.mem_range, isMarked, get?, cell?]
  cases found : h.slots[i]? with
  | none => simp
  | some slot =>
      have inside := (Array.getElem?_eq_some_iff.mp found).1
      cases slot <;> simp [inside]

/-- Two ascending lists of the same numbers are equal. -/
theorem eq_of_ascending {k l : List Nat} (left : k.Pairwise (· < ·)) (right : l.Pairwise (· < ·))
    (same : ∀ i, i ∈ k ↔ i ∈ l) : k = l := by
  have perm : k.Perm l := (List.perm_ext_iff_of_nodup (left.imp Nat.ne_of_lt)
    (right.imp Nat.ne_of_lt)).mpr same
  exact perm.eq_of_pairwise (fun a b _ _ below above => (Nat.lt_asymm below above).elim) left right

/-- The freed slots and those that were empty before are the empty ones after a sweep. -/
theorem free_sweep (free : h.free = emptySlots h.slots) :
    h.sweep.2.free = emptySlots h.sweep.2.slots := by
  refine eq_of_ascending (pairwise_ascending _) (pairwise_emptySlots _) fun i => ?_
  have swept := get?_sweep h ⟨i⟩
  have empty : h.sweep.2.slots[i]?.join = none ↔ h.sweep.2.get? ⟨i⟩ = none := get?_eq_none.symm
  have before : h.slots[i]?.join = none ↔ h.get? ⟨i⟩ = none := get?_eq_none.symm
  have size : h.sweep.2.slots.size = h.slots.size := Array.size_map ..
  have listed : i ∈ h.sweep.2.free ↔ i ∈ h.unmarkedSlots ∨ i ∈ h.free := by
    simp [sweep, mem_ascending]
  rw [listed, free, mem_emptySlots, mem_emptySlots, mem_unmarkedSlots, empty, before, size, swept]
  cases live : h.get? ⟨i⟩ with
  | none => simp
  | some o =>
      have inside : i < h.slots.size := slot_lt_of_get? live
      cases h.isMarked ⟨i⟩ <;> simp [inside]

/-! ## Collections -/

theorem collect_of_suspended (suspended : h.isSuspended = true) : h.collect roots = (none, h) := by
  simp [collect, suspended]

theorem collect_of_running (running : h.isSuspended = false) (roots : List ObjId) :
    h.collect roots = (some (h.mark (h.startingWork roots)).sweep.1,
      (h.mark (h.startingWork roots)).sweep.2) := by
  simp [collect, running]

theorem mem_startingWork : x ∈ h.startingWork roots ↔ x ∈ roots ∨ x ∈ h.arena.toList := by
  rw [startingWork, List.mem_reverse, List.mem_append]

/-- Marking starts with the roots and the arena. -/
theorem isMarked_startingWork (tidy : h.Tidy) :
    (h.mark (h.startingWork roots)).isMarked x = true ↔ Reachable h (roots ++ h.arena.toList) x := by
  rw [(marks_mark h _).isMarked tidy.unmarked]
  exact ⟨.mono (List.reverse_subset.mpr (List.Subset.refl _)),
    .mono (List.subset_reverse.mpr (List.Subset.refl _))⟩

theorem get?_collect_eq (tidy : h.Tidy) (running : h.isSuspended = false) (roots : List ObjId)
    (x : ObjId) [Decidable (Reachable h (roots ++ h.arena.toList) x)] :
    (h.collect roots).2.get? x =
      if Reachable h (roots ++ h.arena.toList) x then h.get? x else none := by
  rw [collect_of_running running, get?_sweep, (marks_mark _ _).remarked.objects]
  simp only [isMarked_startingWork tidy]

/-- A collection keeps what is reachable as it was and frees the rest. -/
theorem get?_collect (tidy : h.Tidy) (running : h.isSuspended = false) :
    (h.collect roots).2.get? x = some o ↔
      h.get? x = some o ∧ Reachable h (roots ++ h.arena.toList) x := by
  classical
  rw [get?_collect_eq tidy running]
  split
  case isTrue reached => simp [reached]
  case isFalse lost => simp [lost]

theorem Tidy.collect (tidy : h.Tidy) (roots : List ObjId) : (h.collect roots).2.Tidy := by
  cases suspended : h.isSuspended with
  | true => rwa [collect_of_suspended suspended]
  | false =>
      rw [collect_of_running suspended]
      have marked := (marks_mark h (h.startingWork roots)).remarked
      have free := (marked.free.trans tidy.free).trans marked.emptySlots.symm
      exact ⟨free_sweep free, isMarked_sweep _⟩

@[simp] theorem collect_arena (h : Heap) (roots : List ObjId) :
    (h.collect roots).2.arena = h.arena := by
  unfold collect
  split
  · rfl
  · exact (marks_mark h (h.startingWork roots)).remarked.arena

@[simp] theorem collect_walks (h : Heap) (roots : List ObjId) :
    (h.collect roots).2.walks = h.walks := by
  unfold collect
  split
  · rfl
  · exact (marks_mark h (h.startingWork roots)).remarked.walks

/-- A collection makes nothing. -/
theorem get?_of_get?_collect (kept : (h.collect roots).2.get? x = some o) : h.get? x = some o := by
  cases suspended : h.isSuspended with
  | true => rwa [collect_of_suspended suspended] at kept
  | false =>
      rw [collect_of_running suspended, get?_sweep, (marks_mark _ _).remarked.objects] at kept
      split at kept
      · exact kept
      · cases kept

theorem get?_collect_of_root (live : h.get? x = some o) (root : x ∈ roots ∨ x ∈ h.arena.toList) :
    (h.collect roots).2.get? x = some o := by
  cases suspended : h.isSuspended with
  | true => rwa [collect_of_suspended suspended]
  | false =>
      have marked := (marks_mark h _).isMarked_of_mem (mem_startingWork.mpr root)
        (Option.isSome_of_eq_some live)
      rw [collect_of_running suspended, get?_sweep, (marks_mark _ _).remarked.objects,
        if_pos marked, live]

theorem get?_collect_of_reference (tidy : h.Tidy) {y : ObjId} {p : Object}
    (kept : (h.collect roots).2.get? x = some o) (ref : y ∈ o.references)
    (live : h.get? y = some p) : (h.collect roots).2.get? y = some p := by
  by_cases suspended : h.isSuspended
  · rwa [collect_of_suspended suspended]
  · have running : h.isSuspended = false := by simpa using suspended
    obtain ⟨present, reached⟩ := (get?_collect tidy running).mp kept
    exact (get?_collect tidy running).mpr ⟨live, .step reached present ref live⟩

end GuestVM.Heap
