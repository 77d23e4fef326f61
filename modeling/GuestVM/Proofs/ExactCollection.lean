import GuestVM.Proofs.Heap.Histories

/-! # Exact collection

A collection frees exactly what is not reachable, leaves everything else as it was, and keeps the
accounts (`Heap.Collected`).  The order of the roots, how often they come and the order in which
objects list what they refer to make no difference (`Heap.collects_iff`). -/
set_option autoImplicit false

namespace GuestVM.Heap

variable {h h' : Heap} {roots others : List ObjId} {n : Nat}

/-- A collection in which objects may list what they refer to in any order. -/
inductive Collects (h : Heap) (roots : List ObjId) : Option Nat × Heap → Prop
  | refused (suspended : h.isSuspended = true) : Collects h roots (none, h)
  | done {g : Heap} (running : h.isSuspended = false) (marks : h.Marks (h.startingWork roots) g) :
      Collects h roots (some g.sweep.1, g.sweep.2)

/-- What a heap is after a collection that freed `n` objects. -/
structure Collected (h : Heap) (roots : List ObjId) (n : Nat) (h' : Heap) : Prop where
  live : ∀ id, (h'.get? id).isSome ↔
    (h.get? id).isSome ∧ h.Reachable (roots ++ h.arena.toList) id
  /-- Class, flag, instance variables and body. -/
  kept : ∀ id o, h'.get? id = some o → h.get? id = some o
  unmarked : ∀ id, h'.isMarked id = false
  gone : (h.liveIds.filter h'.isDead).length = n
  counted : h'.live + n = h.live
  /-- The arena and the settings. -/
  rest : { h' with
    slots := h.slots, free := h.free, live := h.live, collections := h.collections } = h

/-! ## The order of things -/

theorem collects_iff (unmarked : ∀ id, h.isMarked id = false)
    (same : ∀ id, id ∈ roots ↔ id ∈ others) (result : Option Nat × Heap) :
    h.Collects others result ↔ result = h.collect roots := by
  have works : ∀ id, id ∈ h.startingWork others ↔ id ∈ h.startingWork roots := by
    intro id
    rw [mem_startingWork, mem_startingWork, same]
  constructor
  · intro collects
    cases collects with
    | refused suspended => exact (collect_of_suspended suspended).symm
    | done running marks => rw [marks.eq_mark unmarked works, collect_of_running running]
  · rintro rfl
    cases suspended : h.isSuspended with
    | true =>
        rw [collect_of_suspended suspended]
        exact .refused suspended
    | false =>
        have marks := marks_mark h (h.startingWork others)
        rw [collect_of_running suspended, ← marks.eq_mark unmarked works]
        exact .done suspended marks

/-! ## What is gone -/

/-- Where nothing comes to life, what has gone is what there is less. -/
theorem length_gone (kept : ∀ id o, h'.get? id = some o → h.get? id = some o) :
    h'.liveIds.length + (h.liveIds.filter h'.isDead).length = h.liveIds.length := by
  have left : (h.liveIds.filter fun id => ¬ h'.isDead id).Perm h'.liveIds := by
    refine (List.perm_ext_iff_of_nodup (h.nodup_liveIds.filter _) h'.nodup_liveIds).mpr ?_
    intro id
    simp only [List.mem_filter, mem_liveIds, isDead, decide_eq_true_eq, Bool.not_eq_true,
      Option.isNone_eq_false_iff]
    refine ⟨fun both => both.2, fun live => ⟨?_, live⟩⟩
    obtain ⟨o, present⟩ := Option.isSome_iff_exists.mp live
    exact Option.isSome_of_eq_some (kept id o present)
  rw [← left.length_eq, Nat.add_comm, ← List.countP_eq_length_filter,
    ← List.countP_eq_length_filter, ← List.length_eq_countP_add_countP]

theorem Accounted.collected (accounted : h.Accounted) (running : h.isSuspended = false)
    (roots : List ObjId) : ∃ n h', h.collect roots = (some n, h') ∧ h.Collected roots n h' := by
  classical
  have marked := (marks_mark h (h.startingWork roots)).remarked
  obtain ⟨free, balance⟩ := accounted.mark (h.startingWork roots)
  obtain ⟨counted, -⟩ := Accounted.sweep_balance free balance
  rw [marked.live] at counted
  have collected := collect_of_running running roots
  have objects := get?_collect_eq accounted.tidy running roots
  have kept : ∀ id o, (h.collect roots).2.get? id = some o → h.get? id = some o :=
    fun _ _ => get?_of_get?_collect
  have later := (accounted.collect roots).live_eq
  rw [collected] at objects kept later
  dsimp only at objects kept later
  refine ⟨_, _, collected, ?_, kept, isMarked_sweep _, ?_, counted, ?_⟩
  · intro id
    rw [objects]
    split
    case isTrue reached => simp [reached]
    case isFalse lost => simp [lost]
  · have gone := length_gone kept
    rw [← later, ← accounted.live_eq] at gone
    omega
  · exact congrArg (fun k : Heap => { k with
      slots := h.slots, free := h.free, live := h.live, collections := h.collections })
      marked.eq_with_slots

/-- After any history of a heap, a collection frees exactly what cannot be reached, or nothing while
collection is suspended. -/
theorem collections_exact (ops : List Op) (roots : List ObjId) :
    ((after ops).isSuspended = false → ∃ n h', (after ops).collect roots = (some n, h') ∧
      (after ops).Collected roots n h') ∧
    ((after ops).isSuspended = true → (after ops).collect roots = (none, after ops)) ∧
    ∀ others, (∀ id, id ∈ roots ↔ id ∈ others) → ∀ result,
      (after ops).Collects others result ↔ result = (after ops).collect roots :=
  ⟨fun running => (accounted_after ops).collected running roots, collect_of_suspended,
    fun _ same => collects_iff (accounted_after ops).tidy.unmarked same⟩

/-- Of two pairs of objects that refer to each other, the one that a root refers to is left. -/
example :
    let pairs := after [.alloc { cls := ⟨1⟩, body := .object }, .alloc { cls := ⟨0⟩, body := .object },
      .alloc { cls := ⟨3⟩, body := .object }, .alloc { cls := ⟨2⟩, body := .object }, .arenaRestore 0]
    let (freed, left) := pairs.collect [⟨2⟩, ⟨9⟩, ⟨2⟩]
    freed = some 2 ∧ left.liveIds = [⟨2⟩, ⟨3⟩] ∧ left.free = [0, 1] := by
  decide +kernel

end GuestVM.Heap
