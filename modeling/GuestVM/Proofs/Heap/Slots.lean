import GuestVM.Heap
import Mathlib.Data.List.Nodup

/-! # Slots of the heap

What each heap operation does to the object of an id.  A heap is *tidy* when its free list names
exactly the empty slots, lowest first, and no object is marked.  Only then does `alloc` fill a slot
that was empty, so that no live object is overwritten, and does a collection find what is reachable;
every operation keeps a heap tidy. -/
set_option autoImplicit false

namespace GuestVM

@[ext] theorem ObjId.ext_slot {a b : ObjId} (same : a.slot = b.slot) : a = b := by
  cases a
  cases b
  simpa using same

namespace Heap

/-! ## Reading slots -/

theorem slot_lt_of_get? {h : Heap} {id : ObjId} {o : Object} (live : h.get? id = some o) :
    id.slot < h.slots.size := by
  by_contra outside
  simp [get?, cell?, Array.getElem?_eq_none (Nat.le_of_not_lt outside)] at live

theorem get?_eq_some {h : Heap} {id : ObjId} {o : Object} :
    h.get? id = some o ↔ ∃ c, h.cell? id = some c ∧ c.object = o := Option.map_eq_some_iff

theorem get?_eq_none {h : Heap} {id : ObjId} : h.get? id = none ↔ h.cell? id = none :=
  Option.map_eq_none_iff

theorem mem_liveIds {h : Heap} {id : ObjId} : id ∈ h.liveIds ↔ (h.get? id).isSome := by
  simp only [liveIds, List.mem_filterMap, List.mem_range]
  constructor
  · intro given
    obtain ⟨slot, _, found⟩ := given
    cases present : h.get? ⟨slot⟩ with
    | none => simp [present] at found
    | some o =>
        have same : (⟨slot⟩ : ObjId) = id := by simpa [present] using found
        rw [← same, present]
        rfl
  · intro live
    obtain ⟨o, present⟩ := Option.isSome_iff_exists.mp live
    exact ⟨id.slot, slot_lt_of_get? present, by simp [present]⟩

/-- The empty slots, lowest first. -/
def emptySlots (slots : Array (Option Cell)) : List Nat :=
  (List.range slots.size).filter fun i => slots[i]?.join.isNone

theorem mem_emptySlots {slots : Array (Option Cell)} {i : Nat} :
    i ∈ emptySlots slots ↔ i < slots.size ∧ slots[i]?.join = none := by
  simp [emptySlots, List.mem_filter, List.mem_range]

theorem pairwise_emptySlots (slots : Array (Option Cell)) :
    (emptySlots slots).Pairwise (· < ·) := List.Pairwise.filter _ List.pairwise_lt_range

/-! ## Changing an object -/

/-- What a slot holds after a change of what one slot holds. -/
theorem join_modify (slots : Array (Option Cell)) (id : ObjId) (f : Cell → Cell) (x : ObjId) :
    (slots.modify id.slot (Option.map f))[x.slot]?.join =
      if x = id then slots[x.slot]?.join.map f else slots[x.slot]?.join := by
  rw [Array.getElem?_modify]
  by_cases same : x = id
  · subst same
    simp only [if_true]
    cases slots[x.slot]? <;> simp
  · have apart : id.slot ≠ x.slot := fun equal => same (ObjId.ext_slot equal.symm)
    simp [apart, same]

theorem cell?_modify (h : Heap) (id : ObjId) (f : Object → Object) (x : ObjId) :
    (h.modify id f).cell? x =
      if x = id then (h.cell? x).map fun c => { c with object := f c.object } else h.cell? x :=
  join_modify h.slots id _ x

theorem get?_modify (h : Heap) (id : ObjId) (f : Object → Object) (x : ObjId) :
    (h.modify id f).get? x = if x = id then (h.get? x).map f else h.get? x := by
  rw [get?, cell?_modify, get?]
  split <;> simp [Option.map_map, Function.comp_def]

/-- Only what becomes of the object that is there matters. -/
theorem modify_congr {h : Heap} {id : ObjId} {f g : Object → Object}
    (same : ∀ o, h.get? id = some o → f o = g o) : h.modify id f = h.modify id g := by
  have slots : (h.modify id f).slots = (h.modify id g).slots := by
    apply Array.ext_getElem?
    intro i
    simp only [modify, Array.getElem?_modify]
    by_cases here : id.slot = i
    · subst here
      cases found : h.slots[id.slot]? with
      | none => simp
      | some slot =>
          cases slot with
          | none => simp
          | some c => simp [same c.object (by simp [get?, cell?, found])]
    · simp [here]
  exact congrArg (fun slots => { h with slots := slots }) slots

theorem modify_id (h : Heap) (id : ObjId) : h.modify id (fun o => o) = h := by
  have slots : (h.modify id fun o => o).slots = h.slots := by
    apply Array.ext_getElem?
    intro i
    simp only [modify, Array.getElem?_modify]
    by_cases here : id.slot = i
    · simp [here]
    · simp [here]
  exact congrArg (fun slots => { h with slots := slots }) slots

theorem modify_of_dead {h : Heap} {id : ObjId} (f : Object → Object) (dead : h.get? id = none) :
    h.modify id f = h := by
  refine (modify_congr (g := fun o => o) fun o live => ?_).trans (modify_id h id)
  cases dead.symm.trans live

theorem modify_self {h : Heap} {id : ObjId} {o : Object} (live : h.get? id = some o) :
    h.modify id (fun _ => o) = h :=
  (modify_congr fun _ found => Option.some.inj (live.symm.trans found)).trans (modify_id h id)

theorem modify_of_live {h : Heap} {id : ObjId} {o : Object} (f : Object → Object)
    (live : h.get? id = some o) : h.modify id f = h.modify id fun _ => f o :=
  modify_congr fun _ found => congrArg f (Option.some.inj (found.symm.trans live))

/-! ## Tidy heaps -/

/-- The free list names the empty slots, lowest first, and nothing is marked. -/
def Tidy (h : Heap) : Prop := h.free = emptySlots h.slots ∧ ∀ id, h.isMarked id = false

theorem Tidy.free {h : Heap} (tidy : h.Tidy) : h.free = emptySlots h.slots := tidy.1

theorem Tidy.unmarked {h : Heap} (tidy : h.Tidy) : ∀ id, h.isMarked id = false := tidy.2

/-- A slot without an object is not marked. -/
theorem unmarked_of_liveIds {h : Heap} (unmarked : ∀ id ∈ h.liveIds, h.isMarked id = false)
    (id : ObjId) : h.isMarked id = false := by
  cases found : h.cell? id with
  | none => simp [isMarked, found]
  | some c => exact unmarked id (mem_liveIds.mpr (by simp [get?, found]))

theorem emptySlots_modify (slots : Array (Option Cell)) (i : Nat) (f : Cell → Cell) :
    emptySlots (slots.modify i (Option.map f)) = emptySlots slots := by
  simp only [emptySlots, Array.size_modify]
  apply List.filter_congr
  intro k _
  rw [Array.getElem?_modify]
  by_cases here : i = k
  · subst here
    cases slots[i]? with
    | none => simp
    | some slot => cases slot <;> simp
  · simp [here]

theorem isMarked_modify (h : Heap) (id : ObjId) (f : Object → Object) (x : ObjId) :
    (h.modify id f).isMarked x = h.isMarked x := by
  rw [isMarked, cell?_modify, isMarked]
  split
  · cases h.cell? x <;> rfl
  · rfl

theorem Tidy.modify {h : Heap} (tidy : h.Tidy) (id : ObjId) (f : Object → Object) :
    (h.modify id f).Tidy :=
  ⟨tidy.free.trans (emptySlots_modify h.slots id.slot _).symm,
    fun x => (isMarked_modify h id f x).trans (tidy.unmarked x)⟩

/-- Filling the lowest empty slot takes it off the list of empty slots. -/
theorem emptySlots_setIfInBounds {slots : Array (Option Cell)} {i : Nat} {rest : List Nat}
    (c : Cell) (empty : emptySlots slots = i :: rest) :
    emptySlots (slots.setIfInBounds i (some c)) = rest := by
  have kept : emptySlots (slots.setIfInBounds i (some c)) =
      (emptySlots slots).filter fun k => decide (k ≠ i) := by
    simp only [emptySlots, Array.size_setIfInBounds, List.filter_filter]
    apply List.filter_congr
    intro k inside
    rw [Array.getElem?_setIfInBounds]
    by_cases here : i = k
    · subst here
      simp [List.mem_range.mp inside]
    · simp [here, Ne.symm here]
  have lowest := empty ▸ pairwise_emptySlots slots
  rw [kept, empty]
  simp only [List.filter_cons, ne_eq, not_true_eq_false, decide_false, Bool.false_eq_true,
    if_false]
  apply List.filter_eq_self.mpr
  intro k member
  simpa using Nat.ne_of_gt ((List.pairwise_cons.mp lowest).1 k member)

theorem emptySlots_push (slots : Array (Option Cell)) (c : Cell) :
    emptySlots (slots.push (some c)) = emptySlots slots := by
  simp only [emptySlots, Array.size_push, List.range_succ, List.filter_append]
  have last : ([slots.size].filter fun i => (slots.push (some c))[i]?.join.isNone) = [] := by
    simp
  rw [last, List.append_nil]
  apply List.filter_congr
  intro k inside
  have before : k ≠ slots.size := Nat.ne_of_lt (List.mem_range.mp inside)
  rw [Array.getElem?_push]
  simp [before]

/-! ## Allocation -/

/-- The slot of a new object is the lowest empty one, or the next one where none is empty. -/
theorem slot_alloc {h : Heap} (tidy : h.Tidy) (o : Object) :
    (h.alloc o).1.slot = (emptySlots h.slots).headD h.slots.size := by
  rw [← tidy.free]
  unfold alloc
  split
  case h_1 i rest free => simp [free]
  case h_2 free => simp [free]

theorem cell?_alloc_self_before {h : Heap} (tidy : h.Tidy) (o : Object) :
    h.cell? (h.alloc o).1 = none := by
  rw [cell?, slot_alloc tidy o]
  cases empty : emptySlots h.slots with
  | nil => simp
  | cons i rest =>
      have member : i ∈ emptySlots h.slots := by rw [empty]; exact List.mem_cons_self ..
      exact (mem_emptySlots.mp member).2

theorem get?_alloc_self_before {h : Heap} (tidy : h.Tidy) (o : Object) :
    h.get? (h.alloc o).1 = none := get?_eq_none.mpr (cell?_alloc_self_before tidy o)

theorem cell?_alloc {h : Heap} (tidy : h.Tidy) (o : Object) (x : ObjId) :
    (h.alloc o).2.cell? x = if x = (h.alloc o).1 then some { object := o } else h.cell? x := by
  have free' := tidy.free
  cases free : h.free with
  | nil =>
      simp only [Heap.alloc, free, cell?, Array.getElem?_push]
      by_cases new : x.slot = h.slots.size
      · have same : x = ⟨h.slots.size⟩ := ObjId.ext_slot new
        simp [same]
      · have apart : x ≠ ⟨h.slots.size⟩ := fun equal => new (congrArg ObjId.slot equal)
        simp [new, apart]
  | cons i rest =>
      have member : i ∈ emptySlots h.slots := by rw [← free', free]; exact List.mem_cons_self ..
      have inside : i < h.slots.size := (mem_emptySlots.mp member).1
      simp only [Heap.alloc, free, cell?, Array.getElem?_setIfInBounds]
      by_cases new : x = ⟨i⟩
      · subst new
        simp [inside]
      · have apart : i ≠ x.slot := fun equal => new (ObjId.ext_slot equal.symm)
        simp [apart, new]

theorem get?_alloc {h : Heap} (tidy : h.Tidy) (o : Object) (x : ObjId) :
    (h.alloc o).2.get? x = if x = (h.alloc o).1 then some o else h.get? x := by
  rw [get?, cell?_alloc tidy, get?]
  split <;> rfl

theorem Tidy.alloc {h : Heap} (tidy : h.Tidy) (o : Object) : (h.alloc o).2.Tidy := by
  constructor
  · have free' := tidy.free
    cases free : h.free with
    | nil =>
        simp only [Heap.alloc, free, emptySlots_push]
        rw [← free', free]
    | cons i rest =>
        simp only [Heap.alloc, free]
        exact (emptySlots_setIfInBounds _ (by rw [← free', free])).symm
  · intro x
    rw [isMarked, cell?_alloc tidy]
    split
    · rfl
    · exact tidy.unmarked x

/-- What was live before an allocation has not changed. -/
theorem get?_alloc_of_live {h : Heap} (tidy : h.Tidy) (o : Object) {x : ObjId} {p : Object}
    (live : h.get? x = some p) : (h.alloc o).2.get? x = some p := by
  have old : x ≠ (h.alloc o).1 := by
    intro same
    rw [same, get?_alloc_self_before tidy] at live
    cases live
  rw [get?_alloc tidy, if_neg old, live]

@[simp] theorem alloc_arena (h : Heap) (o : Object) :
    (h.alloc o).2.arena = h.arena.push (h.alloc o).1 := by
  unfold Heap.alloc
  split <;> rfl

theorem alloc_live (h : Heap) (o : Object) : (h.alloc o).2.live = h.live + 1 := by
  unfold Heap.alloc
  split <;> rfl

/-- The settings and the state of the collector are left as they are. -/
theorem alloc_rest (h : Heap) (o : Object) :
    { (h.alloc o).2 with
        slots := h.slots, free := h.free, arena := h.arena, live := h.live } = h := by
  unfold Heap.alloc
  split <;> rfl

end Heap

end GuestVM
