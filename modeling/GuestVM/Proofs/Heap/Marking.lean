import GuestVM.Heap.Collect
import GuestVM.Proofs.Heap.Slots

/-! # Marking

The loop that takes ids off a stack of work changes nothing but marks, and takes none away
(`Marks.remarked`).  It is sound because only roots and what marked objects refer to ever get on the
stack.  It is complete because what a marked object refers to is marked, dead, or still on the stack.
So what is marked in the end is what the roots reach (`Marks.isMarked`).

That depends on nothing but which ids get on the stack.  The order in which an object lists what it
refers to is left open here: `Marks` says of two heaps that the loop may lead from one to the other,
with whatever order each time.  So the order makes no difference (`Marks.eq_mark`).

The inductions follow the loop: an id is dead, marked already, or entered. -/
set_option autoImplicit false

namespace GuestVM.Heap

/-- Marking in which an object that is entered may list what it refers to in any order. -/
inductive Marks : Heap → List ObjId → Heap → Prop
  | done (h : Heap) : Marks h [] h
  | dead {h g : Heap} {id : ObjId} {work : List ObjId} (dead : h.cell? id = none)
      (onward : Marks h work g) : Marks h (id :: work) g
  | marked {h g : Heap} {id : ObjId} {work : List ObjId} {c : Cell} (found : h.cell? id = some c)
      (marked : c.marked = true) (onward : Marks h work g) : Marks h (id :: work) g
  | enter {h g : Heap} {id : ObjId} {work children : List ObjId} {c : Cell}
      (found : h.cell? id = some c) (unmarked : c.marked = false)
      (order : children.Perm c.object.references)
      (onward : Marks (h.setMark id) (children ++ work) g) : Marks h (id :: work) g

variable {h g k : Heap} {id x : ObjId} {c : Cell} {roots work others : List ObjId}

/-! ## Single marks -/

theorem cell?_setMark (h : Heap) (id x : ObjId) :
    (h.setMark id).cell? x =
      if x = id then (h.cell? x).map fun c => { c with marked := true } else h.cell? x :=
  join_modify h.slots id _ x

theorem get?_setMark (h : Heap) (id x : ObjId) : (h.setMark id).get? x = h.get? x := by
  rw [get?, cell?_setMark, get?]
  split
  · cases h.cell? x <;> rfl
  · rfl

theorem isMarked_setMark_self (live : h.cell? id = some c) : (h.setMark id).isMarked id = true := by
  simp [isMarked, cell?_setMark, live]

theorem isMarked_setMark_of_ne (apart : x ≠ id) : (h.setMark id).isMarked x = h.isMarked x := by
  simp [isMarked, cell?_setMark, apart]

theorem isMarked_eq_of_cell? (found : h.cell? id = some c) : h.isMarked id = c.marked := by
  simp [isMarked, found]

/-! ## The loop -/

theorem mark_nil (h : Heap) : h.mark [] = h := by
  rw [mark]

theorem mark_dead (dead : h.cell? id = none) (work : List ObjId) :
    h.mark (id :: work) = h.mark work := by
  rw [mark]
  split
  · rfl
  case h_2 c found => cases dead.symm.trans found

theorem mark_marked (found : h.cell? id = some c) (marked : c.marked = true) (work : List ObjId) :
    h.mark (id :: work) = h.mark work := by
  rw [mark]
  split
  · rfl
  case h_2 c' found' =>
      cases found.symm.trans found'
      rw [dif_pos marked]

theorem mark_unmarked (found : h.cell? id = some c) (unmarked : ¬ c.marked = true)
    (work : List ObjId) :
    h.mark (id :: work) = (h.setMark id).mark (c.object.references.reverse ++ work) := by
  rw [mark]
  split
  case h_1 dead => cases dead.symm.trans found
  case h_2 c' found' =>
      cases found.symm.trans found'
      rw [dif_neg unmarked]

theorem marks_mark (h : Heap) (work : List ObjId) : h.Marks work (h.mark work) := by
  induction h, work using mark.induct with
  | case1 h =>
      rw [mark_nil]
      exact .done h
  | case2 h id work dead ih =>
      rw [mark_dead dead]
      exact .dead dead ih
  | case3 h id work c found marked ih =>
      rw [mark_marked found marked]
      exact .marked found marked ih
  | case4 h id work c found unmarked ih =>
      rw [mark_unmarked found unmarked]
      exact .enter found (Bool.eq_false_iff.mpr unmarked) (List.reverse_perm _) ih

/-- A heap that differs from another at most in marks, and has all of its marks. -/
structure Remarked (h g : Heap) : Prop where
  objects : ∀ x, g.get? x = h.get? x
  size : g.slots.size = h.slots.size
  rest : { g with slots := h.slots } = h
  grows : ∀ x, h.isMarked x = true → g.isMarked x = true

namespace Remarked

theorem refl (h : Heap) : h.Remarked h := ⟨fun _ => rfl, rfl, rfl, fun _ => id⟩

theorem setMark (found : h.cell? id = some c) (later : (h.setMark id).Remarked g) :
    h.Remarked g where
  objects := fun x => (later.objects x).trans (get?_setMark h id x)
  size := later.size.trans (by simp [Heap.setMark])
  rest := congrArg (fun k : Heap => { k with slots := h.slots }) later.rest
  grows := by
    intro x marked
    apply later.grows
    by_cases same : x = id
    · rw [same]
      exact isMarked_setMark_self found
    · rwa [isMarked_setMark_of_ne same]

theorem eq_with_slots (marked : h.Remarked g) : g = { h with slots := g.slots } :=
  congrArg (fun k : Heap => { k with slots := g.slots }) marked.rest

theorem free (marked : h.Remarked g) : g.free = h.free := by
  rw [marked.eq_with_slots]

theorem arena (marked : h.Remarked g) : g.arena = h.arena := by
  rw [marked.eq_with_slots]

theorem live (marked : h.Remarked g) : g.live = h.live := by
  rw [marked.eq_with_slots]

theorem walks (marked : h.Remarked g) : g.walks = h.walks := by
  rw [marked.eq_with_slots]

theorem emptySlots (marked : h.Remarked g) : emptySlots g.slots = emptySlots h.slots := by
  simp only [Heap.emptySlots, marked.size]
  apply List.filter_congr
  intro i _
  have objects := congrArg Option.isNone (marked.objects ⟨i⟩)
  simpa only [get?, cell?, Option.isNone_map] using objects

theorem cell?_eq (first : h.Remarked g) (second : h.Remarked k)
    (same : ∀ x, g.isMarked x = k.isMarked x) (x : ObjId) : g.cell? x = k.cell? x := by
  have objects : g.get? x = k.get? x := (first.objects x).trans (second.objects x).symm
  have marks := same x
  simp only [get?, isMarked] at objects marks
  cases left : g.cell? x with
  | none =>
      rw [left] at objects
      exact (Option.map_eq_none_iff.mp objects.symm).symm
  | some c =>
      rw [left] at objects marks
      obtain ⟨d, right, object⟩ := Option.map_eq_some_iff.mp objects.symm
      rw [right] at marks ⊢
      cases c
      cases d
      simp_all

/-- Marks are all that can tell two remarked heaps apart. -/
theorem eq_of_isMarked (first : h.Remarked g) (second : h.Remarked k)
    (same : ∀ x, g.isMarked x = k.isMarked x) : g = k := by
  have slots : g.slots = k.slots := by
    have size := first.size.trans second.size.symm
    refine Array.ext size fun i inside inside' => ?_
    have cells := first.cell?_eq second same ⟨i⟩
    simpa [cell?, inside, inside'] using cells
  rw [first.eq_with_slots, second.eq_with_slots, slots]

end Remarked

namespace Marks

theorem remarked (marks : h.Marks work g) : h.Remarked g := by
  induction marks with
  | done h => exact .refl h
  | dead _ _ ih => exact ih
  | marked _ _ _ ih => exact ih
  | enter found _ _ _ ih => exact ih.setMark found

/-- Nothing is marked that the roots do not reach. -/
theorem sound (marks : h.Marks work g) (same : ∀ x, h.get? x = k.get? x)
    (before : ∀ x, h.isMarked x = true → Reachable k roots x)
    (ahead : ∀ y ∈ work, ∀ o, k.get? y = some o → Reachable k roots y) :
    ∀ x, g.isMarked x = true → Reachable k roots x := by
  induction marks with
  | done => exact before
  | dead _ _ ih => exact ih same before fun y member => ahead y (List.mem_cons_of_mem _ member)
  | marked _ _ _ ih => exact ih same before fun y member => ahead y (List.mem_cons_of_mem _ member)
  | @enter h g id work children c found unmarked order _ ih =>
      have live : k.get? id = some c.object := by
        rw [← same]
        exact get?_eq_some.mpr ⟨c, found, rfl⟩
      have reached : Reachable k roots id := ahead id List.mem_cons_self c.object live
      apply ih
      · intro x
        rw [get?_setMark]
        exact same x
      · intro x marked
        by_cases here : x = id
        · rwa [here]
        · rw [isMarked_setMark_of_ne here] at marked
          exact before x marked
      · intro y member o alive
        rcases List.mem_append.mp member with child | later
        · exact .step reached live (order.mem_iff.mp child) alive
        · exact ahead y (List.mem_cons_of_mem _ later) o alive

/-- What is on the stack and live gets a mark. -/
theorem isMarked_of_mem (marks : h.Marks work g) (member : x ∈ work) (live : (h.get? x).isSome) :
    g.isMarked x = true := by
  induction marks with
  | done => cases member
  | dead dead _ ih =>
      have none := get?_eq_none.mpr dead
      rcases List.mem_cons.mp member with rfl | later
      · simp [none] at live
      · exact ih later live
  | marked found marked onward ih =>
      rcases List.mem_cons.mp member with rfl | later
      · exact onward.remarked.grows _ ((isMarked_eq_of_cell? found).trans marked)
      · exact ih later live
  | enter found _ _ onward ih =>
      rcases List.mem_cons.mp member with rfl | later
      · exact onward.remarked.grows _ (isMarked_setMark_self found)
      · exact ih (List.mem_append_right _ later) (by rwa [get?_setMark])

end Marks

/-- What a marked object refers to is marked, dead, or still to come. -/
def ClosedUpTo (h : Heap) (work : List ObjId) : Prop :=
  ∀ x o, h.isMarked x = true → h.get? x = some o → ∀ y ∈ o.references, (h.get? y).isSome →
    h.isMarked y = true ∨ y ∈ work

theorem ClosedUpTo.enter {children : List ObjId} (closed : h.ClosedUpTo (id :: work))
    (found : h.cell? id = some c) (order : children.Perm c.object.references) :
    (h.setMark id).ClosedUpTo (children ++ work) := by
  intro x o marked live y ref alive
  rw [get?_setMark] at live alive
  by_cases here : x = id
  · subst here
    have same := live.symm.trans (get?_eq_some.mpr ⟨c, found, rfl⟩)
    cases same
    exact .inr (List.mem_append_left _ (order.mem_iff.mpr ref))
  · rw [isMarked_setMark_of_ne here] at marked
    by_cases there : y = id
    · rw [there]
      exact .inl (isMarked_setMark_self found)
    · rw [isMarked_setMark_of_ne there]
      rcases closed x o marked live y ref alive with before | coming
      · exact .inl before
      · exact .inr (List.mem_append_right _ ((List.mem_cons.mp coming).resolve_left there))

/-- An id with which nothing is to be done can be passed over. -/
theorem ClosedUpTo.pass (closed : h.ClosedUpTo (id :: work))
    (idle : (h.get? id).isSome → h.isMarked id = true) : h.ClosedUpTo work := by
  intro x o marked live y ref alive
  rcases closed x o marked live y ref alive with before | coming
  · exact .inl before
  · rcases List.mem_cons.mp coming with rfl | later
    · exact .inl (idle alive)
    · exact .inr later

namespace Marks

theorem closed (marks : h.Marks work g) (closed : h.ClosedUpTo work) : g.ClosedUpTo [] := by
  induction marks with
  | done => exact closed
  | dead dead _ ih => exact ih (closed.pass (by simp [get?_eq_none.mpr dead]))
  | marked found marked _ ih =>
      exact ih (closed.pass fun _ => (isMarked_eq_of_cell? found).trans marked)
  | enter found _ order _ ih => exact ih (closed.enter found order)

/-- Where nothing was marked, exactly what the roots reach is marked in the end. -/
theorem isMarked (marks : h.Marks roots g) (unmarked : ∀ x, h.isMarked x = false) :
    g.isMarked x = true ↔ Reachable h roots x := by
  constructor
  · refine marks.sound (fun _ => rfl) ?_ (fun y member o live => .root member live) x
    intro y marked
    cases (unmarked y).symm.trans marked
  · intro reached
    have start : h.ClosedUpTo roots := by
      intro y o marked
      cases (unmarked y).symm.trans marked
    have objects := marks.remarked.objects
    induction reached with
    | root member live => exact marks.isMarked_of_mem member (Option.isSome_of_eq_some live)
    | step _ live ref alive ih =>
        have present : (g.get? _).isSome := Option.isSome_of_eq_some ((objects _).trans alive)
        exact (marks.closed start _ _ ih ((objects _).trans live) _ ref present).resolve_right nofun

end Marks

/-- It does not matter in which order the roots come, or how often. -/
theorem Reachable.mono (included : roots ⊆ others) (reached : Reachable h roots x) :
    Reachable h others x := by
  induction reached with
  | root member live => exact .root (included member) live
  | step _ live ref alive ih => exact .step ih live ref alive

/-- Nor does any other order. -/
theorem Marks.eq_mark (marks : h.Marks work g) (unmarked : ∀ x, h.isMarked x = false)
    (same : ∀ x, x ∈ work ↔ x ∈ others) : g = h.mark others := by
  have other := marks_mark h others
  refine marks.remarked.eq_of_isMarked other.remarked fun x => ?_
  rw [Bool.eq_iff_iff, marks.isMarked unmarked, other.isMarked unmarked]
  exact ⟨.mono fun x => (same x).mp, .mono fun x => (same x).mpr⟩

end GuestVM.Heap
