import GuestVM.Proofs.Machine.Opening

/-! # No dangling references

A machine is closed when every id that it names is the id of a live object.  Each change keeps a
machine closed while the ids handed over are live; for a collection this is so because what a
survivor names is reached as well. -/
set_option autoImplicit false

namespace GuestVM

def Machine.Closed (m : Machine) : Prop := ∀ x, m.Holds x → m.Live x

namespace Machine.Closed

variable {g : Grant} {m m' : Machine}

theorem live_of_known (closed : m.Closed) (handed : ∀ x ∈ g.ids, m.Live x) {x : ObjId}
    (known : m.Known g x) : m.Live x := by
  rcases known with given | live | held
  · exact handed x given
  · exact live
  · exact closed x held

theorem of_original (original : m.Original) : m.Closed := by
  intro x which
  obtain root | inArena | ⟨holder, o, present, named⟩ := which
  · exact original.roots x root
  · rw [← Array.mem_toList_iff, original.arena] at inArena
    cases inArena
  · exact (original.objects holder o present).1 x named

/-- Only globals, the current exception and the running calls have changed, and what is new in them
is live. -/
theorem of_roots (closed : m.Closed) (heap : m'.heap = m.heap) (top : m'.top = m.top)
    (globals : ∀ x ∈ Value.objects m'.globals.values,
      x ∈ Value.objects m.globals.values ∨ m.Live x)
    (exc : ∀ x, m'.exc = some x → m.exc = some x ∨ m.Live x)
    (frames : ∀ f ∈ m'.frames, f ∈ m.frames ∨ ∀ x ∈ f.references, m.Live x) : m'.Closed := by
  have same : ∀ x, m'.object? x = m.object? x := by
    intro x
    rw [Machine.object?, heap, Machine.object?]
  have live : ∀ x, m.Live x → m'.Live x := by
    intro x alive
    rw [Live, same]
    exact alive
  have held : ∀ x, x ∈ m.roots → m'.Live x := fun x root => live x (closed x (.inl root))
  intro x which
  obtain root | inArena | ⟨holder, o, present, named⟩ := which
  · rcases mem_roots.mp root with b | isTop | global | isExc | ⟨f, inside, named⟩
    · exact held x (mem_roots.mpr (.inl b))
    · exact held x (mem_roots.mpr (.inr (.inl (isTop.trans top))))
    · rcases globals x global with old | alive
      · exact held x (mem_roots.mpr (.inr (.inr (.inl old))))
      · exact live x alive
    · rcases exc x isExc with old | alive
      · exact held x (mem_roots.mpr (.inr (.inr (.inr (.inl old)))))
      · exact live x alive
    · rcases frames f inside with old | alive
      · exact held x (mem_roots.mpr (.inr (.inr (.inr (.inr ⟨f, old, named⟩)))))
      · exact live x (alive x named)
  · rw [heap] at inArena
    exact live x (closed x (.inr (.inl inArena)))
  · rw [same] at present
    exact live x (closed x (.inr (.inr ⟨holder, o, present, named⟩)))

/-- Only the arena has changed, and what is new on it is live. -/
theorem of_arena (closed : m.Closed) {heap : Heap} (slots : heap.slots = m.heap.slots)
    (arena : ∀ x ∈ heap.arena, x ∈ m.heap.arena ∨ m.Live x) :
    ({ m with heap := heap } : Machine).Closed := by
  have same : ∀ x, ({ m with heap := heap } : Machine).object? x = m.object? x := by
    intro x
    simp only [Machine.object?, Heap.get?, Heap.cell?, slots]
  have live : ∀ x, m.Live x → ({ m with heap := heap } : Machine).Live x := by
    intro x alive
    rw [Live, same]
    exact alive
  intro x which
  obtain root | inArena | ⟨holder, o, present, named⟩ := which
  · exact live x (closed x (.inl root))
  · rcases arena x inArena with old | alive
    · exact live x (closed x (.inr (.inl old)))
    · exact live x alive
  · rw [same] at present
    exact live x (closed x (.inr (.inr ⟨holder, o, present, named⟩)))

theorem withNew (closed : m.Closed) (tidy : m.heap.Tidy) {o : Object}
    (named : ∀ x ∈ o.references, m.Live x) : (m.withNew o).Closed := by
  have live : ∀ x, m.Live x → (m.withNew o).Live x := fun x alive => live_withNew tidy o alive
  intro x which
  obtain root | inArena | ⟨holder, p, present, inside⟩ := which
  · exact live x (closed x (.inl root))
  · have pushed : (m.withNew o).heap.arena = m.heap.arena.push (m.newId o) :=
      Heap.alloc_arena m.heap o
    rw [pushed] at inArena
    rcases Array.mem_push.mp inArena with old | rfl
    · exact live x (closed x (.inr (.inl old)))
    · exact live_newId tidy o
  · rw [object?_withNew tidy] at present
    split at present
    · cases present
      exact live x (named x inside)
    · exact live x (closed x (.inr (.inr ⟨holder, p, present, inside⟩)))

theorem put (closed : m.Closed) {id : ObjId} {o : Object}
    (named : ∀ x ∈ o.references, m.Live x) : (m.put id o).Closed := by
  have live : ∀ x, m.Live x → (m.put id o).Live x := fun x alive => live_put alive
  intro x which
  obtain root | inArena | ⟨holder, p, present, inside⟩ := which
  · exact live x (closed x (.inl root))
  · exact live x (closed x (.inr (.inl inArena)))
  · rcases object?_of_put present with ⟨-, rfl⟩ | old
    · exact live x (named x inside)
    · exact live x (closed x (.inr (.inr ⟨holder, p, old, inside⟩)))

/-- What a collection leaves names only what it leaves. -/
theorem collect (closed : m.Closed) (tidy : m.heap.Tidy) :
    ({ m with heap := (m.heap.collect m.roots).2 } : Machine).Closed := by
  intro x which
  obtain root | inArena | ⟨holder, o, present, named⟩ := which
  · obtain ⟨o, present⟩ := (closed x (.inl root)).object?
    exact .of_object? (Heap.get?_collect_of_root present (.inl root))
  · have inArena : x ∈ m.heap.arena := by
      rw [← Heap.collect_arena]
      exact inArena
    obtain ⟨o, present⟩ := (closed x (.inr (.inl inArena))).object?
    exact .of_object? (Heap.get?_collect_of_root present (.inr (Array.mem_toList_iff.mpr inArena)))
  · have before := Heap.get?_of_get?_collect present
    obtain ⟨p, alive⟩ := (closed x (.inr (.inr ⟨holder, o, before, named⟩))).object?
    exact .of_object? (Heap.get?_collect_of_reference tidy present named alive)

end Machine.Closed

namespace Change

variable {g : Grant} {m m' : Machine}

theorem closed (change : Change g m m') (tidy : m.heap.Tidy) (handed : ∀ x ∈ g.ids, m.Live x)
    (closed : m.Closed) : m'.Closed := by
  have alive : ∀ x, m.Known g x → m.Live x := fun x => closed.live_of_known handed
  cases change with
  | intern => exact closed.of_roots rfl rfl (fun _ => .inl) (fun _ => .inl) fun _ => .inl
  | alloc o born known => exact closed.withNew tidy fun x named => alive x (known x named)
  | touch id o o' live how known =>
      refine closed.put fun x named => ?_
      rcases known x named with old | given
      · exact closed x (Machine.holds_of_object? live old)
      · exact alive x given
  | attach id o p values live body bare known =>
      have fresh : (m.withNew (.env values)).Closed := by
        refine closed.withNew tidy fun x named => ?_
        rcases List.mem_cons.mp named with rfl | inside
        · exact closed _ (.inl (Machine.mem_roots.mpr (.inl ⟨.object, rfl⟩)))
        · exact alive x (known x (by simpa [Object.env, Body.references, SymMap.values,
            Value.objects] using inside))
      refine fresh.put fun x named => ?_
      rcases Object.mem_references_withBody named with old | new
      · exact Machine.live_withNew tidy _ (closed x (Machine.holds_of_object? live old))
      · simp only [ProcData.attached, Body.references, Option.toList_some, List.mem_append,
          List.mem_singleton] at new
        rcases new with rfl | target
        · exact Machine.live_newId tidy _
        · refine Machine.live_withNew tidy _ (closed x (Machine.holds_of_object? live ?_))
          refine Object.mem_references_of_body ?_
          rw [body]
          exact List.mem_append_right _ target
  | raise id o message live =>
      refine closed.of_roots rfl rfl (fun _ => .inl) ?_ fun _ => .inl
      intro x impossible
      cases impossible
      exact .inr (.of_object? live)
  | clear =>
      refine closed.of_roots rfl rfl (fun _ => .inl) ?_ fun _ => .inl
      intro id filled
      cases filled
  | bind s v known =>
      refine closed.of_roots rfl rfl ?_ (fun _ => .inl) fun _ => .inl
      intro x global
      rcases SymMap.mem_values_insert (Value.mem_objects.mp global) with given | old
      · exact .inr (alive x (known x given.symm))
      · exact .inl (Value.mem_objects.mpr old)
  | cutArena mark =>
      refine closed.of_arena rfl fun x inside => .inl ?_
      obtain ⟨i, bound, rfl⟩ := Array.mem_extract_iff_getElem.mp inside
      exact Array.getElem_mem _
  | pushArena id known =>
      refine closed.of_arena rfl fun x inside => ?_
      rcases Array.mem_push.mp inside with old | rfl
      · exact .inl old
      · exact .inr (alive x known)
  | collect => exact closed.collect tidy
  | setDisabled => exact closed.of_arena rfl fun x inside => .inl inside
  | setWalks => exact closed.of_arena rfl fun x inside => .inl inside
  | enter f p isProc room known =>
      refine closed.of_roots rfl rfl (fun _ => .inl) (fun _ => .inl) ?_
      intro frame inside
      rcases List.mem_cons.mp inside with rfl | old
      · exact .inr fun x named => alive x (known x named)
      · exact .inl old
  | unwind depth =>
      refine closed.of_roots rfl rfl (fun _ => .inl) (fun _ => .inl) ?_
      exact fun frame inside => .inl (List.mem_of_mem_drop inside)
  | setProtectDepth => exact closed.of_roots rfl rfl (fun _ => .inl) (fun _ => .inl) fun _ => .inl

end Change

end GuestVM
