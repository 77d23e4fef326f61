import GuestVM.Proofs.Rows

/-! # Indices and their holders

In a sound registry every index that a machine holds has been given out, is held by no other machine
and is not among the free ones, so an index that is given out anew is nobody else's. -/
set_option autoImplicit false

namespace GuestVM

/-! ## The registry -/

structure Registry.Sound (r : Registry) : Prop where
  apart : ∀ h h' i, r.find h = some i → r.find h' = some i → h = h'
  given : ∀ h i, r.find h = some i → i ≠ 0 ∧ i < r.allocator.next ∧ i ∉ r.allocator.freed
  freed : ∀ i ∈ r.allocator.freed, i ≠ 0 ∧ i < r.allocator.next
  ascending : r.allocator.freed.Pairwise (· < ·)
  started : 0 < r.allocator.next

namespace IndexAllocator

variable {a : IndexAllocator}

/-- An index for a new holder is a fresh one or the smallest free one. -/
theorem allocate_cases (a : IndexAllocator) :
    a.allocate = (a.next, { a with next := a.next + 1 }) ∨
      ∃ i rest, a.freed = i :: rest ∧ a.allocate = (i, { a with freed := rest }) := by
  unfold allocate
  split
  case h_1 i rest free =>
      split
      · exact .inr ⟨i, rest, free, rfl⟩
      · exact .inl rfl
  case h_2 => exact .inl rfl

/-! ### Giving indices out -/

theorem next_le_allocate (a : IndexAllocator) : a.next ≤ a.allocate.2.next := by
  rcases a.allocate_cases with fresh | ⟨i, rest, free, same⟩
  · simp [fresh]
  · simp [same]

theorem allocate_lt_next (below : ∀ i ∈ a.freed, i < a.next) : a.allocate.1 < a.allocate.2.next := by
  rcases a.allocate_cases with fresh | ⟨i, rest, free, same⟩
  · simp [fresh]
  · rw [same]
    exact below i (free ▸ List.mem_cons_self)

theorem ascending_allocate (ascending : a.freed.Pairwise (· < ·)) :
    a.allocate.2.freed.Pairwise (· < ·) := by
  rcases a.allocate_cases with fresh | ⟨i, rest, free, same⟩
  · rwa [fresh]
  · rw [free] at ascending
    rw [same]
    exact (List.pairwise_cons.mp ascending).2

/-- What is free after an index has been given out was free before, and is another index. -/
theorem freed_allocate (ascending : a.freed.Pairwise (· < ·)) (below : ∀ i ∈ a.freed, i < a.next)
    {j : Nat} (member : j ∈ a.allocate.2.freed) : j ∈ a.freed ∧ j ≠ a.allocate.1 := by
  rcases a.allocate_cases with fresh | ⟨i, rest, free, same⟩
  · rw [fresh] at member ⊢
    exact ⟨member, Nat.ne_of_lt (below j member)⟩
  · rw [same] at member ⊢
    rw [free] at ascending
    have above := (List.pairwise_cons.mp ascending).1 j member
    exact ⟨free ▸ List.mem_cons_of_mem _ member, Nat.ne_of_gt above⟩

/-! ### Taking indices back -/

@[simp] theorem next_release (i : Nat) : (a.release i).next = a.next := by
  unfold release
  split <;> rfl

theorem freed_release {i j : Nat} (member : j ∈ (a.release i).freed) : j = i ∨ j ∈ a.freed := by
  unfold release at member
  split at member
  · exact mem_insertAscending.mp member
  · exact .inr member

theorem ascending_release (i : Nat) (ascending : a.freed.Pairwise (· < ·)) :
    (a.release i).freed.Pairwise (· < ·) := by
  unfold release
  split
  · exact pairwise_insertAscending ascending
  · exact ascending

end IndexAllocator

namespace Registry

variable {r : Registry} {h other : Handle} {i : Nat}

theorem register_of_found (found : r.find h = some i) : r.register h = (i, r) := by
  unfold register
  rw [found]

theorem register_of_missing (missing : r.find h = none) :
    r.register h = (r.allocator.allocate.1,
      { allocator := r.allocator.allocate.2, rows := (h, r.allocator.allocate.1) :: r.rows }) := by
  unfold register
  rw [missing]
  simp only [enrol, missing]

theorem find_register_self : (r.register h).2.find h = some (r.register h).1 := by
  cases found : r.find h with
  | some i => rw [register_of_found found, found]
  | none =>
      rw [register_of_missing found]
      exact List.lookup_cons_self

theorem find_register_of_ne (apart : other ≠ h) : (r.register h).2.find other = r.find other := by
  cases found : r.find h with
  | some i => rw [register_of_found found]
  | none =>
      rw [register_of_missing found]
      have unlike : (other == h) = false := beq_false_of_ne apart
      simp only [find, List.lookup_cons, unlike]

theorem unregister_of_found (found : r.find h = some i) :
    r.unregister h = (some i, Registry.release { r with rows := r.rows.filter (·.1 != h) } i) := by
  simp [unregister, withdraw, found]

theorem find_unregister_self : (r.unregister h).2.find h = none := by
  cases found : r.find h with
  | some i =>
      rw [unregister_of_found found]
      exact lookup_without_self r.rows h
  | none =>
      simp only [unregister, withdraw, found]
      exact lookup_without_self r.rows h

theorem find_unregister_of_ne (apart : other ≠ h) :
    (r.unregister h).2.find other = r.find other := by
  cases found : r.find h with
  | some i =>
      rw [unregister_of_found found]
      exact lookup_without_of_ne r.rows apart
  | none =>
      simp only [unregister, withdraw, found]
      exact lookup_without_of_ne r.rows apart

/-- Who has an index after a registration had it before, or has just got it. -/
theorem find_of_register (missing : r.find h = none) {x : Handle} {j : Nat}
    (held : (r.register h).2.find x = some j) :
    (x = h ∧ j = r.allocator.allocate.1) ∨ r.find x = some j := by
  by_cases same : x = h
  · subst same
    rw [find_register_self, register_of_missing missing] at held
    exact .inl ⟨rfl, (Option.some.inj held).symm⟩
  · rw [find_register_of_ne same] at held
    exact .inr held

theorem find_of_unregister {x : Handle} {j : Nat} (held : (r.unregister h).2.find x = some j) :
    x ≠ h ∧ r.find x = some j := by
  have apart : x ≠ h := by
    intro same
    rw [same, find_unregister_self] at held
    cases held
  exact ⟨apart, (find_unregister_of_ne apart).symm.trans held⟩

theorem unregister_of_missing (missing : r.find h = none) :
    (r.unregister h).2.allocator = r.allocator := by
  simp [Registry.unregister, withdraw, missing]

namespace Sound

theorem empty : Sound {} where
  apart := by
    intro h h' i impossible
    cases impossible
  given := by
    intro h i impossible
    cases impossible
  freed := by
    intro i impossible
    cases impossible
  ascending := List.Pairwise.nil
  started := Nat.one_pos

theorem allocate_unheld (sound : r.Sound) : r.find other ≠ some r.allocator.allocate.1 := by
  intro held
  obtain ⟨-, below, unfree⟩ := sound.given other _ held
  rcases r.allocator.allocate_cases with fresh | ⟨i, rest, free, same⟩
  · rw [fresh] at below
    exact Nat.lt_irrefl _ below
  · rw [same, free] at unfree
    exact unfree List.mem_cons_self

theorem allocate_ne_zero (sound : r.Sound) : r.allocator.allocate.1 ≠ 0 := by
  rcases r.allocator.allocate_cases with fresh | ⟨i, rest, free, same⟩
  · rw [fresh]
    exact Nat.ne_of_gt sound.started
  · rw [same]
    exact (sound.freed i (free ▸ List.mem_cons_self)).1

theorem register (sound : r.Sound) (h : Handle) : (r.register h).2.Sound := by
  cases found : r.find h with
  | some i => rwa [register_of_found found]
  | none =>
      have allocated : (r.register h).2.allocator = r.allocator.allocate.2 := by
        rw [register_of_missing found]
      have below : ∀ i ∈ r.allocator.freed, i < r.allocator.next :=
        fun i free => (sound.freed i free).2
      have freed : ∀ j ∈ r.allocator.allocate.2.freed,
          j ∈ r.allocator.freed ∧ j ≠ r.allocator.allocate.1 :=
        fun j free => IndexAllocator.freed_allocate sound.ascending below free
      have next := r.allocator.next_le_allocate
      constructor
      · intro x y j first second
        rcases find_of_register found first with ⟨rfl, rfl⟩ | old
        · rcases find_of_register found second with ⟨rfl, -⟩ | held
          · rfl
          · exact (sound.allocate_unheld held).elim
        · rcases find_of_register found second with ⟨rfl, rfl⟩ | held
          · exact (sound.allocate_unheld old).elim
          · exact sound.apart x y j old held
      · intro x j held
        rw [allocated]
        rcases find_of_register found held with ⟨rfl, rfl⟩ | old
        · have within := IndexAllocator.allocate_lt_next below
          exact ⟨sound.allocate_ne_zero, within, fun free => (freed _ free).2 rfl⟩
        · obtain ⟨proper, inside, unfree⟩ := sound.given x j old
          exact ⟨proper, Nat.lt_of_lt_of_le inside next, fun free => unfree (freed j free).1⟩
      · intro j free
        rw [allocated] at free ⊢
        obtain ⟨proper, inside⟩ := sound.freed j (freed j free).1
        exact ⟨proper, Nat.lt_of_lt_of_le inside next⟩
      · rw [allocated]
        exact IndexAllocator.ascending_allocate sound.ascending
      · rw [allocated]
        exact Nat.lt_of_lt_of_le sound.started next

theorem unregister (sound : r.Sound) (h : Handle) : (r.unregister h).2.Sound := by
  have next : (r.unregister h).2.allocator.next = r.allocator.next := by
    cases found : r.find h with
    | none => rw [unregister_of_missing found]
    | some i =>
        rw [unregister_of_found found]
        exact IndexAllocator.next_release i
  have freed : ∀ j ∈ (r.unregister h).2.allocator.freed,
      j ∈ r.allocator.freed ∨ r.find h = some j := by
    intro j member
    cases found : r.find h with
    | none =>
        rw [unregister_of_missing found] at member
        exact .inl member
    | some i =>
        rw [unregister_of_found found] at member
        rcases IndexAllocator.freed_release member with same | old
        · exact .inr (same ▸ rfl)
        · exact .inl old
  constructor
  · intro x y j first second
    exact sound.apart x y j (find_of_unregister first).2 (find_of_unregister second).2
  · intro x j held
    obtain ⟨apart, held⟩ := find_of_unregister held
    obtain ⟨proper, below, unfree⟩ := sound.given x j held
    refine ⟨proper, next ▸ below, ?_⟩
    intro free
    rcases freed j free with old | own
    · exact unfree old
    · exact apart (sound.apart x h j held own)
  · intro j free
    rw [next]
    rcases freed j free with old | own
    · exact sound.freed j old
    · obtain ⟨proper, below, -⟩ := sound.given h j own
      exact ⟨proper, below⟩
  · cases found : r.find h with
    | none =>
        rw [unregister_of_missing found]
        exact sound.ascending
    | some i =>
        rw [unregister_of_found found]
        exact IndexAllocator.ascending_release i sound.ascending
  · rw [next]
    exact sound.started

end Sound

end Registry

end GuestVM
