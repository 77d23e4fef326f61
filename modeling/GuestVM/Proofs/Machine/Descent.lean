import GuestVM.Proofs.Machine.Closed
import GuestVM.Proofs.Machine.Naming

/-! # Superclass chains end

In a rooted machine a rank falls along every superclass chain, so a chain never comes back to where
it was and is no longer than there are slots.  Singleton classes have superclasses, so every value has
a class that is not passed over, and that class has a name.  Changes keep a machine rooted. -/
set_option autoImplicit false

namespace GuestVM

structure Machine.Rooted (m : Machine) : Prop where
  ranked : ∃ rank : ObjId → Nat, ∀ c p, m.superclass? c = some p → rank p < rank c
  singletons : ∀ c data v, m.classData? c = some data → data.kind = .singleton v →
    data.superclass.isSome

namespace Machine

/-- Every singleton class has a superclass. -/
def SingletonsBelow (m : Machine) : Prop :=
  ∀ c data v, m.classData? c = some data → data.kind = .singleton v → data.superclass.isSome

variable {m : Machine}

/-! ## Chains -/

theorem rank_le_of_mem_chain {rank : ObjId → Nat}
    (falls : ∀ c p, m.superclass? c = some p → rank p < rank c) (n : Nat) :
    ∀ c, ∀ d ∈ m.chain n c, rank d ≤ rank c := by
  induction n with
  | zero =>
      intro c d member
      cases member
  | succ n ih =>
      intro c d member
      rw [chain] at member
      rcases List.mem_cons.mp member with rfl | further
      · exact Nat.le_refl _
      · cases above : m.superclass? c with
        | none => simp [above] at further
        | some p =>
            simp only [above] at further
            have below := falls c p above
            have bound := ih p d further
            omega

theorem nodup_chain {rank : ObjId → Nat}
    (falls : ∀ c p, m.superclass? c = some p → rank p < rank c) (n : Nat) :
    ∀ c, (m.chain n c).Nodup := by
  induction n with
  | zero => exact fun _ => List.nodup_nil
  | succ n ih =>
      intro c
      rw [chain]
      cases above : m.superclass? c with
      | none => simp
      | some p =>
          refine List.nodup_cons.mpr ⟨?_, ih p⟩
          intro again
          have bound := rank_le_of_mem_chain falls n p c again
          have below := falls c p above
          omega

/-- A chain that does not end is as long as asked. -/
theorem length_chain (n : Nat) :
    ∀ c, (∀ d ∈ m.chain n c, (m.superclass? d).isSome) → (m.chain n c).length = n := by
  induction n with
  | zero => exact fun _ _ => rfl
  | succ n ih =>
      intro c onward
      rw [chain] at onward ⊢
      obtain ⟨p, above⟩ := Option.isSome_iff_exists.mp (onward c List.mem_cons_self)
      simp only [above] at onward ⊢
      rw [List.length_cons, ih p fun d member => onward d (List.mem_cons_of_mem _ member)]

theorem superclass?_of_isPassedOver {c : ObjId} (passed : m.isPassedOver c = true) :
    (m.superclass? c).isSome := by
  unfold isPassedOver at passed
  split at passed
  case h_1 found => simp [superclass?, found]
  case h_2 => cases passed

/-- The first class that is not passed over, if the lineage has one, has a name without end. -/
theorem realClassName_isSome_of_mem (singletons : m.SingletonsBelow) {v : Value}
    (real : ∃ d ∈ m.lineage (m.classOf v), m.isPassedOver d = false) :
    (m.realClassName v).isSome := by
  obtain ⟨d, member, ended⟩ := real
  obtain ⟨e, found⟩ : ∃ e, (m.lineage (m.classOf v)).find? (fun d => !m.isPassedOver d) = some e := by
    rw [← Option.isSome_iff_exists, List.find?_isSome]
    exact ⟨d, member, by simp [ended]⟩
  have passed : m.isPassedOver e = false := by simpa using List.find?_some found
  rw [realClassName, realClassOf?_of_find? found]
  change (m.className e).isSome = true
  rw [className]
  cases data : m.classData? e with
  | none => simp [classNameBy, data]
  | some c =>
      obtain ⟨name, superclass, kind, methods, consts⟩ := c
      cases kind with
      | singleton attached =>
          obtain ⟨p, above⟩ := Option.isSome_iff_exists.mp (singletons e _ attached data rfl)
          cases above
          simp [isPassedOver, data] at passed
      | _ => cases name <;> simp [classNameBy, data]

namespace Rooted

/-- There are fewer slots than a lineage without an end would have classes. -/
theorem exists_top (rooted : m.Rooted) (c : ObjId) : ∃ d ∈ m.lineage c, m.superclass? d = none := by
  obtain ⟨rank, falls⟩ := rooted.ranked
  by_contra none
  have onward : ∀ d ∈ m.lineage c, (m.superclass? d).isSome := by
    intro d member
    by_contra ended
    exact none ⟨d, member, by simpa using ended⟩
  have long : (m.lineage c).length = m.heap.slots.size + 1 := length_chain _ c onward
  have short := length_le_size (nodup_chain falls _ c) fun d inside =>
    live_of_superclass? (onward d inside)
  rw [← lineage, long] at short
  omega

theorem exists_not_passedOver (rooted : m.Rooted) (c : ObjId) :
    ∃ d ∈ m.lineage c, m.isPassedOver d = false := by
  obtain ⟨d, member, ends⟩ := rooted.exists_top c
  refine ⟨d, member, ?_⟩
  by_contra passed
  have above := superclass?_of_isPassedOver (by simpa using passed)
  rw [ends] at above
  cases above

theorem realClassName_isSome (rooted : m.Rooted) (v : Value) : (m.realClassName v).isSome :=
  realClassName_isSome_of_mem rooted.singletons (rooted.exists_not_passedOver _)

end Rooted

theorem Rooted.of_slots (rooted : m.Rooted) {m' : Machine} (slots : m'.heap.slots = m.heap.slots) :
    m'.Rooted := by
  have classes : ∀ c, m'.classData? c = m.classData? c := by
    intro c
    simp only [classData?, object?, Heap.get?, Heap.cell?, slots]
  have above : ∀ c, m'.superclass? c = m.superclass? c := by
    intro c
    simp only [superclass?, classes]
  obtain ⟨rank, falls⟩ := rooted.ranked
  exact ⟨⟨rank, fun c p parent => falls c p ((above c).symm.trans parent)⟩,
    fun c data v found => rooted.singletons c data v ((classes c).symm.trans found)⟩

/-! ## New machines -/

theorem rooted_of_original (original : m.Original) : m.Rooted := by
  have classes : ∀ c data, m.classData? c = some data →
      (∀ p ∈ data.superclass, p.slot < c.slot) ∧
        (data.superclass.isSome ∨ data.kind = .plain ∨ data.kind = .module) := by
    intro c data found
    obtain ⟨o, present, body⟩ := classData?_eq_some.mp found
    have shape := (original.objects c o present).2
    rw [body] at shape
    exact shape
  constructor
  · refine ⟨ObjId.slot, ?_⟩
    intro c p above
    obtain ⟨data, found, superclass⟩ := superclass?_eq_some.mp above
    exact (classes c data found).1 p superclass
  · intro c data v found kind
    rcases (classes c data found).2 with some | plain | module
    · exact some
    · rw [kind] at plain
      cases plain
    · rw [kind] at module
      cases module

end Machine

/-! ## Changes -/

namespace Touch

variable {g : Grant} {m : Machine} {id : ObjId} {o o' : Object} {data' : ClassData}

theorem class_before (how : Touch g m id o o') (body : o'.body = .class data') :
    ∃ data, o.body = .class data ∧ data.superclass = data'.superclass ∧
      data.kind = data'.kind := by
  cases how with
  | const c s v was =>
      cases body
      exact ⟨c, was, rfl, rfl⟩
  | method c s method was =>
      cases body
      exact ⟨c, was, rfl, rfl⟩
  | unmethod c s was =>
      cases body
      exact ⟨c, was, rfl, rfl⟩
  | edit e =>
      cases e with
      | thaw => exact ⟨data', body, rfl, rfl⟩
      | _ => cases body
  | freeze => exact ⟨data', body, rfl, rfl⟩
  | ivar => exact ⟨data', body, rfl, rfl⟩
  | reclass => exact ⟨data', body, rfl, rfl⟩
  | _ => cases body

end Touch

namespace Change

variable {g : Grant} {m m' : Machine} {x : ObjId}

theorem classData?_before (change : Change g m m') (tidy : m.heap.Tidy) (live : m.Live x)
    {data' : ClassData} (after : m'.classData? x = some data') :
    ∃ data, m.classData? x = some data ∧ data.superclass = data'.superclass ∧
      data.kind = data'.kind := by
  obtain ⟨o', present, body⟩ := Machine.classData?_eq_some.mp after
  rcases change.object?_before tidy present with same | ⟨o, before, how, -⟩ |
    ⟨o, p, env, -, -, -, -, rfl⟩ | ⟨dead, -⟩
  · exact ⟨data', Machine.classData?_eq_some.mpr ⟨o', same, body⟩, rfl, rfl⟩
  · obtain ⟨data, was, superclass, kind⟩ := how.class_before body
    exact ⟨data, Machine.classData?_eq_some.mpr ⟨o, before, was⟩, superclass, kind⟩
  · cases body
  · obtain ⟨o, before⟩ := live.object?
    rw [dead] at before
    cases before

/-- What an object that was not there before names, and what classes it may be. -/
theorem born (change : Change g m m') (tidy : m.heap.Tidy) (dead : m.object? x = none)
    {o' : Object} (after : m'.object? x = some o') :
    (∀ y ∈ o'.references, m.Known g y) ∧ o'.Founded g m := by
  have absent : ∀ {p}, m.object? x = some p → False := by
    intro p present
    rw [dead] at present
    cases present
  cases change with
  | alloc o born known founded =>
      rw [Machine.object?_withNew tidy] at after
      split at after
      · cases after
        exact ⟨known, founded⟩
      · exact (absent after).elim
  | touch id o _ live =>
      rcases Machine.object?_of_put after with ⟨rfl, -⟩ | before
      · exact (absent live).elim
      · exact (absent before).elim
  | attach id o p values live body bare known =>
      rcases Machine.object?_of_put after with ⟨rfl, -⟩ | before
      · exact (absent live).elim
      · rw [Machine.object?_withNew tidy] at before
        split at before
        · cases before
          refine ⟨fun y named => ?_, nofun⟩
          rcases List.mem_cons.mp named with rfl | inside
          · exact .builtin .object
          · exact known y (by simpa [Object.env, Body.references, SymMap.values,
              Value.objects] using inside)
        · exact (absent before).elim
  | collect => exact (absent (Heap.get?_of_get?_collect after)).elim
  | _ => exact (absent after).elim

theorem singletonsBelow (change : Change g m m') (tidy : m.heap.Tidy)
    (singletons : m.SingletonsBelow) : m'.SingletonsBelow := by
  intro c data' v found kind
  by_cases live : m.Live c
  · obtain ⟨data, before, superclass, sameKind⟩ := change.classData?_before tidy live found
    rw [← superclass]
    exact singletons c data v before (sameKind.trans kind)
  · obtain ⟨o', present, body⟩ := Machine.classData?_eq_some.mp found
    rcases change.object?_before tidy present with same | ⟨o, before, -⟩ |
      ⟨o, p, env, before, -, -, -, -⟩ | ⟨-, newborn⟩
    · exact (live (.of_object? same)).elim
    · exact (live (.of_object? before)).elim
    · exact (live (.of_object? before)).elim
    · have shape := newborn.2.2
      rw [body] at shape
      exact shape.2.2 v kind

theorem rooted (change : Change g m m') (tidy : m.heap.Tidy) (closed : m.Closed)
    (handed : ∀ y ∈ g.ids, m.Live y) (rooted : m.Rooted) : m'.Rooted := by
  constructor
  · obtain ⟨rank, falls⟩ := rooted.ranked
    -- A new class ranks just above its superclass, which was there before it.
    refine ⟨fun c => if m.Live c then rank c else ((m'.superclass? c).map rank).getD 0 + 1, ?_⟩
    intro c p above
    obtain ⟨data', found, superclass⟩ := Machine.superclass?_eq_some.mp above
    by_cases live : m.Live c
    · obtain ⟨data, before, same, -⟩ := change.classData?_before tidy live found
      have parent : m.superclass? c = some p :=
        Machine.superclass?_eq_some.mpr ⟨data, before, same.trans superclass⟩
      have parentLive : m.Live p := closed p
        (Machine.holds_of_classData? before (ClassData.mem_references.mpr
          (.inl (same.trans superclass))))
      simpa [live, parentLive] using falls c p parent
    · obtain ⟨o', present, body⟩ := Machine.classData?_eq_some.mp found
      have dead : m.object? c = none := by simpa [Machine.Live] using live
      have parentLive : m.Live p := by
        refine closed.live_of_known handed ((change.born tidy dead present).1 p ?_)
        apply Object.mem_references_of_body
        rw [body]
        exact ClassData.mem_references.mpr (.inl superclass)
      simp [live, parentLive, above]
  · exact change.singletonsBelow tidy rooted.singletons

end Change

theorem Evolution.rooted {g : Grant} {m m' : Machine} (evolution : Evolution g m m')
    (tidy : m.heap.Tidy) (handed : ∀ y ∈ g.ids, m.Live y) (closed : m.Closed) (rooted : m.Rooted) :
    m'.Closed ∧ m'.Rooted :=
  (evolution.preserves (P := fun m => m.Closed ∧ m.Rooted)
    (fun _ _ change tidy handed both =>
      ⟨change.closed tidy handed both.1, change.rooted tidy both.1 handed both.2⟩)
    tidy handed ⟨closed, rooted⟩).1

end GuestVM
