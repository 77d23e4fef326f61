import GuestVM.Proofs.Machine.Descent
import GuestVM.Proofs.Machine.Sparing

/-! # Raising comes to an end

An exception is raised with the name of its class, which is the name of the first class on its chain
that is not passed over.  Where there is such a class, raising ends.  A rooted machine has one on
every chain.  Even where dead ids were handed over and chains may go in circles, built-in classes are
alive and no singleton classes (`Established`), so that what descends from one of them can be raised. -/
set_option autoImplicit false

namespace GuestVM

abbrev Object.exception (c : ObjId) (message : String) : Object :=
  { cls := c, body := .exception message }

namespace Machine

/-- What it takes to raise an exception of a class. -/
structure Raisable (m : Machine) (c : ObjId) : Prop where
  tidy : m.heap.Tidy
  singletons : m.SingletonsBelow
  real : ∃ d ∈ m.lineage c, m.isPassedOver d = false

/-- Built-in classes are alive, no singleton classes, and below no other classes than at first. -/
structure Established (m : Machine) : Prop where
  tidy : m.heap.Tidy
  singletons : m.SingletonsBelow
  builtin : ∀ b : Builtin, m.Live b.id ∧
    ∀ data v, m.classData? b.id = some data → data.kind ≠ .singleton v
  parents : ∀ (b : Builtin) p, m.superclass? b.id = some p → b.parent?.map (·.id) = some p

variable {m m' : Machine}

theorem Rooted.raisable (rooted : m.Rooted) (tidy : m.heap.Tidy) (c : ObjId) : m.Raisable c :=
  ⟨tidy, rooted.singletons, rooted.exists_not_passedOver c⟩

theorem mem_lineage_self (c : ObjId) : c ∈ m.lineage c := by
  rw [lineage, chain]
  exact List.mem_cons_self

/-! ## A machine after a raise

The new exception is no class, so chains are what they were, only that a longer walk is allowed where
a slot has been added. -/

theorem chain_prefix {n k : Nat} (less : n ≤ k) (c : ObjId) : m.chain n c <+: m.chain k c := by
  induction n generalizing k c with
  | zero => exact List.nil_prefix
  | succ n ih =>
      obtain ⟨k, rfl⟩ : ∃ j, k = j + 1 := ⟨k - 1, by omega⟩
      rw [chain, chain]
      cases m.superclass? c with
      | none => exact List.prefix_rfl
      | some p => exact List.cons_prefix_cons.mpr ⟨rfl, ih (by omega) p⟩

theorem chain_congr_parents (parents : ∀ x, m'.superclass? x = m.superclass? x) (n : Nat)
    (c : ObjId) : m'.chain n c = m.chain n c := by
  induction n generalizing c with
  | zero => rfl
  | succ n ih =>
      rw [chain, chain, parents]
      cases m.superclass? c with
      | none => rfl
      | some p => exact congrArg (c :: ·) (ih p)

theorem chain_congr_classes (same : ∀ x, m'.classData? x = m.classData? x) (n : Nat) (c : ObjId) :
    m'.chain n c = m.chain n c :=
  chain_congr_parents (fun x => by rw [superclass?, same, superclass?]) n c

section Raising

variable {c : ObjId} {message : String}

theorem classData?_raising (tidy : m.heap.Tidy) (x : ObjId) :
    (m.raising (.exception c message)).classData? x = m.classData? x := by
  have object : (m.raising (.exception c message)).object? x = _ :=
    object?_withNew tidy _ x
  by_cases new : x = m.newId (.exception c message)
  · rw [if_pos new] at object
    rw [classData?, object, classData?, new, newId_dead tidy]
  · rw [if_neg new] at object
    rw [classData?, object, classData?]

theorem isPassedOver_raising (tidy : m.heap.Tidy) (x : ObjId) :
    (m.raising (.exception c message)).isPassedOver x = m.isPassedOver x := by
  rw [isPassedOver, classData?_raising tidy, isPassedOver]

theorem size_le_alloc (h : Heap) (o : Object) : h.slots.size ≤ (h.alloc o).2.slots.size := by
  unfold Heap.alloc
  split <;> simp

theorem lineage_prefix_raising (tidy : m.heap.Tidy) (d : ObjId) :
    m.lineage d <+: (m.raising (.exception c message)).lineage d := by
  rw [lineage, lineage, chain_congr_classes (classData?_raising tidy)]
  exact chain_prefix (Nat.succ_le_succ (size_le_alloc m.heap _)) d

theorem classOf_raising (tidy : m.heap.Tidy) :
    (m.raising (.exception c message)).classOf (.obj (m.newId (.exception c message))) = c := by
  have object : (m.raising (.exception c message)).object? (m.newId (.exception c message)) = _ :=
    object?_withNew tidy _ _
  rw [if_pos rfl] at object
  simp [classOf, object]

theorem typeOf_raising (tidy : m.heap.Tidy) :
    (m.raising (.exception c message)).typeOf (.obj (m.newId (.exception c message))) =
      .exception :=
  typeOf_obj ((object?_withNew tidy _ _).trans (if_pos rfl))

theorem exceptionMessage_raising (tidy : m.heap.Tidy) :
    (m.raising (.exception c message)).exceptionMessage
      (.obj (m.newId (.exception c message))) = message := by
  have object : (m.raising (.exception c message)).object? (m.newId (.exception c message)) = _ :=
    (object?_withNew tidy _ _).trans (if_pos rfl)
  simp [exceptionMessage, body?, Value.asObj, object]

theorem isKindOf_raising (tidy : m.heap.Tidy) {d : ObjId} (descends : m.descendsFrom c d = true) :
    (m.raising (.exception c message)).isKindOf
      (.obj (m.newId (.exception c message))) d = true := by
  rw [isKindOf, classOf_raising tidy, descendsFrom_eq]
  rw [descendsFrom_eq] at descends
  simpa using (lineage_prefix_raising tidy c).subset (by simpa using descends)

/-- A class without the singleton classes below it. -/
def realClass (m : Machine) (c : ObjId) : ObjId :=
  ((m.lineage c).find? fun d => !m.isPassedOver d).getD c

theorem realClassOf_raising (raisable : m.Raisable c) :
    (m.raising (.exception c message)).realClassOf
      (.obj (m.newId (.exception c message))) = m.realClass c := by
  obtain ⟨d, member, real⟩ := raisable.real
  have tidy := raisable.tidy
  obtain ⟨e, found⟩ : ∃ e, (m.lineage c).find? (fun d => !m.isPassedOver d) = some e := by
    rw [← Option.isSome_iff_exists, List.find?_isSome]
    exact ⟨d, member, by simp [real]⟩
  have longer : _ <+: (m.raising (.exception c message)).lineage c := lineage_prefix_raising tidy c
  have still := longer.find?_eq_some found
  simp [realClassOf_eq, realClass, classOf_raising tidy, isPassedOver_raising tidy, found, still]

theorem Raisable.raising (raisable : m.Raisable c) :
    (m.raising (.exception c message)).realClassName
      (.obj (m.newId (.exception c message))) |>.isSome := by
  have tidy := raisable.tidy
  refine realClassName_isSome_of_mem ?_ ?_
  · intro d data v found
    rw [classData?_raising tidy] at found
    exact raisable.singletons d data v found
  · obtain ⟨d, member, real⟩ := raisable.real
    rw [classOf_raising tidy]
    exact ⟨d, (lineage_prefix_raising tidy c).subset member,
      (isPassedOver_raising tidy d).trans real⟩

end Raising

end Machine

/-! ## Raising -/

namespace Act

variable {α : Type} {m : Machine} {v : Value} {c : ObjId}

theorem run_exceptionRaise (typed : m.typeOf v = .exception)
    (named : (({ m with exc := v.asObj } : Machine).realClassName v).isSome) :
    ∃ e, (exceptionRaise v).run.run m = (.ok e, { m with exc := v.asObj }) ∧ e.value = v := by
  obtain ⟨name, named⟩ := Option.isSome_iff_exists.mp named
  refine ⟨⟨v, name, m.exceptionMessage v⟩, ?_, rfl⟩
  rw [run_exceptionRaise_of_exception typed, run_announce, named]
  rfl

theorem run_raise (raisable : m.Raisable c) (message : String) {o : Object}
    (made : o = .exception c message) :
    ∃ e, (raise c message).run.run m = (.ok e, m.raising o) ∧ e.value = .obj (m.newId o) := by
  have typed : (m.withNew o).typeOf (.obj (m.newId o)) = .exception := by
    rw [made]
    exact exception_new raisable.tidy c message
  obtain ⟨e, ran, value⟩ := run_exceptionRaise typed (made ▸ raisable.raising)
  have new : (exceptionNew c message).run.run m = (.ok (.obj (m.newId o)), m.withNew o) := by
    rw [made]
    rfl
  refine ⟨e, ?_, value⟩
  unfold raise
  rw [run_ok_bind new]
  exact ran

theorem run_fail_new {b : Builtin} (raisable : m.Raisable b.id) (message : String) :
    ∃ e, (fail b message : Act α).run.run m =
        (.error (.raised e), m.raising (.exception b.id message)) ∧
      e.value = .obj (m.newId (.exception b.id message)) := by
  obtain ⟨e, ran, value⟩ := run_raise raisable message rfl
  refine ⟨e, ?_, value⟩
  rw [fail, throwing, run_bind, ran]
  rfl

theorem run_fail {b : Builtin} (raisable : m.Raisable b.id) (message : String) :
    ∃ e m', (fail b message : Act α).run.run m = (.error (.raised e), m') := by
  obtain ⟨e, ran, -⟩ := run_fail_new raisable message
  exact ⟨e, _, ran⟩

theorem run_fail_bind {β : Type} (b : Builtin) (message : String) (rest : α → Act β) :
    (fail b message >>= rest).run.run m = (fail b message : Act β).run.run m := by
  simp only [fail, throwing, run_bind]
  rcases (raise b.id message).run.run m with ⟨e | e, m'⟩ <;> rfl

end Act

/-! ## Established machines -/

namespace Machine

variable {m : Machine}

theorem Established.not_passedOver (established : m.Established) (b : Builtin) :
    m.isPassedOver b.id = false := by
  by_contra passed
  rw [Bool.not_eq_false, isPassedOver] at passed
  split at passed
  case h_1 found => exact (established.builtin b).2 _ _ found rfl
  case h_2 => cases passed

theorem Established.realClass_builtin (established : m.Established) (b : Builtin) :
    m.realClass b.id = b.id := by
  rw [realClass, lineage, chain, List.find?_cons_of_pos]
  · rfl
  · simp [established.not_passedOver b]

theorem Established.raisable (established : m.Established) {c : ObjId} {b : Builtin}
    (descends : m.descendsFrom c b.id = true) : m.Raisable c :=
  ⟨established.tidy, established.singletons, b.id, by simpa [descendsFrom_eq] using descends,
    established.not_passedOver b⟩

theorem descendsFrom_self (c : ObjId) : m.descendsFrom c c = true := by
  simpa [descendsFrom_eq] using mem_lineage_self c

theorem Established.builtin_raisable (established : m.Established) (b : Builtin) : m.Raisable b.id :=
  established.raisable (descendsFrom_self b.id)

theorem slot_of_parent? {b d : Builtin} (parent : b.parent? = some d) : d.id.slot < b.id.slot := by
  have falls : ∀ b ∈ Builtin.all, ∀ d ∈ b.parent?, d.id.slot < b.id.slot := by decide
  exact falls b (by cases b <;> decide) d parent

/-- Searches that begin with a built-in class end. -/
theorem Established.ascent {β : Type} (established : m.Established) (ask : ObjId → Option β)
    (b : Builtin) : ∃ r, m.Ascent ask b.id r := by
  induction slot : b.id.slot using Nat.strongRecOn generalizing b with
  | ind n ih =>
      cases here : ask b.id with
      | some x => exact ⟨_, .found here⟩
      | none =>
          cases above : m.superclass? b.id with
          | none => exact ⟨_, .top here above⟩
          | some p =>
              obtain ⟨d, parent, rfl⟩ :=
                Option.map_eq_some_iff.mp (established.parents b p above)
              obtain ⟨r, rest⟩ := ih _ (slot ▸ slot_of_parent? parent) d rfl
              exact ⟨r, .up here above rest⟩

/-- Looked up in a sample, since the objects of new machines are the same in all of them. -/
theorem not_singleton_sample : ∀ b ∈ Builtin.all, ∀ data ∈ sample.classData? b.id,
    (match data.kind with | .singleton _ => true | _ => false) = false := by
  decide +kernel

theorem superclass?_sample : ∀ b ∈ Builtin.all, ∀ p ∈ sample.superclass? b.id,
    b.parent?.map (·.id) = some p := by
  decide +kernel

attribute [local irreducible] Machine.opened in
theorem established_opened (h : Handle) (config : Config) : (opened h config).Established where
  tidy := (original_opened h config).tidy
  singletons := (rooted_of_original (original_opened h config)).singletons
  builtin b := by
    refine ⟨(original_opened h config).roots _ (mem_roots.mpr (.inl ⟨b, rfl⟩)), ?_⟩
    intro data v found kind
    rw [opened_eq] at found
    have plain := not_singleton_sample b (by cases b <;> decide) data found
    rw [kind] at plain
    cases plain
  parents b p above := by
    rw [opened_eq] at above
    exact superclass?_sample b (by cases b <;> decide) p above

end Machine

section Changes

variable {g : Grant} {m m' : Machine}

/-- Roots are not collected. -/
theorem Change.live_root (change : Change g m m') (tidy : m.heap.Tidy) {x : ObjId}
    (root : x ∈ m.roots) (live : m.Live x) : m'.Live x := by
  cases change with
  | collect =>
      obtain ⟨o, present⟩ := live.object?
      exact .of_object? (Heap.get?_collect_of_root present (.inl root))
  | alloc o => exact Machine.live_withNew tidy o live
  | touch => exact Machine.live_put live
  | attach => exact Machine.live_put (Machine.live_withNew tidy _ live)
  | _ => exact live

theorem Change.established (change : Change g m m') (established : m.Established) :
    m'.Established where
  tidy := change.tidy established.tidy
  singletons := change.singletonsBelow established.tidy established.singletons
  builtin b := by
    obtain ⟨live, other⟩ := established.builtin b
    refine ⟨change.live_root established.tidy (Machine.mem_roots.mpr (.inl ⟨b, rfl⟩)) live, ?_⟩
    intro data' v found kind
    obtain ⟨data, before, -, same⟩ := change.classData?_before established.tidy live found
    exact other data v before (same.trans kind)
  parents b p above := by
    obtain ⟨data', found, superclass⟩ := Machine.superclass?_eq_some.mp above
    obtain ⟨data, before, same, -⟩ :=
      change.classData?_before established.tidy (established.builtin b).1 found
    exact established.parents b p
      (Machine.superclass?_eq_some.mpr ⟨data, before, same.trans superclass⟩)

theorem Evolution.established (evolution : Evolution g m m') (established : m.Established) :
    m'.Established := by
  induction evolution with
  | refl => exact established
  | tail _ change ih => exact change.established ih

end Changes

end GuestVM
