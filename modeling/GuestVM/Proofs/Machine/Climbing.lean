import GuestVM.Proofs.Bridge.Returning
import GuestVM.Proofs.Machine.Mirroring

/-! # Walks up superclass chains

In a rooted machine every superclass chain has an end (`WholeChain`), and hence every walk that asks
one class of a chain after the other.  So the machine's own climbs all come to something, and to what
is first on the lineage.  Making the singleton class of a class goes up the chain in the same way. -/
set_option autoImplicit false

namespace GuestVM

namespace Machine

/-- The superclass chain of a class, up to a class without superclass. -/
inductive WholeChain (m : Machine) : ObjId → List ObjId → Prop where
  | top {c : ObjId} (ends : m.superclass? c = none) : WholeChain m c [c]
  | up {c p : ObjId} {line : List ObjId} (above : m.superclass? c = some p)
      (rest : WholeChain m p line) : WholeChain m c (c :: line)

variable {m : Machine} {β : Type} {ask : ObjId → Option β} {c : ObjId} {line : List ObjId}

/-! ## Chains and walks end -/

theorem length_chain_le (n : Nat) : ∀ c, (m.chain n c).length ≤ n := by
  induction n with
  | zero => exact fun _ => Nat.le_refl _
  | succ n ih =>
      intro c
      rw [chain]
      cases m.superclass? c with
      | none => simp
      | some p => exact Nat.succ_le_succ (ih p)

theorem wholeChain_chain (n : Nat) :
    ∀ c, (∃ d ∈ m.chain n c, m.superclass? d = none) → m.WholeChain c (m.chain n c) := by
  induction n with
  | zero =>
      rintro c ⟨d, member, -⟩
      cases member
  | succ n ih =>
      rintro c ⟨d, member, ends⟩
      rw [chain] at member ⊢
      cases above : m.superclass? c with
      | none => exact .top above
      | some p =>
          simp only [above, List.mem_cons] at member
          rcases member with rfl | further
          · rw [ends] at above
            cases above
          · exact .up above (ih p ⟨d, further, ends⟩)

/-- The class that a search begins with may know the answer. -/
theorem ascent_here {b : β} {line : List ObjId} (here : ask c = some b) :
    m.Ascent ask c ((c :: line).findSome? ask) := by
  rw [List.findSome?_cons_of_isSome (by simp [here]), here]
  exact .found here

theorem WholeChain.ascent (whole : m.WholeChain c line) (ask : ObjId → Option β) :
    m.Ascent ask c (line.findSome? ask) := by
  induction whole with
  | @top c ends =>
      cases here : ask c with
      | some b => exact ascent_here here
      | none =>
          rw [List.findSome?_cons_of_isNone (by simp [here]), List.findSome?_nil]
          exact .top here ends
  | @up c p line above rest ih =>
      cases here : ask c with
      | some b => exact ascent_here here
      | none =>
          rw [List.findSome?_cons_of_isNone (by simp [here])]
          exact .up here above ih

/-- A walk goes the same way in another machine, where the classes of a kind that it keeps to have the
same superclasses and answers. -/
theorem Ascent.transfer {m' : Machine} {ask' : ObjId → Option β} {r : Option β} {kind : ObjId → Prop}
    (onward : ∀ d p, kind d → m.superclass? d = some p → kind p)
    (parents : ∀ d, kind d → m'.superclass? d = m.superclass? d)
    (answers : ∀ d, kind d → ask' d = ask d) (start : kind c) (walk : m.Ascent ask c r) :
    m'.Ascent ask' c r := by
  induction walk with
  | found here => exact .found ((answers _ start).trans here)
  | top missing ends =>
      exact .top ((answers _ start).trans missing) ((parents _ start).trans ends)
  | up missing above _ ih =>
      exact .up ((answers _ start).trans missing) ((parents _ start).trans above)
        (ih (onward _ _ start above))

theorem WholeChain.unique {other : List ObjId} (whole : m.WholeChain c line)
    (again : m.WholeChain c other) : line = other := by
  induction whole generalizing other with
  | top ends =>
      cases again with
      | top => rfl
      | up above => simp [ends] at above
  | up above _ ih =>
      cases again with
      | top ends => simp [ends] at above
      | up same rest =>
          cases above.symm.trans same
          exact congrArg _ (ih rest)

theorem wellFounded_superclass (rooted : m.Rooted) : WellFounded m.Superclass := by
  obtain ⟨rank, falls⟩ := rooted.ranked
  exact Subrelation.wf (fun above => falls _ _ above) (measure rank).wf

theorem not_transGen_superclass (rooted : m.Rooted) (c : ObjId) :
    ¬ Relation.TransGen m.Superclass c c := by
  obtain ⟨rank, falls⟩ := rooted.ranked
  have below : ∀ d, Relation.TransGen m.Superclass d c → rank d < rank c := by
    intro d later
    induction later using Relation.TransGen.head_induction_on with
    | single above => exact falls _ _ above
    | head above _ ih => exact Nat.lt_trans (falls _ _ above) ih
  exact fun cycle => Nat.lt_irrefl _ (below c cycle)

theorem Rooted.wholeChain (rooted : m.Rooted) (c : ObjId) : m.WholeChain c (m.lineage c) :=
  wholeChain_chain _ c (rooted.exists_top c)

/-! ## What machines find -/

theorem Rooted.ascent (rooted : m.Rooted) (ask : ObjId → Option β) (c : ObjId) :
    m.Ascent ask c ((m.lineage c).findSome? ask) := (rooted.wholeChain c).ascent ask

theorem Rooted.climb (rooted : m.Rooted) (ask : ObjId → Option β) (c : ObjId) :
    m.climb ask c = some ((m.lineage c).findSome? ask) := (rooted.ascent ask c).climb

theorem Rooted.ascent_iff (rooted : m.Rooted) {ask : ObjId → Option β} {c : ObjId}
    {r : Option β} : m.Ascent ask c r ↔ (m.lineage c).findSome? ask = r :=
  ⟨(rooted.ascent ask c).unique, fun same => same ▸ rooted.ascent ask c⟩

theorem Rooted.findMethod?_eq (rooted : m.Rooted) (c : ObjId) (mid : Sym) :
    m.findMethod? c mid = some (m.findMethod c mid) :=
  (rooted.climb _ c).trans (congrArg some (findMethod_eq c mid).symm)

theorem Rooted.ascent_findMethod (rooted : m.Rooted) (c : ObjId) (mid : Sym) :
    m.Ascent (m.ownMethod? · mid) c (m.findMethod c mid) :=
  climb_eq_some_iff.mp (rooted.findMethod?_eq c mid)

theorem Rooted.respondTo_iff (rooted : m.Rooted) (v : Value) (name : String) :
    m.respondTo v name = true ↔ ∃ mid method, m.symbols.check name = some mid ∧
      m.Ascent (m.ownMethod? · mid) (m.classOf v) (some method) := by
  cases interned : m.symbols.check name with
  | none => simp [respondTo, respondTo?, interned]
  | some mid =>
      have climbs := rooted.findMethod?_eq (m.classOf v) mid
      simp only [Option.some.injEq, exists_and_left, exists_eq_left', ← climb_eq_some_iff,
        ← findMethod?.eq_1, climbs]
      rw [← Option.isSome_iff_exists, respondTo, respondTo?, interned]
      simp only [climbs, Option.map_some, Option.getD_some]

theorem Rooted.descendsFrom_iff (rooted : m.Rooted) (c ancestor : ObjId) :
    m.descendsFrom c ancestor = true ↔ m.Ascent (sameAt ancestor) c (some ()) := by
  rw [rooted.ascent_iff, descendsFrom_eq, contains_eq_findSome?]
  cases (m.lineage c).findSome? (sameAt ancestor) <;> simp

theorem Rooted.realClassOf?_eq (rooted : m.Rooted) (v : Value) :
    m.realClassOf? v = some (m.realClassOf v) := by
  rw [realClassOf, realClassOf?, rooted.climb]
  rfl

theorem ascent_realClassOf (rooted : m.Rooted) (v : Value) :
    m.Ascent m.realAt (m.classOf v) (some (m.realClassOf v)) := by
  obtain ⟨d, member, real⟩ := rooted.exists_not_passedOver (m.classOf v)
  obtain ⟨e, found⟩ : ∃ e, (m.lineage (m.classOf v)).find? (fun d => !m.isPassedOver d) = some e := by
    rw [← Option.isSome_iff_exists, List.find?_isSome]
    exact ⟨d, member, by simp [real]⟩
  rw [rooted.ascent_iff, findSome?_realAt, realClassOf_eq, found]
  rfl

theorem Rooted.lookupConst?_eq (rooted : m.Rooted) (c : ObjId) (name : String) :
    m.lookupConst? c name = some (m.lookupConst c name) := by
  rw [lookupConst, lookupConst?]
  split
  · rw [rooted.climb]
    rfl
  · rfl

theorem Rooted.lookupConst_iff (rooted : m.Rooted) (c : ObjId) (name : String) (v : Value) :
    m.lookupConst c name = some v ↔
      ∃ s r, m.symbols.check name = some s ∧ m.Ascent (m.constAt s) c r ∧
        r.getD (m.ownConst? Builtin.object.id s) = some v := by
  cases interned : m.symbols.check name with
  | none => simp [lookupConst, lookupConst?, interned]
  | some s =>
      have climbs := rooted.climb (m.constAt s) c
      simp only [rooted.ascent_iff, Option.some.injEq, exists_and_left, exists_eq_left',
        lookupConst, lookupConst?, interned, climbs, Option.map_some, Option.join_some]

theorem Rooted.findMethod_transfer {m' : Machine} (rooted : m.Rooted) (rooted' : m'.Rooted)
    (kind : ObjId → Prop) {mid : Sym} (onward : ∀ d p, kind d → m.superclass? d = some p → kind p)
    (parents : ∀ d, kind d → m'.superclass? d = m.superclass? d)
    (answers : ∀ d, kind d → m'.ownMethod? d mid = m.ownMethod? d mid) (start : kind c) :
    m'.findMethod c mid = m.findMethod c mid :=
  (rooted'.ascent_findMethod c mid).unique
    (.transfer onward parents answers start (rooted.ascent_findMethod c mid))

/-! ## Chains of live classes -/

/-- A chain that is shorter than asked is the whole chain. -/
theorem chain_succ (n : Nat) :
    ∀ c, (m.chain (n + 1) c).length ≤ n → m.chain n c = m.chain (n + 1) c := by
  induction n with
  | zero =>
      intro c short
      rw [chain] at short
      cases short
  | succ n ih =>
      intro c short
      rw [chain, chain]
      rw [chain] at short
      cases above : m.superclass? c with
      | none => rfl
      | some p =>
          simp only [above, List.length_cons, Nat.add_le_add_iff_right] at short
          exact congrArg (c :: ·) (ih p short)

theorem live_superclass {p : ObjId} (closed : m.Closed) (above : m.superclass? c = some p) :
    m.Live p := by
  obtain ⟨data, isClass, parent⟩ := superclass?_eq_some.mp above
  exact closed p (holds_of_classData? isClass (ClassData.mem_references.mpr (.inl parent)))

theorem live_of_mem_chain (closed : m.Closed) (n : Nat) :
    ∀ c, m.Live c → ∀ d ∈ m.chain n c, m.Live d := by
  induction n with
  | zero =>
      intro c live d member
      cases member
  | succ n ih =>
      intro c live d member
      rw [chain] at member
      rcases List.mem_cons.mp member with rfl | further
      · exact live
      · cases above : m.superclass? c with
        | none => simp [above] at further
        | some p =>
            simp only [above] at further
            exact ih p (live_superclass closed above) d further

/-- The lineage of a class goes on with that of its superclass. -/
theorem lineage_eq (closed : m.Closed) (rooted : m.Rooted) (live : m.Live c) :
    m.lineage c = c :: ((m.superclass? c).map m.lineage).getD [] := by
  obtain ⟨rank, falls⟩ := rooted.ranked
  let bound := m.heap.slots.size
  have short : (m.chain (bound + 2) c).length ≤ bound :=
    length_le_size (nodup_chain falls _ c) (live_of_mem_chain closed _ c live)
  rw [chain] at short
  rw [lineage, chain]
  cases above : m.superclass? c with
  | none => rfl
  | some p =>
      simp only [above, List.length_cons] at short
      have whole : (m.chain (bound + 1) p).length ≤ bound := by omega
      exact congrArg (c :: ·) (chain_succ bound p whole)

end Machine

/-! ## Actions that end -/

namespace Act

variable {α : Type} {m : Machine}

/-- The action comes to an end, with a result or with an exception. -/
def Ends (a : Act α) (m : Machine) : Prop := (a.run.run m).1 ≠ .error .endless

theorem ends_constGet (tidy : m.heap.Tidy) (rooted : m.Rooted) (c : ObjId) (name : String) :
    Ends (constGet c name) m := by
  unfold Ends constGet
  rw [run_get_bind, rooted.lookupConst?_eq]
  cases m.lookupConst c name with
  | some v =>
      intro ended
      cases ended
  | none =>
      obtain ⟨e, m', ran⟩ := run_fail (α := Value) (rooted.raisable tidy Builtin.nameError.id)
        ("uninitialized constant " ++ name)
      change ((fail .nameError ("uninitialized constant " ++ name) : Act Value).run.run m).1 ≠ _
      rw [ran]
      intro ended
      cases ended

/-- One level of the recursion: with levels enough for the superclass, one more is enough. -/
theorem run_singletonWithin_step (tidy : m.heap.Tidy) (rooted : m.Rooted)
    {c : ObjId} {levels : Nat}
    (above : ∀ p, m.superclass? c = some p → ∃ r m', r ≠ .error .endless ∧
      ∀ n, levels ≤ n → (singletonWithin n (.obj p)).run.run m = (r, m')) :
    ∃ r m', r ≠ .error .endless ∧
      ∀ n, levels + 1 ≤ n → (singletonWithin n (.obj c)).run.run m = (r, m') := by
  have enough : ∀ {r m'}, (∀ n, levels ≤ n → (singletonWithin (n + 1) (.obj c)).run.run m = (r, m')) →
      ∀ n, levels + 1 ≤ n → (singletonWithin n (.obj c)).run.run m = (r, m') := by
    intro r m' ran n bound
    obtain ⟨k, rfl⟩ : ∃ k, n = k + 1 := ⟨n - 1, by omega⟩
    exact ran k (by omega)
  cases present : m.object? c with
  | none =>
      obtain ⟨e, m', ran⟩ := run_fail (α := ObjId) (rooted.raisable tidy Builtin.typeError.id)
        "can't define singleton"
      refine ⟨.error (.raised e), m', by simp, enough fun n _ => ?_⟩
      rw [singletonWithin, run_get_bind]
      simp only [Value.asObj, Option.bind_some, present, Option.map_none]
      exact ran
  | some o =>
      by_cases own : isSingletonOf m o.cls (.obj c) = true
      · exact ⟨.ok _, _, by simp, enough fun n _ => run_singletonWithin_of_own present own n⟩
      by_cases parent : ∃ data p, m.classData? c = some data ∧ data.kind = .plain ∧
          data.superclass = some p
      · obtain ⟨data, p, isClass, plain, below⟩ := parent
        obtain ⟨r, m', proper, ran⟩ :=
          above p (Machine.superclass?_eq_some.mpr ⟨data, isClass, below⟩)
        have level := fun n bound =>
          (run_singletonWithin_of_parent present own isClass plain below n).trans
            (by rw [ran n bound])
        cases r with
        | ok s => exact ⟨.ok _, _, by simp, enough level⟩
        | error h => exact ⟨.error h, m', fun same => proper (by rw [same]), enough level⟩
      · have other : ∀ data p, m.classData? c = some data → data.kind = .plain →
            data.superclass ≠ some p :=
          fun data p isClass plain below => parent ⟨data, p, isClass, plain, below⟩
        exact ⟨.ok _, _, by simp, enough fun n _ => run_singletonWithin_of_rootless present own other n⟩

/-- Along the chain of a class: as many levels as the chain has classes are enough, and more change
nothing. -/
theorem run_singletonWithin (tidy : m.heap.Tidy) (rooted : m.Rooted) {c : ObjId} {line : List ObjId}
    (whole : m.WholeChain c line) :
    ∃ r m', r ≠ .error .endless ∧
      ∀ n, line.length ≤ n → (singletonWithin n (.obj c)).run.run m = (r, m') := by
  induction whole with
  | top ends =>
      refine run_singletonWithin_step tidy rooted fun p above => ?_
      simp [ends] at above
  | up above _ ih =>
      refine run_singletonWithin_step tidy rooted fun p same => ?_
      cases above.symm.trans same
      exact ih

/-- The levels a machine allows itself are enough. -/
theorem run_singletonClass (tidy : m.heap.Tidy) (rooted : m.Rooted) (v : Value) :
    Ends (singletonClass v) m ∧ ∀ n, m.heap.slots.size < n →
      (singletonWithin n v).run.run m = (singletonClass v).run.run m := by
  obtain ⟨r, m', proper, ran⟩ : ∃ r m', r ≠ .error .endless ∧
      ∀ n, m.heap.slots.size + 1 ≤ n → (singletonWithin n v).run.run m = (r, m') := by
    cases v with
    | obj c =>
        obtain ⟨r, m', proper, ran⟩ := run_singletonWithin tidy rooted (rooted.wholeChain c)
        exact ⟨r, m', proper, fun n more =>
          ran n (Nat.le_trans (Machine.length_chain_le _ c) more)⟩
    | _ =>
        obtain ⟨e, m', ran⟩ := run_fail (α := ObjId) (rooted.raisable tidy Builtin.typeError.id)
          "can't define singleton"
        refine ⟨.error (.raised e), m', nofun, fun n more => ?_⟩
        obtain ⟨k, rfl⟩ : ∃ k, n = k + 1 := ⟨n - 1, by omega⟩
        exact ran
  have own : (singletonClass v).run.run m = (r, m') := ran _ (Nat.le_refl _)
  refine ⟨?_, fun n more => (ran n more).trans own.symm⟩
  rw [Ends, own]
  exact proper

end Act

end GuestVM
