import GuestVM.Proofs.Machine.Climbing

/-! # Classes come after what they are made for

A class is made after its superclass, and a singleton class after its object, too, and neither is
replaced later on.  So the singleton class of a class is not among the ancestors of that class
(`Ranked.not_mem_lineage`), and what gets into its tables is not found from the class itself. -/
set_option autoImplicit false

namespace GuestVM

/-- What a class is made for: its superclass and, if it is a singleton class, its object. -/
def ClassData.bases (data : ClassData) : List ObjId :=
  data.superclass.toList ++ match data.kind with
    | .singleton attached => attached.asObj.toList
    | _ => []

theorem ClassData.mem_references_of_bases {data : ClassData} {x : ObjId} (base : x ∈ data.bases) :
    x ∈ data.references := by
  rcases List.mem_append.mp base with parent | attached
  · exact mem_references.mpr (.inl (Option.mem_toList.mp parent))
  · split at attached
    case h_1 v kind =>
      cases v with
      | obj y =>
          obtain rfl : x = y := by simpa [Value.asObj] using attached
          exact mem_references.mpr (.inr (.inr (.inr kind)))
      | _ => cases attached
    case h_2 => cases attached

namespace Machine

def Ranked (m : Machine) : Prop :=
  ∃ rank : ObjId → Nat, ∀ c data, m.classData? c = some data → ∀ x ∈ data.bases, rank x < rank c

variable {m : Machine} {s x : ObjId}

theorem Ranked.not_mem_lineage (ranked : m.Ranked) (own : Act.isSingletonOf m s (.obj x) = true) :
    s ∉ m.lineage x := by
  obtain ⟨rank, falls⟩ := ranked
  have above : ∀ c p, m.superclass? c = some p → rank p < rank c := by
    intro c p parent
    obtain ⟨data, isClass, same⟩ := superclass?_eq_some.mp parent
    exact falls c data isClass p (List.mem_append_left _ (Option.mem_toList.mpr same))
  obtain ⟨p, shape⟩ := isSingletonOf_iff.mp own
  obtain ⟨data, isClass, kind, -⟩ := shape?_eq_some.mp shape
  have attached : rank x < rank s := by
    refine falls s data isClass x (List.mem_append_right _ ?_)
    rw [kind]
    exact List.mem_singleton_self x
  intro member
  have bound := rank_le_of_mem_chain above _ x s member
  omega

theorem ranked_sample : ∀ c ∈ sample.heap.liveIds, ∀ data ∈ (sample.classData? c).toList,
    ∀ x ∈ data.bases, x.slot < c.slot := by
  decide +kernel

theorem ranked_renamed (h : Handle) (config : Config) (ranked : m.Ranked) :
    (m.renamed h config).Ranked := ranked

theorem ranked_opened (h : Handle) (config : Config) : (opened h config).Ranked := by
  have sampled : sample.Ranked := by
    refine ⟨ObjId.slot, fun c data isClass x base => ?_⟩
    exact ranked_sample c (Heap.mem_liveIds.mpr (live_of_classData? isClass)) data
      (Option.mem_toList.mpr isClass) x base
  rw [opened_eq]
  exact ranked_renamed h config sampled

end Machine

section Changes

variable {g : Grant} {m m' : Machine}

theorem Change.ranked (change : Change g m m') (tidy : m.heap.Tidy) (closed : m.Closed)
    (handed : ∀ y ∈ g.ids, m.Live y) (ranked : m.Ranked) : m'.Ranked := by
  obtain ⟨rank, falls⟩ := ranked
  -- A new class ranks above all that it is made for, which was there before it.
  let above : ObjId → Nat := fun c =>
    (((m'.classData? c).map (·.bases.map rank)).getD []).max?.getD 0 + 1
  refine ⟨fun c => if m.Live c then rank c else above c, fun c data' found x base => ?_⟩
  by_cases live : m.Live c
  · obtain ⟨data, before, superclass, kind⟩ := change.classData?_before tidy live found
    have base : x ∈ data.bases := by
      rw [ClassData.bases, superclass, kind]
      exact base
    have baseLive : m.Live x := closed x
      (Machine.holds_of_classData? before (ClassData.mem_references_of_bases base))
    simpa [live, baseLive] using falls c data before x base
  · obtain ⟨o', present, body⟩ := Machine.classData?_eq_some.mp found
    have dead : m.object? c = none := by simpa [Machine.Live] using live
    have baseLive : m.Live x := by
      refine closed.live_of_known handed ((change.born tidy dead present).1 x ?_)
      apply Object.mem_references_of_body
      rw [body]
      exact ClassData.mem_references_of_bases base
    have bound : rank x ≤ (data'.bases.map rank).max?.getD 0 :=
      List.le_max?_getD_of_mem (List.mem_map_of_mem base)
    simpa [live, baseLive, above, found] using Nat.lt_succ_of_le bound

theorem Evolution.ranked (evolution : Evolution g m m') (tidy : m.heap.Tidy)
    (handed : ∀ y ∈ g.ids, m.Live y) (closed : m.Closed) (ranked : m.Ranked) :
    m'.Closed ∧ m'.Ranked :=
  (evolution.preserves (P := fun m => m.Closed ∧ m.Ranked)
    (fun _ _ change tidy handed both =>
      ⟨change.closed tidy handed both.1, change.ranked tidy both.1 handed both.2⟩)
    tidy handed ⟨closed, ranked⟩).1

end Changes

end GuestVM
