import GuestVM.Proofs.HashWalks

/-! # What a walk takes out of a hash

A visit may ask to have its entry taken out.  What the walk then takes out is whatever stands at the
place that it remembers.  That is the visited entry as long as nothing has been taken out of the hash
since the visit began; a visit that takes out entries itself moves others to that place, or past it. -/
set_option autoImplicit false

namespace GuestVM

/-! ## Rows and places -/

section Rows

variable {α β : Type}

/-- Rows without the one at a place are the rows without a key just if that key stands there, or if
neither is to be found. -/
theorem eraseIdx_eq_filter_iff [DecidableEq α] {rows : List (α × β)}
    (nodup : (rows.map (·.1)).Nodup) (k : α) (p : Nat) :
    rows.eraseIdx p = rows.filter (·.1 ≠ k) ↔
      (rows.map (·.1))[p]? = some k ∨ k ∉ rows.map (·.1) ∧ rows.length ≤ p := by
  induction rows generalizing p with
  | nil => simp
  | cons row rest ih =>
      obtain ⟨fresh, nodup⟩ := List.nodup_cons.mp nodup
      have absent : ∀ {others : List (α × β)}, others.Sublist rest → ∀ more, row :: more ≠ others := by
        rintro _ below more rfl
        exact fresh (List.mem_map_of_mem (below.subset (List.mem_cons_self ..)))
      by_cases here : row.1 = k
      · subst here
        rw [List.filter_cons_of_neg (by simp)]
        cases p with
        | zero =>
            have all : rest.filter (·.1 ≠ row.1) = rest := by
              refine List.filter_eq_self.mpr fun other member => decide_eq_true fun same => fresh ?_
              exact List.mem_map.mpr ⟨other, member, same⟩
            rw [all]
            simp
        | succ p =>
            refine iff_of_false (absent List.filter_sublist _) ?_
            rw [List.map_cons, List.getElem?_cons_succ]
            rintro (found | ⟨missing, -⟩)
            · exact fresh (List.mem_of_getElem? found)
            · exact missing (List.mem_cons_self ..)
      · rw [List.filter_cons_of_pos (by simpa using here)]
        cases p with
        | zero => simp [(absent (List.Sublist.refl rest) _).symm, here]
        | succ p =>
            simp only [List.eraseIdx_cons_succ, List.cons_inj_right, List.map_cons,
              List.getElem?_cons_succ, List.mem_cons, Ne.symm here, false_or, List.length_cons,
              Nat.add_le_add_iff_right]
            exact ih nodup p

end Rows

theorem Machine.table_removeEntry (m : Machine) (h : ObjId) (p : Nat) :
    (m.removeEntry (.obj h) p).table (.obj h) = (m.table (.obj h)).removeAt p := by
  change ({ m with heap := m.heap.modify h _ } : Machine).table (.obj h) = _
  simp only [table, body?, Value.asObj, Option.bind_eq_bind, Option.bind_some, object?_modify, if_pos]
  cases m.object? h with
  | none => rfl
  | some o =>
      obtain ⟨cls, frozen, ivars, body⟩ := o
      cases body <;> rfl

theorem Machine.AllCoherent.table {m : Machine} (all : m.AllCoherent) (h : ObjId) :
    (m.table (.obj h)).Coherent := by
  unfold Machine.table
  split
  case h_1 t found => exact all h t (hasTable_iff.mpr found)
  case h_2 => exact .empty

/-- What has a key is a hash. -/
theorem Machine.HasTable.of_key {m : Machine} {h : ObjId} {p : Nat} {k : HashKey}
    (noted : (m.table (.obj h)).keys[p]? = some k) : m.HasTable h (m.table (.obj h)) := by
  unfold Machine.table at noted ⊢
  split
  case h_1 t found => exact hasTable_iff.mpr found
  case h_2 other =>
      split at noted
      case h_1 t found => exact absurd found (other t)
      case h_2 => simp [HashTable.empty] at noted

theorem Machine.HasTable.atEntry {hook : Option Nat} {h : ObjId} {t : HashTable} {s : Stage}
    (has : s.machine.HasTable h t) (removing : Bool) (position n : Nat)
    (visit : Nat → Value → Value → Script) (next : Except Raised Nat → Script)
    (pending : List Pending) :
    (Scene.atEntry hook (.obj h) removing position n visit next pending s).stage.machine.HasTable h
      t := by
  unfold Scene.atEntry
  split <;> exact has.congr rfl

namespace Scene

variable {b : Scene} {hook : Option Nat} {hash : Value} {position n : Nat}
  {visit : Nat → Value → Value → Script} {next : Except Raised Nat → Script} {outer : List Pending}
  {o : Outcome} {r : Except Raised Value} {s t : Stage} {h : ObjId}

theorem table_atEntry (hash : Value) (removing : Bool) (x : Value) :
    (atEntry hook hash removing position n visit next outer s).stage.machine.table x =
      s.machine.table x := by
  unfold atEntry
  split <;> rfl

/-- What a visit that asks for its entry to be taken out leaves of the table. -/
theorem table_of_removal (told : s.surface o = some (r, t)) (asks : WalkStatus.ofResult r = .remove)
    (stepped :
      step ⟨.done o, .entry hook (.obj h) true position n visit next :: outer, s⟩ = some b) :
    b.stage.machine.table (.obj h) = (s.machine.table (.obj h)).removeAt position := by
  have same : t = s := by
    cases o with
    | value v =>
        cases told
        rfl
    | raised e =>
        cases told
        cases asks
    | failed e =>
        obtain ⟨_, _, same⟩ := Option.map_eq_some_iff.mp told
        cases same
        cases asks
  subst same
  rcases step_entry told stepped with ⟨-, keeps, -⟩ | ⟨-, rfl⟩ | ⟨stop, -⟩
  · exact absurd ⟨rfl, asks⟩ keeps
  · rw [table_atEntry]
    exact Machine.table_removeEntry _ h position
  · rw [asks] at stop
    cases stop

end Scene

namespace Situation

attribute [local irreducible] Machine.opened

variable {now ended after : Situation} {name : String} {h : ObjId} {outer : List Pending}
  {k : HashKey} {p n : Nat} {visit : Nat → Value → Value → Script}
  {next : Except Raised Nat → Script} {s t u : Stage} {o : Outcome} {r : Except Raised Value}
  {hook : Option Nat}

/-- The move takes nothing out of the hash. -/
def TakesNothing (name : String) (h : ObjId) (now : Situation) (move : Move) : Prop :=
  move = .act name → ∀ a, now.scene? name = some a → a.grant.drops ≠ some h

/-- A table loses what stands at a place.  That is the entry with a key and no other just if the key
stands there, or if there is no such key and nothing stands there. -/
structure LosesPlace (p : Nat) (k : HashKey) (t t' : HashTable) : Prop where
  lost : t'.view = t.view.eraseIdx p
  asked_iff : t'.view = t.view.filter (·.1 ≠ k) ↔
    t.keys[p]? = some k ∨ k ∉ t.keys.toList ∧ t.size ≤ p

theorem losesPlace_removeAt {table : HashTable} (coherent : table.Coherent) (p : Nat) (k : HashKey) :
    LosesPlace p k table (table.removeAt p) := by
  refine ⟨table.view_removeAt p, ?_⟩
  have nodup : (table.view.map (·.1)).Nodup := HashTable.map_view coherent ▸ coherent.nodup
  rw [HashTable.view_removeAt, eraseIdx_eq_filter_iff nodup, HashTable.map_view coherent,
    HashTable.length_view coherent, Array.getElem?_toList]

/-- As long as nothing is taken out of the hash its identities stay at their places. -/
theorem keys_stay {a b : Scene} {table : HashTable} (walk : Pending) (walks : walk.Walks)
    (run : Run Anything {} now) (shown : now.scene? name = some a)
    (has : a.stage.machine.HasTable h table)
    (onward : Run (Under (TakesNothing name h) name (walk :: outer)) now ended)
    (ends : ended.scene? name = some b) (waits : walk :: outer <:+ b.pending) :
    ∃ t', b.stage.machine.HasTable h t' ∧ table.keys.toList <+: t'.keys.toList := by
  refine (kept_shown
    (P := fun m => ∃ t', m.HasTable h t' ∧ table.keys.toList <+: t'.keys.toList)
    ?_ run shown ⟨table, has, List.prefix_rfl⟩ onward ends waits).2
  intro now a b run may shown lawful waits stepped _ holds
  obtain ⟨t', has, ahead⟩ := holds
  have walking := ((counts_of_run run name).walking_iff shown).mpr
    ⟨walk, waits.subset (List.mem_cons_self ..), walks⟩
  obtain ⟨t'', has', ahead'⟩ := Scene.step_keys_prefix stepped lawful (tidy_of_shown run shown)
    walking (may rfl a shown) (allCoherent_of_shown run shown) has
  exact ⟨t'', has', ahead.trans ahead'⟩

/-- A visit of a hash that was thawed when the walk began begins at an entry with a key and ends by
asking to have it taken out. -/
theorem removals_by_place (run : Run Anything {} now)
    (shown : now.scene? name = some (Scene.atEntry hook (.obj h) true p n visit next outer s))
    (noted : (s.machine.table (.obj h)).keys[p]? = some k)
    (onward : Run (Under Anything name (.entry hook (.obj h) true p n visit next :: outer)) now ended)
    (ends : ended.scene? name =
      some ⟨.done o, .entry hook (.obj h) true p n visit next :: outer, t⟩)
    (told : t.surface o = some (r, u)) (asks : WalkStatus.ofResult r = .remove)
    (goes : Next ended (.act name) after) :
    (∃ i, after.world.instance? name = some i ∧
        LosesPlace p k (t.machine.table (.obj h)) (i.machine.table (.obj h))) ∧
      (Run (Under (TakesNothing name h) name (.entry hook (.obj h) true p n visit next :: outer))
          now ended →
        (t.machine.table (.obj h)).keys[p]? = some k) := by
  have reached : Run Anything {} ended := run.trans (Run.mono (fun _ _ _ => trivial) onward)
  constructor
  · obtain ⟨i, b, -, -, stepped, rfl⟩ := goes.acted ends
    refine ⟨_, World.instance?_put_self _, ?_⟩
    change LosesPlace p k _ (b.stage.machine.table (.obj h))
    rw [Scene.table_of_removal told asks stepped]
    exact losesPlace_removeAt ((allCoherent_of_shown reached ends).table h) p k
  · intro careful
    have has : (Scene.atEntry hook (.obj h) true p n visit next outer s).stage.machine.HasTable h _ :=
      (Machine.HasTable.of_key noted).atEntry true p n visit next outer
    obtain ⟨t', has', rest, ahead⟩ :=
      keys_stay (.entry hook (.obj h) true p n visit next) trivial run shown has careful ends
        List.suffix_rfl
    rw [← Array.getElem?_toList] at noted
    rw [has'.table, ← Array.getElem?_toList, ← ahead,
      List.getElem?_append_left (List.getElem?_eq_some_iff.mp noted).1, noted]

/-! ## A visit that takes its entry out itself -/

theorem step_hashDelete {m : Machine} {t : HashTable} (key : Value)
    (present : m.object? h = some (.ofTable t)) (next : Except Raised (Option Value) → Script)
    (pending : List Pending) :
    Scene.step ⟨.guest (.hashDelete (.obj h) key) next, pending, { machine := m }⟩ =
      some ⟨next (.ok (t.erase (m.hashKey key)).1), pending,
        { machine := m.withTable h (t.erase (m.hashKey key)).2 }⟩ := by
  have typed : m.typeOf (.obj h) = .hash := Machine.typeOf_obj present
  have ran : (Act.hashDelete (.obj h) key).run.run m =
      (.ok (t.erase (m.hashKey key)).1, m.withTable h (t.erase (m.hashKey key)).2) := by
    unfold Act.hashDelete
    rw [Act.run_ok_bind (Act.run_expectType typed), Act.run_ok_bind (Act.run_checkFrozen present rfl),
      ← Machine.table_of_hash present rfl]
    rfl
  have attempted : (Act.answer (.hashDelete (.obj h) key)).run.run m =
      (.ok (.ok (t.erase (m.hashKey key)).1), m.withTable h (t.erase (m.hashKey key)).2) := by
    change (Act.attempt (Act.hashDelete (.obj h) key)).run.run m = _
    rw [Act.run_attempt, ran]
    rfl
  exact Scene.step_guest_of_run (s := { machine := m }) attempted next pending

/-- The visit takes out the entry of a key and then asks to have its own taken out. -/
def ousting (h : Value) (_ : Nat) (_ _ : Value) : Script :=
  .guest (.hashDelete h (.int 1)) fun _ => Script.ret (.int 2)

def oust (h : Value) : Script := .walkHash .direct h (ousting h) fun _ => Script.ret h

theorem steps_oust {m : Machine} (present : m.object? h = some (.ofTable pairTable)) :
    let next : Except Raised Nat → Script := fun _ => Script.ret (.obj h)
    let walk : Pending := .entry none (.obj h) true 0 0 (ousting (.obj h)) next
    ∃ (m₁ m₂ : Machine) (b : Scene),
      Scene.step ⟨oust (.obj h), [], { machine := m }⟩ =
        some (Scene.atEntry none (.obj h) true 0 0 (ousting (.obj h)) next [] { machine := m₁ }) ∧
      m₁.table (.obj h) = pairTable ∧
      (Scene.atEntry none (.obj h) true 0 0 (ousting (.obj h)) next []
        { machine := m₁ }).pending = [walk] ∧
      (Scene.atEntry none (.obj h) true 0 0 (ousting (.obj h)) next [] { machine := m₁ }).Lawful ∧
      (Scene.atEntry none (.obj h) true 0 0 (ousting (.obj h)) next [] { machine := m₁ }).step =
        some ⟨Script.ret (.int 2), [walk], { machine := m₂ }⟩ ∧
      m₂.table (.obj h) = pairTable.removeAt 0 ∧
      Scene.step ⟨Script.ret (.int 2), [walk], { machine := m₂ }⟩ = some b := by
  intro next walk
  have started := step_walkHash (s := { machine := m }) present .direct (ousting (.obj h)) next []
  have present₁ : m.beginWalk.object? h = some (.ofTable pairTable) := present
  change _ = some (Scene.atEntry none (.obj h) true 0 0 (ousting (.obj h)) next []
    { machine := m.beginWalk }) at started
  generalize m.beginWalk = m₁ at started present₁
  have there : pairTable.entryAt? 0 = some (.int 1, .int 2) := rfl
  have unhooked : (Stage.mk m₁ {} {}).memory.Calls .hash none := by
    rintro address ⟨⟩
  have deleted := step_hashDelete (.int 1) present₁ (fun _ => Script.ret (.int 2)) [walk]
  have left : (m₁.withTable h (pairTable.removeAt 0)).object? h =
      some (.ofTable (pairTable.removeAt 0)) := Machine.object?_withTable present₁ _
  have visiting := atEntry_of_object? (s := { machine := m₁ }) (n := 0) unhooked present₁ there
    (ousting (.obj h)) next
  refine ⟨m₁, m₁.withTable h (pairTable.removeAt 0), _, started,
    Machine.table_of_hash present₁ rfl, ?_, ?_, ?_, Machine.table_of_hash left rfl, rfl⟩
  · rw [visiting]
  · rw [visiting]
    rfl
  · rw [visiting]
    exact deleted

theorem removals_by_place_ousted : ∃ h now ended after s t i,
    let visit := ousting (.obj h)
    let next : Except Raised Nat → Script := fun _ => Script.ret (.obj h)
    Run Anything {} now ∧
      now.scene? "vm" = some (Scene.atEntry none (.obj h) true 0 0 visit next [] s) ∧
      (s.machine.table (.obj h)).keys[0]? = some (.int 1) ∧
      Run (Under Anything "vm" [.entry none (.obj h) true 0 0 visit next]) now ended ∧
      ended.scene? "vm" =
        some ⟨.done (.value (.int 2)), [.entry none (.obj h) true 0 0 visit next], t⟩ ∧
      t.surface (.value (.int 2)) = some (.ok (.int 2), t) ∧
      WalkStatus.ofResult (.ok (.int 2)) = .remove ∧ Next ended (.act "vm") after ∧
      (after.world.instance? "vm" = some i ∧
        LosesPlace 0 (.int 1) (t.machine.table (.obj h)) (i.machine.table (.obj h))) ∧
      (t.machine.table (.obj h)).keys.toList = [.int 3] ∧
        (i.machine.table (.obj h)).view = [] := by
  obtain ⟨h, m, run, present⟩ := run_pairing oust
  obtain ⟨m₁, m₂, b, started, rows, waits, lawful, deleted, left, last⟩ := steps_oust present
  let i : Instance := { machine := .opened ⟨1⟩ {} }
  let start := beginning (pairing oust)
  let visit := ousting (.obj h)
  let walk : Pending := .entry none (.obj h) true 0 0 visit fun _ => Script.ret (.obj h)
  have anyhow : Run Anything {} _ := Run.mono (fun _ _ _ => trivial) run
  have begun := anyhow.tail ⟨_, trivial, next_showing (i := i) started rfl⟩
  have noted : (m₁.table (.obj h)).keys[0]? = some (.int 1) := by
    rw [rows]
    rfl
  have inside : Inside "vm" [walk] (start.showing "vm" i (Scene.atEntry none (.obj h) true 0 0 visit
      (fun _ => Script.ret (.obj h)) [] { machine := m₁ })) :=
    ⟨_, scene?_showing, waits ▸ List.suffix_rfl⟩
  have onward : Run (Under Anything "vm" [walk]) _
      (start.showing "vm" i ⟨Script.ret (.int 2), [walk], { machine := m₂ }⟩) :=
    .single ⟨_, ⟨trivial, inside⟩, next_showing deleted lawful⟩
  have goes : Next _ (.act "vm") (start.showing "vm" i b) := next_showing last rfl
  have told : (Stage.mk m₂ {} {}).surface (.value (.int 2)) = some (.ok (.int 2), { machine := m₂ }) :=
    rfl
  have asks : WalkStatus.ofResult (.ok (.int 2)) = .remove := by decide
  obtain ⟨⟨j, present', loses⟩, -⟩ := removals_by_place (s := { machine := m₁ }) begun scene?_showing
    noted onward scene?_showing told asks goes
  refine ⟨h, _, _, _, { machine := m₁ }, { machine := m₂ }, j, begun, scene?_showing, noted, onward,
    scene?_showing, told, asks, goes, ⟨present', loses⟩, ?_, ?_⟩
  · rw [left, HashTable.identities_removeAt]
    rfl
  · rw [loses.lost, left, HashTable.view_removeAt]
    rfl

end Situation

end GuestVM
