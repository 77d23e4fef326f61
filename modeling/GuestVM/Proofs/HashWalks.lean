import GuestVM.Proofs.FrozenData
import GuestVM.Proofs.HashAgreement
import GuestVM.Proofs.HeapWalks
import GuestVM.Proofs.Scene.Tables

/-! # Walks over a hash

A walk over a hash looks at the hash anew for each visit and remembers only a place in it.  If nothing
but the ends of its own visits rewrites the hash, the place is after what has been kept of the entries
that were visited, so the walk passes the entries that were there when it began, in order, and takes out
those whose visits asked for it.  Code that runs in between may do anything else: it may walk this hash
and others, fill other hashes and ask for collections. -/
set_option autoImplicit false

namespace GuestVM

/-! ## What is kept -/

/-- The entries that a walk has kept of those that it has visited, one for each status. -/
def keptRows (removing : Bool) (rows : List (Value × Value)) (statuses : List WalkStatus) :
    List (Value × Value) :=
  ((rows.zip statuses).filter fun e => ¬(removing ∧ e.2 = .remove)).map (·.1)

section Kept

variable {removing : Bool} {rows : List (Value × Value)} {statuses : List WalkStatus}
  {row : Value × Value} {status : WalkStatus}

theorem keptRows_nil : keptRows removing rows [] = [] := by
  simp [keptRows]

theorem zip_concat (turn : rows[statuses.length]? = some row) :
    rows.zip (statuses ++ [status]) = rows.zip statuses ++ [(row, status)] := by
  induction statuses generalizing rows with
  | nil =>
      cases rows with
      | nil => cases turn
      | cons first rest =>
          cases turn
          simp
  | cons before statuses ih =>
      cases rows with
      | nil => cases turn
      | cons first rest => simpa using ih turn

theorem keptRows_concat (turn : rows[statuses.length]? = some row) :
    keptRows removing rows (statuses ++ [status]) =
      keptRows removing rows statuses ++ if removing ∧ status = .remove then [] else [row] := by
  rw [keptRows, zip_concat turn, List.filter_append, List.map_append, keptRows]
  congr 1
  cases removing <;> cases status <;> rfl

end Kept

/-! ## The table of a walked hash -/

namespace Machine

variable {g : Grant} {m m' : Machine} {h : ObjId} {rows : List (Value × Value)} {careful : Prop}

/-- A hash with its entries, and, where care was taken, with keys that are what its table says. -/
def HasRows (careful : Prop) (m : Machine) (h : ObjId) (rows : List (Value × Value)) : Prop :=
  ∃ t, m.HasTable h t ∧ t.entries.toList = rows ∧ (careful → m.SoundKeys t)

namespace HasRows

theorem of_typeOf (typed : m.typeOf (.obj h) = .hash)
    (sound : careful → m.SoundKeys (m.table (.obj h))) : m.HasRows careful h (m.entriesOf h) :=
  ⟨_, .of_typeOf typed, rfl, sound⟩

theorem typeOf (holds : m.HasRows careful h rows) : m.typeOf (.obj h) = .hash := by
  obtain ⟨t, ⟨o, present, body⟩, -⟩ := holds
  rw [Machine.typeOf_obj present, Object.tag, body]

theorem entriesOf (holds : m.HasRows careful h rows) : m.entriesOf h = rows := by
  obtain ⟨t, has, left, -⟩ := holds
  rw [Machine.entriesOf, has.table, left]

theorem entryAt? (holds : m.HasRows careful h rows) (p : Nat) :
    (m.table (.obj h)).entryAt? p = rows[p]? := by
  rw [HashTable.entryAt?, ← Array.getElem?_toList]
  exact congrArg (·[p]?) holds.entriesOf

theorem agrees (holds : m.HasRows careful h rows) (tidy : m.heap.Tidy) (care : careful) :
    m.HashAgrees h := by
  obtain ⟨t, ⟨o, present, body⟩, -, sound⟩ := holds
  exact (sound care).keyed.agrees tidy present body

theorem evolve (holds : m.HasRows careful h rows) (evolution : Evolution g m m')
    (tidy : m.heap.Tidy) (spares : g.SparesTable h) : m'.HasRows careful h rows := by
  obtain ⟨t, has, left, sound⟩ := holds
  exact ⟨t, evolution.keeps_table tidy spares has, left, fun care =>
    evolution.soundKeys tidy spares.unedited spares.quiet (sound care)⟩

theorem onward (holds : m.HasRows careful h rows) (tidy : m.heap.Tidy)
    (evolution : Evolution (({} : Grant).beside h) m m') : m'.HasRows careful h rows :=
  holds.evolve evolution tidy (Grant.sparesTable_beside rfl rfl h)

theorem endWalk (holds : m.HasRows careful h rows) : m.endWalk.HasRows careful h rows := by
  obtain ⟨t, has, left, sound⟩ := holds
  refine ⟨t, has.congr rfl, left, fun care => ⟨?_, (sound care).alive⟩⟩
  exact (sound care).keyed.carry fun _ _ settled => ⟨rfl, settled⟩

theorem removeEntry (holds : m.HasRows careful h rows) (tidy : m.heap.Tidy) (p : Nat) :
    (m.removeEntry (.obj h) p).HasRows careful h (rows.eraseIdx p) := by
  obtain ⟨t, ⟨o, present, body⟩, left, sound⟩ := holds
  refine ⟨t.removeAt p, ⟨{ o with body := .hash (t.removeAt p) }, ?_, rfl⟩, ?_, fun care => ?_⟩
  · change ({ m with heap := m.heap.modify h _ } : Machine).object? h = _
    rw [object?_modify, if_pos rfl, present, Option.map_some, body]
  · rw [HashTable.entries_removeAt, left]
  · have removal : Evolution { drops := some h, walk := some p } m (m.removeEntry (.obj h) p) :=
      .removeEntry (.inr rfl) rfl
    exact (removal.soundKeys tidy rfl rfl (sound care)).removeAt p

end HasRows

end Machine

/-! ## Steps of a walk -/

namespace Scene

variable {b : Scene} {hook : Option Nat} {hash : Value} {removing : Bool} {position n : Nat}
  {visit : Nat → Value → Value → Script} {next : Except Raised Nat → Script} {outer : List Pending}
  {o : Outcome} {r : Except Raised Value} {s t : Stage}

/-- A visit that asks to have its entry taken out leaves the place where it is, where entries may be
taken out; after any other that asks to go on the place moves on. -/
theorem step_entry (told : s.surface o = some (r, t))
    (stepped :
      step ⟨.done o, .entry hook hash removing position n visit next :: outer, s⟩ = some b) :
    (WalkStatus.ofResult r ≠ .stop ∧ ¬ (removing ∧ WalkStatus.ofResult r = .remove) ∧
        b = atEntry hook hash removing (position + 1) (n + 1) visit next outer t) ∨
      ((removing ∧ WalkStatus.ofResult r = .remove) ∧
        b = atEntry hook hash removing position (n + 1) visit next outer
          (t.onMachine (·.removeEntry hash position))) ∨
      (WalkStatus.ofResult r = .stop ∧ b = ⟨next (.ok (n + 1)), outer, t.endWalk hook⟩) := by
  simp only [step, resume, told, Option.map_some, Option.some.injEq] at stepped
  subst stepped
  cases status : WalkStatus.ofResult r with
  | next => exact .inl ⟨by simp, by simp, rfl⟩
  | remove =>
      cases removing with
      | true => exact .inr (.inl ⟨⟨rfl, rfl⟩, rfl⟩)
      | false => exact .inl ⟨by simp, by simp, rfl⟩
  | stop => exact .inr (.inr ⟨rfl, rfl⟩)

/-- A visit has ended, and nothing waits below its walk. -/
def endsVisit : Scene → Bool
  | ⟨.done _, [_], _⟩ => true
  | _ => false

theorem exists_of_endsVisit {a : Scene} (ends : a.endsVisit) :
    ∃ o walk, a.script = .done o ∧ a.pending = [walk] := by
  unfold endsVisit at ends
  split at ends
  case h_1 o walk s => exact ⟨o, walk, rfl, rfl⟩
  case h_2 => cases ends

end Scene

namespace Situation

attribute [local irreducible] Machine.opened

variable {now later first middle : Situation} {name : String} {h : ObjId} {outer : List Pending}
  {a b : Scene} {allowed : Situation → Move → Prop} {removing : Bool} {careful : Prop}
  {rows : List (Value × Value)} {visit : Nat → Value → Value → Script}
  {next : Except Raised Nat → Script} {done : List (Script × WalkStatus)} {s t : Stage}
  {o : Outcome} {r : Except Raised Value} {walk : Pending} {route : Route} {hook : Option Nat}

/-- While a visit is under way nothing but its end rewrites the hash. -/
def LeavesAlone (name : String) (h : ObjId) (outer : List Pending) (now : Situation) (move : Move) :
    Prop :=
  move = .act name → ∀ a walk, now.scene? name = some a → walk.Walks → walk :: outer <:+ a.pending →
    a.Rewrites h → ∃ o, a.script = .done o ∧ a.pending = walk :: outer

/-- What a visit finds when it ends. -/
theorem rows_under (leaves : ∀ s move, allowed s move → LeavesAlone name h outer s move)
    (run : Run Anything {} now) (walks : walk.Walks) (shown : now.scene? name = some a)
    (holds : a.stage.machine.HasRows careful h rows)
    (onward : Run (Under allowed name (walk :: outer)) now later)
    (after : later.scene? name = some b) (waits : walk :: outer <:+ b.pending) :
    Run Anything {} later ∧ b.stage.machine.HasRows careful h rows := by
  refine kept_shown (P := (·.HasRows careful h rows)) ?_ run shown holds onward after waits
  intro now a b run may shown lawful waits stepped waits' holds
  obtain ⟨t, has, left, sound⟩ := holds
  have tidy := tidy_of_shown run shown
  have walking := ((counts_of_run run name).walking_iff shown).mpr
    ⟨walk, waits.subset (List.mem_cons_self ..), walks⟩
  have unwritten : ¬ a.Rewrites h := by
    intro rewrites
    obtain ⟨o, script, pending⟩ := leaves now _ may rfl a walk shown walks waits rewrites
    obtain ⟨_, _, s⟩ := a
    cases script
    cases pending
    exact Scene.step_popped walks stepped waits'
  exact ⟨t, Scene.step_keeps_table stepped lawful tidy walking unwritten has, left, fun care =>
    Scene.step_soundKeys stepped lawful tidy walking (sound care)⟩

/-! ## Where a walk is -/

/-- What is left of the entries after some visits. -/
def leftRows (removing : Bool) (rows : List (Value × Value)) (done : List (Script × WalkStatus)) :
    List (Value × Value) :=
  keptRows removing rows (done.map (·.2)) ++ rows.drop done.length

/-- Where a hash walk is after some visits. -/
inductive AtEntry (careful : Prop) (hook : Option Nat) (h : ObjId) (removing : Bool)
    (rows : List (Value × Value)) (visit : Nat → Value → Value → Script)
    (next : Except Raised Nat → Script) (outer : List Pending) (done : List (Script × WalkStatus))
    (a : Scene) : Prop
  | onward (s : Stage) (went : ∀ e ∈ done, e.2 ≠ .stop) (calls : s.memory.Calls .hash hook)
      (same : a = Scene.atEntry hook (.obj h) removing
        (keptRows removing rows (done.map (·.2))).length done.length visit next outer s)
      (holds : s.machine.HasRows careful h (leftRows removing rows done))
  | stopped (s : Stage) (e : Script × WalkStatus) (last : done.getLast? = some e) (stop : e.2 = .stop)
      (same : a = ⟨next (.ok done.length), outer, s⟩)
      (holds : s.machine.HasRows careful h (leftRows removing rows done))

/-- The place of a walk is that of the next entry. -/
theorem leftRows_place (removing : Bool) (rows : List (Value × Value))
    (done : List (Script × WalkStatus)) :
    (leftRows removing rows done)[(keptRows removing rows (done.map (·.2))).length]? =
      rows[done.length]? := by
  rw [leftRows, List.getElem?_append_right (Nat.le_refl _), Nat.sub_self, List.getElem?_drop,
    Nat.add_zero]

/-- The walk is at the next entry, or over when there is none. -/
theorem atEntry_leftRows (calls : s.memory.Calls .hash hook)
    (holds : s.machine.HasRows careful h (leftRows removing rows done)) :
    Scene.atEntry hook (.obj h) removing (keptRows removing rows (done.map (·.2))).length done.length
        visit next outer s =
      match rows[done.length]? with
      | none => ⟨next (.ok done.length), outer, s.endWalk hook⟩
      | some (key, v) =>
        ⟨visit done.length key v, .entry hook (.obj h) removing
          (keptRows removing rows (done.map (·.2))).length done.length visit next :: outer, s⟩ := by
  have place := (holds.entryAt? _).trans (leftRows_place removing rows done)
  cases turn : rows[done.length]? with
  | none => simp only [Scene.atEntry, place, turn]
  | some row => simp only [Scene.atEntry, place, turn, calls.callback]

/-- A walk is at the visit of the next entry, or it is over: it has visited all or was stopped. -/
theorem AtEntry.turn_or_over
    (stands : AtEntry careful hook h removing rows visit next outer done a) :
    (∃ row t, (∀ e ∈ done, e.2 ≠ .stop) ∧ rows[done.length]? = some row ∧
      a = ⟨visit done.length row.1 row.2, .entry hook (.obj h) removing
        (keptRows removing rows (done.map (·.2))).length done.length visit next :: outer, t⟩ ∧
      t.machine.HasRows careful h (leftRows removing rows done)) ∨
    ∃ t, (rows.length ≤ done.length ∨ ∃ e ∈ done, e.2 = .stop) ∧
      a = ⟨next (.ok done.length), outer, t⟩ ∧
      t.machine.HasRows careful h (leftRows removing rows done) := by
  cases stands with
  | stopped t e last stop same holds =>
      exact .inr ⟨t, .inr ⟨e, List.mem_of_getLast? last, stop⟩, same, holds⟩
  | onward t went calls same holds =>
      rw [atEntry_leftRows calls holds] at same
      cases turn : rows[done.length]? with
      | none =>
          rw [turn] at same
          exact .inr ⟨_, .inl (List.getElem?_eq_none_iff.mp turn), same, holds.endWalk⟩
      | some row =>
          rw [turn] at same
          exact .inl ⟨row, t, went, rfl, same, holds⟩

/-- A visit of a walk that is under way is that of the next entry. -/
theorem AtEntry.turn {script : Script}
    (stands :
      AtEntry careful hook h removing rows visit next outer done ⟨script, walk :: outer, s⟩) :
    (∀ e ∈ done, e.2 ≠ .stop) ∧ ∃ row, rows[done.length]? = some row ∧
      script = visit done.length row.1 row.2 ∧
      walk = .entry hook (.obj h) removing (keptRows removing rows (done.map (·.2))).length
        done.length visit next ∧ s.machine.HasRows careful h (leftRows removing rows done) := by
  rcases stands.turn_or_over with ⟨row, t, went, turn, same, holds⟩ | ⟨t, -, same, -⟩
  · cases same
    exact ⟨went, row, turn, rfl, rfl, holds⟩
  · exact (Scene.pending_ne same rfl).elim

/-- A walk that is over has visited all entries or was stopped. -/
theorem AtEntry.ended
    (stands : AtEntry careful hook h removing rows visit next outer done a)
    (past : a.pending = outer) :
    (rows.length ≤ done.length ∨ ∃ e ∈ done, e.2 = .stop) ∧
      a.script = next (.ok done.length) ∧
      a.stage.machine.HasRows careful h (leftRows removing rows done) := by
  rcases stands.turn_or_over with ⟨row, t, -, -, rfl, -⟩ | ⟨t, ended, rfl, holds⟩
  · exact (List.cons_ne_self _ _ past).elim
  · exact ⟨ended, rfl, holds⟩

theorem leftRows_concat {row : Value × Value} {script : Script} {status : WalkStatus}
    (turn : rows[done.length]? = some row) :
    leftRows removing rows (done ++ [(script, status)]) =
      if removing ∧ status = .remove then
        (leftRows removing rows done).eraseIdx (keptRows removing rows (done.map (·.2))).length
      else leftRows removing rows done := by
  have statuses : (done.map (·.2)).length = done.length := List.length_map _
  have ahead : rows.drop done.length = row :: rows.drop (done.length + 1) := by
    rw [← (List.getElem?_eq_some_iff.mp turn).2]
    exact (List.getElem_cons_drop ..).symm
  have one : (done ++ [(script, status)]).length = done.length + 1 := List.length_append
  rw [leftRows, one, List.map_append, List.map_singleton, keptRows_concat (statuses ▸ turn), leftRows,
    ahead]
  split
  · rw [List.append_nil, List.eraseIdx_append_of_length_le (Nat.le_refl _), Nat.sub_self]
    rfl
  · rw [List.append_assoc]
    rfl

theorem AtEntry.goesOn {row : Value × Value} {u : Stage} (tidy : s.machine.heap.Tidy)
    (went : ∀ e ∈ done, e.2 ≠ .stop) (turn : rows[done.length]? = some row)
    (calls : s.memory.Calls .hash hook)
    (holds : s.machine.HasRows careful h (leftRows removing rows done))
    (told : s.surface o = some (r, u))
    (stepped : Scene.step ⟨.done o, .entry hook (.obj h) removing
      (keptRows removing rows (done.map (·.2))).length done.length visit next :: outer, s⟩ = some b) :
    AtEntry careful hook h removing rows visit next outer
      (done ++ [(visit done.length row.1 row.2, .ofResult r)]) b := by
  have one : (done ++ [(visit done.length row.1 row.2, WalkStatus.ofResult r)]).length =
      done.length + 1 := List.length_append
  have statuses : (done.map (·.2)).length = done.length := List.length_map _
  have grown : keptRows removing rows (done.map (·.2) ++ [WalkStatus.ofResult r]) =
      keptRows removing rows (done.map (·.2)) ++
        if removing ∧ WalkStatus.ofResult r = .remove then [] else [row] :=
    keptRows_concat (statuses ▸ turn)
  have holds' := holds.onward tidy (Stage.surface_evolution tidy told).1
  have tidy' := (Stage.surface_evolution (g := {}) tidy told).1.tidy tidy
  have calls' : u.memory.Calls .hash hook := Stage.memory_of_surface told ▸ calls
  have wentOn : WalkStatus.ofResult r ≠ .stop →
      ∀ e ∈ done ++ [(visit done.length row.1 row.2, WalkStatus.ofResult r)], e.2 ≠ .stop := by
    intro status e member
    rcases List.mem_append.mp member with old | new
    · exact went e old
    · rw [List.mem_singleton.mp new]
      exact status
  rcases Scene.step_entry told stepped with ⟨status, keeps, same⟩ | ⟨takes, same⟩ | ⟨status, same⟩
  · refine .onward u (wentOn status) calls' ?_ ?_
    · rw [same, one, List.map_append, List.map_singleton, grown, if_neg keeps, List.length_append]
      rfl
    · rwa [leftRows_concat turn, if_neg keeps]
  · refine .onward (u.onMachine (·.removeEntry (.obj h)
      (keptRows removing rows (done.map (·.2))).length)) (wentOn (by rw [takes.2]; nofun)) calls'
      ?_ ?_
    · rw [same, one, List.map_append, List.map_singleton, grown, if_pos takes, List.append_nil]
    · rw [leftRows_concat turn, if_pos takes]
      exact holds'.removeEntry tidy' _
  · refine .stopped _ _ List.getLast?_concat status (by rw [one, same]) ?_
    rw [leftRows_concat turn, if_neg (by rw [status]; nofun)]
    exact holds'.endWalk

theorem Visits.exact (leaves : ∀ s move, allowed s move → LeavesAlone name h outer s move)
    (visits : Visits allowed name outer first done middle) (run : Run Anything {} first)
    (calls : s.memory.Calls .hash hook)
    (shown :
      first.scene? name = some (Scene.atEntry hook (.obj h) removing 0 0 visit next outer s))
    (holds : s.machine.HasRows careful h rows) :
    Run Anything {} middle ∧ Passed (· ≠ .stop) rows (fun n e => visit n e.1 e.2) done ∧
      ∃ a, middle.scene? name = some a ∧
        AtEntry careful hook h removing rows visit next outer done a := by
  induction visits with
  | none =>
      refine ⟨run, ⟨rfl, nofun⟩, _, shown, .onward s nofun calls ?_ ?_⟩
      · rw [List.map_nil, keptRows_nil]
        rfl
      · rwa [leftRows, List.map_nil, keptRows_nil]
  | visit before starts walks runs ends told goes ih =>
      obtain ⟨run, passed, a, found, stands⟩ := ih
      cases found.symm.trans starts
      obtain ⟨went, row, turn, rfl, rfl, holds⟩ := stands.turn
      obtain ⟨run, holds⟩ :=
        rows_under leaves run walks starts holds runs ends List.suffix_rfl
      have calls := Memory.calls_of_await (hooked_of_run run ends) rfl
      obtain ⟨i, b, -, -, stepped, rfl⟩ := goes.acted ends
      exact ⟨run.tail ⟨_, trivial, goes⟩, passed.concat went turn, b, scene?_showing,
        .goesOn (tidy_of_shown run ends) went turn calls holds told stepped⟩

/-- The hash has the entries, and, where care was taken, lookup finds them. -/
def HashHolds (careful : Prop) (name : String) (h : ObjId) (rows : List (Value × Value))
    (now : Situation) : Prop :=
  ∃ i, now.world.instance? name = some i ∧ i.machine.typeOf (.obj h) = .hash ∧
    i.machine.entriesOf h = rows ∧ (careful → i.machine.HashAgrees h)

theorem hashHolds_of_shown (run : Run Anything {} now) (shown : now.scene? name = some a)
    (holds : a.stage.machine.HasRows careful h rows) : HashHolds careful name h rows now := by
  have tidy := tidy_of_shown run shown
  obtain ⟨i, present, machine, -⟩ := scene?_eq_some shown
  rw [machine] at holds tidy
  exact ⟨i, present, holds.typeOf, holds.entriesOf, holds.agrees tidy⟩

/-- A walk over some entries that began in `first` has made some visits, and the last of them has left
the machine in `middle`. -/
inductive HashWalkStands (allowed : Situation → Move → Prop) (careful : Prop) (name : String)
    (h : ObjId) (outer : List Pending) (removing : Bool) (visit : Nat → Value → Value → Script)
    (next : Except Raised Nat → Script) (rows : List (Value × Value))
    (done : List (Script × WalkStatus)) (middle later : Situation) : Prop
  | visiting (row : Value × Value) (walk : Pending) (s : Stage) (went : ∀ e ∈ done, e.2 ≠ .stop)
      (turn : rows[done.length]? = some row) (walks : walk.Walks)
      (shown : middle.scene? name = some ⟨visit done.length row.1 row.2, walk :: outer, s⟩)
      (onward : Run (Under allowed name (walk :: outer)) middle later)
      (inside : Inside name (walk :: outer) later)
      (left : HashHolds careful name h (leftRows removing rows done) later)
  | finished (s : Stage) (ended : done.length = rows.length ∨ ∃ e ∈ done, e.2 = .stop)
      (shown : middle.scene? name = some ⟨next (.ok done.length), outer, s⟩)
      (onward : Run (Under allowed name outer) middle later)
      (left : HashHolds careful name h (leftRows removing rows done) middle)

/-- A walk passes the entries that the hash had when it began, in order and each once, as far as its
visits ask to go on.  What is left of them is what they were without those whose visits asked to have
them taken out, if the hash was thawed when the walk began. -/
def ExactWalk (allowed : Situation → Move → Prop) (careful : Prop) (name : String) (h : ObjId)
    (outer : List Pending) (visit : Nat → Value → Value → Script)
    (next : Except Raised Nat → Script) (m : Machine) (first later : Situation) : Prop :=
  ∃ done middle, Visits allowed name outer first done middle ∧
    Passed (· ≠ .stop) (m.entriesOf h) (fun n e => visit n e.1 e.2) done ∧
      HashWalkStands allowed careful name h outer (!m.isFrozen (.obj h)) visit next (m.entriesOf h)
        done middle later

/-- The keys of the hash are alive, and they are what its table says. -/
def SoundHash (m : Machine) (h : ObjId) : Prop := m.SoundKeys (m.table (.obj h))

/-- Where the host hands over live objects only, every hash is sound. -/
theorem Run.soundHash (run : Run Careful {} now) (shown : now.scene? name = some a)
    (typed : a.stage.machine.typeOf (.obj h) = .hash) : SoundHash a.stage.machine h := by
  obtain ⟨i, present, machine, -⟩ := scene?_eq_some shown
  rw [machine] at typed ⊢
  have filed := run.filed present
  obtain ⟨o, alive⟩ := Machine.live_of_typeOf typed (by decide)
  have body := Machine.hash_of_typeOf alive typed
  refine ⟨filed.keyed h o _ alive body, fun e member x named => ?_⟩
  exact filed.closed x (Machine.holds_of_object? alive (Machine.key_mem_references body member named))

theorem shown_setsOff (typed : s.machine.typeOf (.obj h) = .hash)
    (shown : now.scene? name = some ⟨.walkHash route (.obj h) visit next, outer, s⟩)
    (begun : Next now (.act name) first) :
    first.scene? name = some (Scene.atEntry (s.hook route .hash).1 (.obj h)
      (!s.machine.isFrozen (.obj h)) 0 0 visit next outer
      ((s.hook route .hash).2.onMachine Machine.beginWalk)) := by
  obtain ⟨i, b, -, -, stepped, rfl⟩ := begun.acted shown
  have typed' : (s.hook route .hash).2.machine.typeOf (.obj h) = .hash := typed
  simp only [Scene.step, Stage.act, Act.run_expectType typed', Option.map_some,
    Option.some.injEq] at stepped
  subst stepped
  exact scene?_showing

/-- Whichever way a walk is begun, it is exact; and lookup agrees with what is left if the hash was
sound when the walk began, as it is where the host hands over live objects only. -/
theorem hash_walks_exact (leaves : ∀ s move, allowed s move → LeavesAlone name h outer s move)
    (run : Run Anything {} now) (typed : s.machine.typeOf (.obj h) = .hash)
    (shown : now.scene? name = some ⟨.walkHash route (.obj h) visit next, outer, s⟩)
    (begun : Next now (.act name) first) (onward : Run (Under allowed name outer) first later)
    (still : Inside name outer later) :
    ExactWalk allowed (SoundHash s.machine h) name h outer visit next s.machine first later ∧
      (Run Careful {} now → SoundHash s.machine h) := by
  refine ⟨?_, fun careful => careful.soundHash shown typed⟩
  have start := run.tail ⟨_, trivial, begun⟩
  have tidy := tidy_of_shown run shown
  have shown' := shown_setsOff typed shown begun
  let hooked : Stage := (s.hook route .hash).2.onMachine Machine.beginWalk
  have calls : hooked.memory.Calls .hash (s.hook route .hash).1 := by
    let walk : Pending := .entry (s.hook route .hash).1 (.obj h) true 0 0 visit next
    have await : hooked.memory.hooks.Await (walk :: outer) :=
      Memory.await_hook (hooked_of_run run shown) route .hash rfl
    exact Memory.calls_of_await await rfl
  have holds : hooked.machine.HasRows (SoundHash s.machine h) h (s.machine.entriesOf h) :=
    Machine.HasRows.onward (.of_typeOf typed id) tidy .beginWalk
  obtain ⟨done, middle, visits, a, found, stands⟩ :=
    visits_of_run start shown' (Scene.walking_atEntry ..) onward still
  obtain ⟨reached, passed, x, found', place⟩ := visits.exact leaves start calls shown' holds
  cases found.symm.trans found'
  refine ⟨done, middle, visits, passed, ?_⟩
  rcases stands with ⟨past, after⟩ | ⟨walk, walks, waits, inner, b, after, inside⟩
  · obtain ⟨ended, script, holds⟩ := place.ended past
    obtain ⟨_, _, u⟩ := a
    cases script
    cases past
    refine .finished u ?_ found after (hashHolds_of_shown reached found holds)
    exact ended.imp_left fun all => Nat.le_antisymm passed.length_le all
  · obtain ⟨_, _, u⟩ := a
    cases waits
    obtain ⟨went, row, turn, rfl, rfl, holds⟩ := place.turn
    obtain ⟨reached', holds'⟩ := rows_under leaves reached walks found holds inner after inside
    exact .visiting row _ u went turn walks found inner ⟨b, after, inside⟩
      (hashHolds_of_shown reached' after holds')

/-! ## A walk that takes out an entry -/

theorem entryAt?_removeAt (t : HashTable) (p q : Nat) :
    (t.removeAt p).entryAt? q = (t.entries.toList.eraseIdx p)[q]? := by
  rw [HashTable.entryAt?, ← Array.getElem?_toList, HashTable.entries_removeAt]

/-- Nothing is written in the hash, or the visit of the only walk ends. -/
def AtRest (h : ObjId) (a : Scene) : Prop := ¬ a.Writes h ∨ a.endsVisit

instance (h : ObjId) : DecidablePred (AtRest h) := fun a =>
  inferInstanceAs (Decidable (¬ a.Writes h ∨ a.endsVisit))

theorem leavesAlone_of_atRest {i : Instance} (rest : AtRest h a) :
    LeavesAlone "vm" h [] (now.showing "vm" i a) (.act "vm") := by
  intro _ x walk shown _ waits rewrites
  cases scene?_showing.symm.trans shown
  rcases rest with unwritten | ends
  · exact absurd rewrites.1 unwritten
  · obtain ⟨o, walk', script, pending⟩ := Scene.exists_of_endsVisit ends
    rw [pending] at waits
    have same := waits.eq_of_length rfl
    exact ⟨o, script, by rw [pending, same]⟩

theorem run_atRest {i : Instance} (steps : Relation.ReflTransGen
      (fun a b : Scene => (a.Lawful ∧ AtRest h a) ∧ a.step = some b) a b) :
    Run (Under (LeavesAlone "vm" h []) "vm" []) (now.showing "vm" i a) (now.showing "vm" i b) :=
  run_while steps fun x kind =>
    ⟨kind.1, leavesAlone_of_atRest kind.2, x, scene?_showing, List.nil_suffix⟩

theorem step_walkHash {t : HashTable} (present : s.machine.object? h = some (.ofTable t))
    (route : Route) (visit : Nat → Value → Value → Script) (next : Except Raised Nat → Script)
    (pending : List Pending) :
    Scene.step ⟨.walkHash route (.obj h) visit next, pending, s⟩ =
      some (Scene.atEntry (s.hook route .hash).1 (.obj h) true 0 0 visit next pending
        ((s.hook route .hash).2.onMachine Machine.beginWalk)) := by
  have typed : (s.hook route .hash).2.machine.typeOf (.obj h) = .hash := Machine.typeOf_obj present
  have thawed : (s.hook route .hash).2.machine.isFrozen (.obj h) = false := by
    change s.machine.isFrozen (.obj h) = false
    simp [Machine.isFrozen, present, Object.ofTable]
  simp only [Scene.step, Stage.act, Act.run_expectType typed, Option.map_some, thawed]
  rfl

theorem atEntry_of_object? {t : HashTable} {p n : Nat} {row : Value × Value}
    (calls : s.memory.Calls .hash hook) (present : s.machine.object? h = some (.ofTable t))
    (there : t.entryAt? p = some row) (visit : Nat → Value → Value → Script)
    (next : Except Raised Nat → Script) :
    Scene.atEntry hook (.obj h) true p n visit next [] s =
      ⟨visit n row.1 row.2, [.entry hook (.obj h) true p n visit next], s⟩ := by
  have rows : s.machine.table (.obj h) = t := Machine.table_of_hash present rfl
  simp only [Scene.atEntry, rows, there, calls.callback]

theorem atEntry_of_end {t : HashTable} {p n : Nat}
    (present : s.machine.object? h = some (.ofTable t)) (past : t.entryAt? p = none)
    (visit : Nat → Value → Value → Script) (next : Except Raised Nat → Script) :
    Scene.atEntry hook (.obj h) true p n visit next [] s = ⟨next (.ok n), [], s.endWalk hook⟩ := by
  have rows : s.machine.table (.obj h) = t := Machine.table_of_hash present rfl
  simp only [Scene.atEntry, rows, past]

/-- The first visit collects and has its entry taken out. -/
def sifting (n : Nat) (_ _ : Value) : Script :=
  if n = 0 then .guest .collect fun _ => Script.ret (.int 2) else Script.ret .nil

def sift (h : Value) : Script := .walkHash .hooked h sifting fun _ => Script.ret h

/-- The stage of a walk that the host has begun through the table of hooks. -/
def hookedStage (m : Machine) : Stage := { machine := m, memory := { hooks := ⟨[(0, .hash)]⟩ } }

theorem calls_hookedStage (m : Machine) : (hookedStage m).memory.Calls .hash (some 0) := by
  rintro address ⟨⟩
  rfl

theorem steps_sift {m : Machine} {h : ObjId}
    (present : m.object? h = some (.ofTable pairTable)) :
    ∃ (b : Scene) (m' : Machine), Scene.step ⟨sift (.obj h), [], { machine := m }⟩ = some b ∧
      Relation.ReflTransGen
        (fun a b : Scene => (a.Lawful ∧ AtRest h a) ∧ a.step = some b)
        b ⟨Script.ret (.obj h), [], { machine := m' }⟩ ∧
      m'.entriesOf h = [(.int 3, .int 4)] := by
  let next : Except Raised Nat → Script := fun _ => Script.ret (.obj h)
  let walk (n : Nat) : Pending := .entry (some 0) (.obj h) true 0 n sifting next
  have started := step_walkHash (s := { machine := m }) present .hooked sifting next []
  change _ = some (Scene.atEntry (some 0) (.obj h) true 0 0 sifting next []
    (hookedStage m.beginWalk)) at started
  have refuses : m.beginWalk.RefusesToCollect :=
    Machine.refuses_of_suspended (by simp [Heap.isSuspended, Machine.beginWalk, Heap.beginWalk])
  have present₁ : m.beginWalk.object? h = some (.ofTable pairTable) := present
  generalize m.beginWalk = m₁ at started refuses present₁
  have there₁ : pairTable.entryAt? 0 = some (.int 1, .int 2) := rfl
  rw [atEntry_of_object? (calls_hookedStage m₁) present₁ there₁] at started
  have first := step_refused (s := hookedStage m₁) refuses (fun _ => Script.ret (.int 2)) [walk 0]
  have second : Scene.step ⟨Script.ret (.int 2), [walk 0], hookedStage m₁⟩ =
      some (Scene.atEntry (some 0) (.obj h) true 0 1 sifting next []
        (hookedStage (m₁.removeEntry (.obj h) 0))) := rfl
  have present₂ : (m₁.removeEntry (.obj h) 0).object? h =
      some (.ofTable (pairTable.removeAt 0)) := by
    change ({ m₁ with heap := m₁.heap.modify h _ } : Machine).object? h = _
    rw [Machine.object?_modify, if_pos rfl, present₁]
    rfl
  generalize m₁.removeEntry (.obj h) 0 = m₂ at second present₂
  have there₂ : (pairTable.removeAt 0).entryAt? 0 = some (.int 3, .int 4) := by
    rw [entryAt?_removeAt]
    rfl
  rw [atEntry_of_object? (calls_hookedStage m₂) present₂ there₂] at second
  have third : Scene.step ⟨sifting 1 (.int 3) (.int 4), [walk 1], hookedStage m₂⟩ =
      some (Scene.atEntry (some 0) (.obj h) true 1 2 sifting next [] (hookedStage m₂)) := rfl
  have past : (pairTable.removeAt 0).entryAt? 1 = none := by
    rw [entryAt?_removeAt]
    rfl
  rw [atEntry_of_end (s := hookedStage m₂) present₂ past] at third
  have collecting : AtRest h ⟨sifting 0 (.int 1) (.int 2), [walk 0], hookedStage m₁⟩ := by
    refine .inl fun writes => ?_
    rcases Scene.writes_iff.mp writes with drops | fills
    · cases drops
    · cases fills
  refine ⟨_, m₂.endWalk, started, .head ⟨⟨rfl, collecting⟩, first⟩
    (.head ⟨⟨rfl, .inr rfl⟩, second⟩ (.single ⟨⟨rfl, .inr rfl⟩, third⟩)), ?_⟩
  have left : m₂.endWalk.table (.obj h) = pairTable.removeAt 0 :=
    Machine.table_of_hash (o := .ofTable (pairTable.removeAt 0)) present₂ rfl
  rw [Machine.entriesOf, left, HashTable.entries_removeAt]
  rfl

theorem hash_walks_exact_sifted : ∃ h now first later s t, Run Careful {} now ∧
    s.machine.typeOf (.obj h) = .hash ∧
      s.machine.entriesOf h = [(.int 1, .int 2), (.int 3, .int 4)] ∧
      now.scene? "vm" = some ⟨sift (.obj h), [], s⟩ ∧ Next now (.act "vm") first ∧
        Run (Under (LeavesAlone "vm" h []) "vm" []) first later ∧ Inside "vm" [] later ∧
          later.scene? "vm" = some ⟨Script.ret (.obj h), [], t⟩ ∧
            t.machine.entriesOf h = [(.int 3, .int 4)] ∧
              (ExactWalk (LeavesAlone "vm" h []) (SoundHash s.machine h) "vm" h [] sifting
                (fun _ => Script.ret (.obj h)) s.machine first later ∧ SoundHash s.machine h) := by
  obtain ⟨h, m, run, present⟩ := run_pairing sift
  obtain ⟨b, m', started, steps, left⟩ := steps_sift present
  have typed : m.typeOf (.obj h) = .hash := Machine.typeOf_obj present
  let i : Instance := { machine := .opened ⟨1⟩ {} }
  have begun : Next _ (.act "vm") ((beginning (pairing sift)).showing "vm" i b) :=
    next_showing started rfl
  have onward : Run (Under (LeavesAlone "vm" h []) "vm" [])
      ((beginning (pairing sift)).showing "vm" i b) _ := run_atRest steps
  have still : Inside "vm" [] ((beginning (pairing sift)).showing "vm" i
      ⟨Script.ret (.obj h), [], { machine := m' }⟩) := ⟨_, scene?_showing, List.nil_suffix⟩
  have anyhow : Run Anything {} _ := Run.mono (fun _ _ _ => trivial) run
  obtain ⟨exact, sound⟩ := hash_walks_exact (s := { machine := m }) (fun _ _ may => may) anyhow typed
    scene?_showing begun onward still
  exact ⟨h, _, _, _, { machine := m }, _, run, typed, entriesOf_pairTable present, scene?_showing,
    begun, onward, still, scene?_showing, left, exact, sound run⟩

/-! ## A key that is gone -/

/-- The key of the hash is the id of an object that is gone.  The visit makes a string, which gets the
id. -/
def stranding : Script :=
  .guest .hashNew fun h => .guest .arenaSave fun mark => .guest (.arrayNew []) fun key =>
    .guest (.arenaRestore mark) fun _ => .guest .collect fun _ =>
      .guest (.hashSet h key (.int 1)) fun _ =>
        .walkHash .direct h (fun _ _ _ => .guest (.stringNew []) fun _ => Script.ret .nil)
          fun _ => Script.ret h

/-- The first slot that a new machine leaves empty. -/
def strandedId : ObjId := ⟨62⟩

def goneKey : Value := .obj ⟨63⟩

/-- What a lookup of the key comes to. -/
def lookedUp (m : Machine) : Option (Option Value) :=
  ((Act.hashGet (.obj strandedId) goneKey).run.run m).1.toOption

/-- The walk is over, the hash has its entry, and lookup does not find it. -/
def misses (c : Scene) : Bool :=
  match c.script, c.pending with
  | .done (.value _), [] =>
    decide (c.stage.machine.entriesOf strandedId = [(goneKey, .int 1)] ∧
      lookedUp c.stage.machine = some none)
  | _, _ => false

/-- The walk begins, and lookup finds the entry; two steps later it misses it. -/
def goesAstray (a : Scene) : Bool :=
  match a.script, a.pending with
  | .walkHash .direct h _ _, [] =>
    decide (h = .obj strandedId ∧ a.stage.machine.typeOf (.obj strandedId) = .hash ∧
      a.stage.machine.entriesOf strandedId = [(goneKey, .int 1)] ∧
      lookedUp a.stage.machine = some (some (.int 1)) ∧ a.Lawful) &&
    a.step.any fun b => (Scene.replay (fun a => a.Lawful ∧ AtRest strandedId a) 2 b).any misses
  | _, _ => false

/-- The visits leave the hash alone, and lookup agrees with the entries when the walk begins.  When it
is over the hash still has its entry, but lookup no longer finds it. -/
theorem stale_key_unfound : ∃ now first later visit next s t, Run Anything {} now ∧
    Scene.Steps ⟨stranding, [], { machine := .opened ⟨1⟩ {} }⟩
      ⟨.walkHash .direct (.obj strandedId) visit next, [], s⟩ ∧
    now.scene? "vm" = some ⟨.walkHash .direct (.obj strandedId) visit next, [], s⟩ ∧
      s.machine.typeOf (.obj strandedId) = .hash ∧ Next now (.act "vm") first ∧
        Run (Under (LeavesAlone "vm" strandedId []) "vm" []) first later ∧
          (∃ v, later.scene? "vm" = some ⟨Script.ret v, [], t⟩) ∧
            s.machine.entriesOf strandedId = [(goneKey, .int 1)] ∧
              lookedUp s.machine = some (some (.int 1)) ∧
                t.machine.entriesOf strandedId = [(goneKey, .int 1)] ∧
                  lookedUp t.machine = some none := by
  have replayed : ((Scene.replay Scene.Lawful 6
      ⟨stranding, [], { machine := .opened ⟨1⟩ {} }⟩).any goesAstray) = true := by
    rw [Machine.opened_eq]
    decide +kernel
  obtain ⟨⟨script, pending, s⟩, reached, facts⟩ := (Option.any_eq_true _ _).mp replayed
  dsimp only [goesAstray] at facts
  split at facts
  case h_2 => cases facts
  case h_1 h visit next =>
    rw [Bool.and_eq_true, decide_eq_true_eq] at facts
    obtain ⟨⟨rfl, typed, rows, found, lawful⟩, facts⟩ := facts
    obtain ⟨b, started, facts⟩ := (Option.any_eq_true _ _).mp facts
    obtain ⟨⟨script, pending, t⟩, walked, facts⟩ := (Option.any_eq_true _ _).mp facts
    dsimp only [misses] at facts
    split at facts
    case h_2 => cases facts
    case h_1 v =>
      obtain ⟨left, lost⟩ := of_decide_eq_true facts
      have steps : Scene.LawfulSteps ⟨stranding, [], { machine := .opened ⟨1⟩ {} }⟩ _ :=
        Scene.steps_of_replay reached
      have begun : Run Anything {} (beginning stranding) := run_beginning stranding trivial trivial
      rw [← showing_beginning stranding] at begun
      exact ⟨_, _, _, visit, next, s, t, begun.trans (run_showing steps), steps.steps,
        scene?_showing, typed, next_showing started lawful,
        run_atRest (Scene.steps_of_replay walked), ⟨v, scene?_showing⟩, rows, found, left, lost⟩

end Situation

end GuestVM
