import GuestVM.Proofs.Scene

/-! # Runs are made of steps

A script that ends within some fuel is brought to the same outcome and stage by steps, whatever
waits for it meanwhile.  The induction is on the fuel; for the code that a script itself consists of
it is on the script, and within a walk on the visits. -/
set_option autoImplicit false

namespace GuestVM

namespace Scene

/-- A way to run scripts that steps follow. -/
def Followed (enter : Script → Stage.Player) : Prop :=
  ∀ code s o s', enter code s = some (o, s') → ∀ pending,
    Steps ⟨code, pending, s⟩ ⟨.done o, pending, s'⟩

variable {enter : Script → Stage.Player} {s s' : Stage}

theorem steps_callWith (followed : Followed enter) {begin : Act Script}
    {next : Except Raised Value → Script} {pending : List Pending} {a : Scene}
    (stepped : a.step = entering begin next pending s) {r : Except Raised Value}
    (called : Stage.callWith enter begin s = some (r, s')) :
    Steps a ⟨next r, pending, s'⟩ := by
  unfold Stage.callWith at called
  cases acted : s.act begin with
  | none => simp [acted] at called
  | some result =>
      obtain ⟨begun, middle⟩ := result
      cases begun with
      | error e =>
          simp only [acted, Option.some.injEq, Prod.mk.injEq] at called
          obtain ⟨rfl, rfl⟩ := called
          refine .single ?_
          rw [stepped, entering, acted]
          rfl
      | ok code =>
          simp only [acted] at called
          cases ran : enter code middle with
          | none => simp [ran] at called
          | some ended =>
              obtain ⟨o, last⟩ := ended
              simp only [ran] at called
              have inside := followed code middle o last ran
                (.call s.machine.depth next :: pending)
              refine .trans (.head ?_ inside) (.single ?_)
              · rw [stepped, entering, acted]
                rfl
              · obtain ⟨⟨r', after⟩, surfaced, same⟩ := Option.map_eq_some_iff.mp called
                cases same
                simp only [step, resume, surfaced]
                rfl

/-- Steps follow a walk into a visit, also where the hook is not live. -/
theorem steps_visitWith {visit : Script} {play : Stage.Player}
    (followed : ∀ s o s', play s = some (o, s') → ∀ pending,
      Steps ⟨visit, pending, s⟩ ⟨.done o, pending, s'⟩)
    {kind : HookKind} {hook : Option Nat} {status : WalkStatus}
    (visited : Stage.visitWith kind hook play s = some (status, s')) :
    ∃ o middle r, (∀ pending, Steps ⟨s.memory.callback kind hook visit stray, pending, s⟩
        ⟨.done o, pending, middle⟩) ∧
      middle.surface o = some (r, s') ∧ WalkStatus.ofResult r = status := by
  have steps : ∀ o t, s.memory.callback kind hook play
      (fun s => some (.value WalkStatus.stray.value, s)) s = some (o, t) → ∀ pending,
        Steps ⟨s.memory.callback kind hook visit stray, pending, s⟩ ⟨.done o, pending, t⟩ := by
    intro o t called
    rcases s.memory.callback_cases kind hook with hooked | strayed
    · rw [hooked] at called ⊢
      exact followed s o t called
    · rw [strayed] at called ⊢
      cases called
      exact fun _ => .refl
  unfold Stage.visitWith at visited
  dsimp only at visited
  split at visited
  · cases visited
  case h_2 o middle called =>
      obtain ⟨⟨r, after⟩, surfaced, same⟩ := Option.map_eq_some_iff.mp visited
      cases same
      exact ⟨o, middle, r, steps o middle called, surfaced, rfl⟩

theorem steps_walkEntries {visit : Nat → Value → Value → Script} {play : Script → Stage.Player}
    (followed : ∀ n key v s o s', play (visit n key v) s = some (o, s') → ∀ pending,
      Steps ⟨visit n key v, pending, s⟩ ⟨.done o, pending, s'⟩)
    (hook : Option Nat) (hash : Value) (removing : Bool) (next : Except Raised Nat → Script)
    (pending : List Pending) :
    ∀ (fuel position n : Nat) (s s' : Stage) (visited : Nat),
      Stage.walkEntries (fun n key v => play (visit n key v)) hook hash removing fuel position n s =
        some (visited, s') →
      Steps (atEntry hook hash removing position n visit next pending s)
        ⟨next (.ok visited), pending, s'.endWalk hook⟩ := by
  intro fuel
  induction fuel with
  | zero =>
      intro position n s s' visited walked
      cases walked
  | succ fuel ih =>
      intro position n s s' visited walked
      unfold Stage.walkEntries at walked
      unfold atEntry
      cases found : (s.machine.table hash).entryAt? position with
      | none =>
          simp only [found, Option.some.injEq, Prod.mk.injEq] at walked
          obtain ⟨rfl, rfl⟩ := walked
          exact .refl
      | some entry =>
          obtain ⟨key, v⟩ := entry
          simp only [found] at walked
          cases visiting : Stage.visitWith .hash hook (play (visit n key v)) s with
          | none => simp [visiting] at walked
          | some visited =>
              obtain ⟨status, after⟩ := visited
              obtain ⟨o, middle, r, steps, surfaced, rfl⟩ :=
                steps_visitWith (followed n key v) visiting
              have inside := steps (.entry hook hash removing position n visit next :: pending)
              rw [visiting] at walked
              cases status : WalkStatus.ofResult r with
              | next =>
                  simp only [status] at walked
                  refine inside.trans (.head ?_ (ih _ _ after s' _ walked))
                  simp [step, resume, surfaced, status]
              | remove =>
                  cases removing with
                  | true =>
                      simp only [status, if_true] at walked
                      refine inside.trans (.head ?_ (ih _ _ _ s' _ walked))
                      simp [step, resume, surfaced, status]
                  | false =>
                      simp only [status, Bool.false_eq_true, if_false] at walked
                      refine inside.trans (.head ?_ (ih _ _ after s' _ walked))
                      simp [step, resume, surfaced, status]
              | stop =>
                  simp only [status, Option.some.injEq, Prod.mk.injEq] at walked
                  obtain ⟨rfl, rfl⟩ := walked
                  refine inside.trans (.single ?_)
                  simp [step, resume, surfaced, status]

theorem steps_walkObjects {visit : Nat → ObjId → Script} {play : Script → Stage.Player}
    (followed : ∀ n id s o s', play (visit n id) s = some (o, s') → ∀ pending,
      Steps ⟨visit n id, pending, s⟩ ⟨.done o, pending, s'⟩)
    (hook : Option Nat) (next : List ObjId → Script) (pending : List Pending) :
    ∀ (rest : List ObjId) (n : Nat) (before : List ObjId) (s s' : Stage) (visited : List ObjId),
      Stage.walkObjects (fun n id => play (visit n id)) hook n rest s = some (visited, s') →
      Steps (atObject hook n before rest visit next pending s)
        ⟨next (before ++ visited), pending, s'.endWalk hook⟩ := by
  intro rest
  induction rest with
  | nil =>
      intro n before s s' visited walked
      cases walked
      rw [List.append_nil]
      exact .refl
  | cons id rest ih =>
      intro n before s s' visited walked
      unfold Stage.walkObjects at walked
      rw [atObject]
      split at walked
      case isTrue dead =>
          rw [if_pos dead]
          exact ih n before s s' visited walked
      case isFalse alive =>
          rw [if_neg alive]
          cases visiting : Stage.visitWith .object hook (play (visit n id)) s with
          | none => simp [visiting] at walked
          | some visited =>
              obtain ⟨status, after⟩ := visited
              obtain ⟨o, middle, r, steps, surfaced, rfl⟩ :=
                steps_visitWith (followed n id) visiting
              have inside := steps (.object hook n id before rest visit next :: pending)
              rw [visiting] at walked
              cases status : WalkStatus.ofResult r with
              | next =>
                  simp only [status] at walked
                  obtain ⟨⟨others, last⟩, rest', same⟩ := Option.map_eq_some_iff.mp walked
                  cases same
                  have onward := ih (n + 1) (before ++ [id]) after last others rest'
                  rw [List.append_assoc] at onward
                  refine inside.trans (.head ?_ onward)
                  simp [step, resume, surfaced, status]
              | _ =>
                  simp only [status, Option.some.injEq, Prod.mk.injEq] at walked
                  obtain ⟨rfl, rfl⟩ := walked
                  refine inside.trans (.single ?_)
                  simp [step, resume, surfaced, status]

theorem steps_protectWith {body : Script} {next : Except Raised Value → Script}
    {pending : List Pending} {play : Stage.Player}
    (followed : ∀ s o s', play s = some (o, s') → ∀ pending,
      Steps ⟨body, pending, s⟩ ⟨.done o, pending, s'⟩)
    {r : Except Raised Value} (guarded : Stage.protectWith play s = some (r, s')) :
    Steps ⟨.protect body next, pending, s⟩ ⟨next r, pending, s'⟩ := by
  unfold Stage.protectWith at guarded
  cases inner : play (s.onMachine Stage.shield) with
  | none => simp [inner] at guarded
  | some ended =>
      obtain ⟨o, middle⟩ := ended
      simp only [inner] at guarded
      obtain ⟨⟨r', last⟩, surfaced, same⟩ := Option.map_eq_some_iff.mp guarded
      cases same
      have inside := followed _ o middle inner (.shield s.machine.depth next :: pending)
      refine .head rfl (inside.trans (.single ?_))
      simp [step, resume, surfaced]

theorem steps_hostCallWith (followed : Followed enter) {form : Form} {index function : Nat}
    {receiver args v : Value} {next : Value → Script} {pending : List Pending}
    (called : Stage.hostCallWith enter form ⟨index, receiver, function⟩ args s = some (v, s')) :
    Steps ⟨.hostCall form index receiver function args next, pending, s⟩ ⟨next v, pending, s'⟩ := by
  unfold Stage.hostCallWith at called
  dsimp only at called
  split at called
  · cases called
  case h_2 v middle asked =>
      cases called
      apply Relation.ReflTransGen.single
      simp [step, asked]
  case h_3 c middle asked =>
      split at called
      · cases called
      case h_2 o last ran =>
          have inside := followed _ middle o last ran (.host c.discipline next :: pending)
          refine .head ?_ (inside.trans (.single ?_))
          · simp [step, asked]
          · simp [step, resume, called]

theorem steps_walkHashWith {visit : Nat → Value → Value → Script} {play : Script → Stage.Player}
    (followed : ∀ n key v s o s', play (visit n key v) s = some (o, s') → ∀ pending,
      Steps ⟨visit n key v, pending, s⟩ ⟨.done o, pending, s'⟩)
    {route : Route} {hash : Value} {next : Except Raised Nat → Script} {pending : List Pending}
    {fuel : Nat} {r : Except Raised Nat}
    (walked : Stage.walkHashWith (fun n key v => play (visit n key v)) fuel route hash s =
      some (r, s')) :
    Steps ⟨.walkHash route hash visit next, pending, s⟩ ⟨next r, pending, s'⟩ := by
  unfold Stage.walkHashWith at walked
  dsimp only at walked
  split at walked
  · cases walked
  case h_2 e middle acted =>
      cases walked
      apply Relation.ReflTransGen.single
      simp [step, acted]
  case h_3 id middle acted =>
      obtain ⟨⟨n, last⟩, entries, same⟩ := Option.map_eq_some_iff.mp walked
      cases same
      have visits := steps_walkEntries followed _ hash _ next pending fuel 0 0 _ last n entries
      refine .head ?_ visits
      simp [step, acted]

theorem steps_walkHeapWith {visit : Nat → ObjId → Script} {play : Script → Stage.Player}
    (followed : ∀ n id s o s', play (visit n id) s = some (o, s') → ∀ pending,
      Steps ⟨visit n id, pending, s⟩ ⟨.done o, pending, s'⟩)
    {route : Route} {next : List ObjId → Script} {pending : List Pending} {visited : List ObjId}
    (walked : Stage.walkHeapWith (fun n id => play (visit n id)) route s = some (visited, s')) :
    Steps ⟨.walkHeap route visit next, pending, s⟩ ⟨next visited, pending, s'⟩ := by
  unfold Stage.walkHeapWith at walked
  obtain ⟨⟨ids, last⟩, objects, same⟩ := Option.map_eq_some_iff.mp walked
  cases same
  exact .head rfl (steps_walkObjects followed _ next pending _ 0 [] _ last visited objects)

theorem followed_runWith (followed : Followed enter) (fuel : Nat) :
    Followed (Stage.runWith enter fuel) := by
  intro script
  induction script with
  | done o =>
      intro s o' s' ran pending
      cases ran
      exact .refl
  | guest r next ih | bridge r next ih =>
      intro s o s' ran pending
      unfold Stage.runWith at ran
      split at ran
      · cases ran
      case h_2 x after asked =>
          refine .head ?_ (ih x after o s' ran pending)
          simp [step, asked]
  | memo r next ih =>
      intro s o s' ran pending
      exact .head rfl (ih _ _ o s' ran pending)
  | call receiver mid args block next ih =>
      intro s o s' ran pending
      unfold Stage.runWith at ran
      split at ran
      · cases ran
      case h_2 r after called =>
          exact (steps_callWith followed rfl called).trans (ih r after o s' ran pending)
  | callProc proc self args next ih =>
      intro s o s' ran pending
      unfold Stage.runWith at ran
      split at ran
      · cases ran
      case h_2 r after called =>
          exact (steps_callWith followed rfl called).trans (ih r after o s' ran pending)
  | protect body next bodyIh ih =>
      intro s o s' ran pending
      unfold Stage.runWith at ran
      split at ran
      · cases ran
      case h_2 r after guarded =>
          exact (steps_protectWith bodyIh guarded).trans (ih r after o s' ran pending)
  | newNative body next bodyIh ih | newLexical body next bodyIh ih =>
      intro s o s' ran pending
      unfold Stage.runWith at ran
      split at ran
      · cases ran
      case h_2 id after asked =>
          refine .head ?_ (ih id after o s' ran pending)
          simp [step, asked]
  | register index form discipline body aspec next bodyIh ih =>
      intro s o s' ran pending
      exact .head rfl (ih _ _ o s' ran pending)
  | hostCall form index receiver function args next ih =>
      intro s o s' ran pending
      unfold Stage.runWith at ran
      split at ran
      · cases ran
      case h_2 v after called =>
          exact (steps_hostCallWith followed called).trans (ih v after o s' ran pending)
  | walkHash route hash visit next visitIh ih =>
      intro s o s' ran pending
      unfold Stage.runWith at ran
      split at ran
      · cases ran
      case h_2 r after walked =>
          exact (steps_walkHashWith visitIh walked).trans (ih r after o s' ran pending)
  | walkHeap route visit next visitIh ih =>
      intro s o s' ran pending
      unfold Stage.runWith at ran
      split at ran
      · cases ran
      case h_2 visited after walked =>
          exact (steps_walkHeapWith visitIh walked).trans (ih visited after o s' ran pending)

/-- What a run comes to, steps come to. -/
theorem steps_of_run (fuel : Nat) : Followed (Stage.run fuel) := by
  induction fuel with
  | zero =>
      refine followed_runWith ?_ 0
      intro code s o s' none
      cases none
  | succ fuel ih => exact followed_runWith ih (fuel + 1)

/-- A run without edits, if a replay of its steps meets none. -/
theorem lawfulSteps_of_run {fuel n : Nat} {script : Script} {o : Outcome} {s s' : Stage} {b : Scene}
    (ran : Stage.run fuel script s = some (o, s'))
    (replayed : replay Lawful n ⟨script, [], s⟩ = some b) (halted : b.step = none) :
    LawfulSteps ⟨script, [], s⟩ ⟨.done o, [], s'⟩ := by
  have steps : LawfulSteps ⟨script, [], s⟩ b := steps_of_replay replayed
  cases steps_unique (steps_of_run fuel script s o s' ran []) rfl steps.steps halted
  exact steps

end Scene

end GuestVM
