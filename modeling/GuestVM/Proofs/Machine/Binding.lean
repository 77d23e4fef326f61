import GuestVM.Bridge.Conversion
import GuestVM.Proofs.Machine.Defining

/-! # What procs, environments and calls do

Making procs, attaching environments, reading and writing them, and entering calls.  The one way to
write an environment goes through a proc that owns it, and the one way to attach one goes through a
proc that has none with values in it. -/
set_option autoImplicit false

namespace GuestVM

def HostType.ids : (t : HostType) → t.Carrier → List ObjId
  | .option _, none => []
  | .option t, some data => t.ids data
  | .list t, items => List.flatMap t.ids items
  | .value, v => Value.objects [v]
  | _, _ => []

namespace Machine

variable {m : Machine}

theorem procData?_eq_some {p : ObjId} {data : ProcData} :
    m.procData? p = some data ↔ ∃ o, m.object? p = some o ∧ o.body = .proc data := by
  constructor
  · intro found
    cases present : m.object? p with
    | none => simp [procData?, present] at found
    | some o =>
        refine ⟨o, rfl, ?_⟩
        obtain ⟨cls, frozen, ivars, body⟩ := o
        cases body with
        | proc other =>
            simp only [procData?, present, Option.some.injEq] at found
            rw [found]
        | _ => simp [procData?, present] at found
  · intro given
    obtain ⟨⟨cls, frozen, ivars, body⟩, present, rfl⟩ := given
    simp [procData?, present]

theorem env?_eq_some {e : ObjId} {values : Array Value} {isShared : Bool} :
    m.env? e = some (values, isShared) ↔
      ∃ o, m.object? e = some o ∧ o.body = .env values isShared := by
  constructor
  · intro found
    cases present : m.object? e with
    | none => simp [env?, present] at found
    | some o =>
        refine ⟨o, rfl, ?_⟩
        obtain ⟨cls, frozen, ivars, body⟩ := o
        cases body with
        | env other shared =>
            simp only [env?, present, Option.some.injEq, Prod.mk.injEq] at found
            rw [found.1, found.2]
        | _ => simp [env?, present] at found
  · intro given
    obtain ⟨⟨cls, frozen, ivars, body⟩, present, rfl⟩ := given
    simp [env?, present]

theorem proc_of_typeOf {id : ObjId} (typed : m.typeOf (.obj id) = .proc) :
    ∃ p, m.procData? id = some p := by
  obtain ⟨o, live⟩ := live_of_typeOf typed (by decide)
  rw [typeOf_obj live] at typed
  cases shape : o.body with
  | proc p => exact ⟨p, procData?_eq_some.mpr ⟨o, live, shape⟩⟩
  | «class» c => cases kind : c.kind <;> simp [Object.tag, shape, kind] at typed
  | _ => simp [Object.tag, shape] at typed

/-- The machine with the arena cut back. -/
def cut (m : Machine) (mark : Nat) : Machine := { m with heap := m.heap.arenaRestore mark }

@[simp] theorem object?_cut (mark : Nat) (x : ObjId) : (m.cut mark).object? x = m.object? x := rfl

end Machine

namespace Act

variable {α β : Type} {g : Grant} {m : Machine}

/-! ## Procs and environments -/

theorem does_procNew (body : ProcBody) (flags : ProcFlags) :
    Does g (procNew body flags) m fun id m' =>
      let o : Object := { cls := Builtin.proc.id, body := .proc { body := body, flags := flags } }
      id = m.newId o ∧ m' = m.withNew o := by
  refine does_alloc ⟨rfl, rfl, rfl, rfl⟩ ?_ (by nofun)
  intro x member
  obtain rfl : x = Builtin.proc.id := by
    simpa [Object.references, Body.references, SymMap.values, Value.objects] using member
  exact .builtin .proc

theorem does_envNew {values : List Value} (known : ∀ x ∈ Value.objects values, m.Known g x) :
    Does g (envNew values) m fun _ _ => True := by
  refine (does_alloc ⟨rfl, rfl, rfl⟩ ?_ (by nofun)).mono fun _ _ _ _ _ => trivial
  intro x member
  rcases List.mem_cons.mp member with rfl | member
  · exact .builtin .object
  · exact known x (by simpa [Body.references, SymMap.values, Value.objects] using member)

/-- Giving a proc another environment, without checks. -/
theorem does_setEnv {proc env : ObjId} (known : m.Known g env) (may : g.rebinds = some proc) :
    Does g (setEnv proc env) m fun _ _ => True := by
  refine (does_touch proc (Object.mapProc fun p =>
    { p with env := some env, flags := { p.flags with envSet := true } }) ?_).mono
      fun _ _ _ _ _ => trivial
  intro o _
  obtain ⟨cls, frozen, ivars, body⟩ := o
  cases body with
  | proc p =>
      refine .inr ⟨.rebind p env rfl may, ?_⟩
      intro x member
      rcases Object.mem_references_withBody member with old | new
      · exact .inl old
      · simp only [Body.references, Option.toList_some, List.mem_append, List.mem_singleton] at new
        rcases new with rfl | target
        · exact .inr known
        · exact .inl (Object.mem_references_of_body (List.mem_append_right _ target))
  | _ => exact .inl rfl

theorem does_inArenaScope {a : Act α} {post next : α → Machine → Prop} (does : Does g a m post)
    (ensured : ∀ x m', Evolution g m m' → m'.heap.Tidy → post x m' →
      next x (m'.cut m.heap.arenaSave)) : Does g (inArenaScope a) m next := by
  refine .of_ensures fun tidy => (does.ensures tidy).inArenaScope (fun x after inner => ?_)
    fun _ _ inner => ⟨inner.1.tail (.cutArena _), inner.2⟩
  exact ⟨inner.1.tail (.cutArena _), ensured x after inner.1 (inner.1.tidy tidy) inner.2⟩

/-- The proc gets a new environment; nothing else changes. -/
theorem does_attachEnv (proc : Value) {values : List Value}
    (known : ∀ x ∈ Value.objects values, m.Known g x) :
    Does g (attachEnv proc values) m fun _ m' =>
      ∃ id o p, proc = .obj id ∧ m.object? id = some o ∧ o.body = .proc p ∧
        m' = ((m.withNew (.env values.toArray)).put id
          { o with body := .proc (p.attached (m.newId (.env values.toArray))) }).cut
            m.heap.arenaSave := by
  unfold attachEnv
  by_cases isNil : proc.isNil = true
  · rw [if_pos isNil]
    exact does_fail_bind _ _ _ _
  rw [if_neg isNil]
  apply (does_expectProc proc).bind
  intro id m _ _ done
  obtain ⟨rfl, rfl, typed⟩ := done
  by_cases empty : values.isEmpty = true
  · rw [if_pos empty]
    exact does_fail_bind _ _ _ _
  rw [if_neg empty]
  apply Does.get_bind
  split
  · exact does_fail_bind _ _ _ _
  case isFalse bare =>
      obtain ⟨p, isProc⟩ := Machine.proc_of_typeOf typed
      obtain ⟨o, live, body⟩ := Machine.procData?_eq_some.mp isProc
      have none : m.attachedLen (.obj id) = 0 := Nat.eq_zero_of_not_pos bare
      refine does_inArenaScope (.of_tidy fun tidy => ?_) fun _ _ _ _ attached => attached
      have still : (m.withNew (.env values.toArray)).object? id = some o :=
        Machine.object?_withNew_of_live tidy _ live
      have ran : (do setEnv id (← envNew values)).run.run m =
          (.ok (), (m.withNew (.env values.toArray)).put id
            { o with body := .proc (p.attached (m.newId (.env values.toArray))) }) := by
        have put := Heap.modify_of_live
          (Object.mapProc (·.attached (m.newId (.env values.toArray)))) still
        simp only [Object.mapProc, body] at put
        exact congrArg (fun heap => ((.ok () : Except Halt Unit), { m with heap := heap })) put
      refine .of_run ran (.single (.attach id o p _ live body none ?_)) fun _ => ?_
      · simpa using known
      · exact ⟨id, o, p, rfl, live, body, rfl⟩

theorem does_ownedEnv (proc : ObjId) :
    Does g (ownedEnv proc) m fun env m' => m' = m ∧ m.procEnv proc = some env := by
  apply Does.get_bind
  dsimp only
  split
  · exact does_fail_bind _ _ _ _
  · split
    case h_1 env found => exact .pure ⟨rfl, found⟩
    case h_2 => exact does_fail _ _ _

theorem does_envPosition (env : ObjId) (index : Int64) :
    Does g (envPosition env index) m fun _ m' => m' = m := by
  apply Does.get_bind
  dsimp only
  split
  · exact does_fail_bind _ _ _ _
  · exact .pure rfl

theorem does_procEnvGet (proc : ObjId) (index : Int64) :
    Does g (procEnvGet proc index) m fun _ m' => m' = m := by
  refine .told_bind (does_ownedEnv proc) fun env _ => ?_
  exact .check_bind (does_envPosition env index) fun _ => .get_bind (.pure rfl)

theorem does_procEnvSet {proc : ObjId} (index : Int64) (v : Value)
    (handed : ∀ x ∈ Value.objects [v], x ∈ g.ids) (may : g.owner = some proc) :
    Does g (procEnvSet proc index v) m fun _ _ => True := by
  refine .told_bind (does_ownedEnv proc) fun env owned => ?_
  refine .check_bind (does_envPosition env index) fun position => ?_
  refine (does_touch env _ ?_).mono fun _ _ _ _ _ => trivial
  intro o _
  obtain ⟨cls, frozen, ivars, body⟩ := o
  cases body with
  | env values isShared =>
      refine .inr ⟨.write proc values _ isShared rfl Array.size_setIfInBounds may owned, ?_⟩
      intro x member
      rcases Object.mem_references_withBody member with old | new
      · exact .inl old
      · have inside := Array.mem_toList_iff.mp (Value.mem_objects.mp new)
        rcases Array.mem_or_eq_of_mem_setIfInBounds inside with kept | given
        · refine .inl (Object.mem_references_of_body ?_)
          exact Value.mem_objects.mpr (Array.mem_toList_iff.mpr kept)
        · exact .inr (.handed (handed x (by simp [Value.mem_objects, given])))
  | _ => exact .inl rfl

theorem does_ownEnvGet (index : Int64) : Does g (ownEnvGet index) m fun _ m' => m' = m := by
  apply Does.get_bind
  split
  · exact does_procEnvGet _ index
  · exact does_fail _ _ _

theorem does_envOwner (proc : Value) :
    Does g (envOwner proc) m fun id m' => m' = m ∧ proc = .obj id := by
  apply Does.get_bind
  cases proc with
  | obj id =>
      dsimp only
      split
      · exact .pure ⟨rfl, rfl⟩
      · exact does_fail _ _ _
  | _ => exact does_fail _ _ _

theorem does_envGet (proc : Value) (index : Int64) :
    Does g (envGet proc index) m fun _ m' => m' = m := by
  exact .told_bind (does_envOwner proc) fun id _ => does_procEnvGet id index

theorem does_envSet {proc : Value} (index : Int64) (v : Value)
    (handed : ∀ x ∈ Value.objects [v], x ∈ g.ids) (may : g.owner = proc.asObj) :
    Does g (envSet proc index v) m fun _ _ => True := by
  refine .told_bind (does_envOwner proc) fun id owner => ?_
  subst owner
  exact does_procEnvSet index v handed may

/-! ## Calls -/

theorem does_enter (frame : Frame) (known : ∀ x ∈ frame.references, m.Known g x) :
    Does g (enter frame) m fun _ _ => True := by
  apply Does.get_bind
  dsimp only
  split
  · exact does_fail_bind _ _ _ _
  case isFalse room =>
      split
      case h_1 p isProc =>
          refine .of_run rfl (.single (.enter frame p isProc (Nat.lt_of_not_le room) known))
            fun _ => trivial
      case h_2 => exact does_fail _ _ _

theorem does_enterMethod {receiver block : Value} (mid : Sym) {args : List Value}
    (handed : ∀ x ∈ Value.objects (receiver :: block :: args), x ∈ g.ids) :
    Does g (enterMethod receiver mid args block) m fun _ _ => True := by
  apply Does.get_bind
  dsimp only
  split
  · exact does_fail_bind _ _ _ _
  refine (does_ofOption _).bind ?_
  rintro found _ _ _ ⟨climbed, rfl⟩
  cases found with
  | none => exact (does_ofOption _).bind fun _ _ _ _ _ => does_fail _ _ _
  | some method =>
      dsimp only
      split
      · exact does_fail_bind _ _ _ _
      apply does_enter _
      intro x member
      rcases List.mem_cons.mp member with rfl | member
      · exact .held (Machine.holds_of_findMethod (Machine.findMethod?_eq_some climbed))
      · exact .handed (handed x member)

theorem does_enterProc {proc self : Value} {args : List Value}
    (handed : ∀ x ∈ Value.objects (proc :: self :: args), x ∈ g.ids) :
    Does g (enterProc proc self args) m fun _ _ => True := by
  apply (does_expectProc proc).bind
  intro id _ _ _ done
  obtain ⟨rfl, rfl, -⟩ := done
  apply does_enter _
  intro x member
  simp only [Frame.references, List.mem_cons, Value.mem_objects] at member handed
  rcases member with rfl | rfl | none | argument
  · exact .handed (handed _ (.inl rfl))
  · exact .handed (handed x (.inr (.inl rfl)))
  · cases none
  · exact .handed (handed x (.inr (.inr argument)))

/-! ## Conversions -/

/-- A new object, as a value, is alive. -/
private theorem alive_new (tidy : m.heap.Tidy) (o : Object) :
    ∀ x ∈ Value.objects [.obj (m.newId o)], (m.withNew o).Live x := by
  intro x member
  obtain rfl := Value.obj.inj (List.mem_singleton.mp (Value.mem_objects.mp member))
  exact Machine.live_newId tidy o

private theorem does_textValue (s : String) :
    Does g (textValue s) m fun v m' => ∀ x ∈ Value.objects [v], m'.Live x := by
  refine .of_tidy fun tidy => (does_stringNew _).mono ?_
  intro _ _ _ _ done
  obtain ⟨rfl, rfl⟩ := done
  exact alive_new tidy _

private theorem does_listValue {items : List Value}
    (alive : ∀ x ∈ Value.objects items, m.Live x) :
    Does g (arrayNew items) m fun v m' => ∀ x ∈ Value.objects [v], m'.Live x := by
  refine .of_tidy fun tidy => (does_arrayNew fun x member => .alive (alive x member)).mono ?_
  intro _ _ _ _ done
  obtain ⟨rfl, rfl⟩ := done
  exact alive_new tidy _

private theorem objects_cons {v : Value} {vs : List Value} {x : ObjId}
    (member : x ∈ Value.objects (v :: vs)) : x ∈ Value.objects [v] ∨ x ∈ Value.objects vs := by
  simpa [Value.mem_objects] using member

mutual

theorem does_documentValue (quiet : g.sweeps = false) (keeps : g.drops = none) :
    ∀ (d : Document) (m : Machine),
      Does g (documentValue d) m fun v m' => ∀ x ∈ Value.objects [v], m'.Live x
  | .null, m => .pure fun x none => nomatch none
  | .bool _, m => .pure fun x none => nomatch none
  | .int n, m => .pure fun x member => by
      unfold integerValue at member
      split at member <;> cases member
  | .float _, m => .pure fun x none => nomatch none
  | .str s, m => does_textValue s
  | .arr items, m => (does_documentValues quiet keeps items m).bind fun _ _ _ _ alive =>
      does_listValue alive
  | .obj members, m => by
      refine .of_tidy fun tidy => does_hashNew.bind ?_
      intro _ m₁ _ tidy₁ done
      obtain ⟨rfl, rfl⟩ := done
      have alive := alive_new tidy { cls := Builtin.hash.id, body := .hash .empty }
      apply (does_putMembers quiet keeps _ members _).bind
      intro _ m₂ evolution _ _
      exact .pure fun x member => evolution.live tidy₁ quiet (alive x member)

theorem does_documentValues (quiet : g.sweeps = false) (keeps : g.drops = none) :
    ∀ (ds : List Document) (m : Machine),
      Does g (documentValues ds) m fun vs m' => ∀ x ∈ Value.objects vs, m'.Live x
  | [], m => .pure fun x none => nomatch none
  | d :: rest, m => by
      apply (does_documentValue quiet keeps d m).bind
      intro v m₁ _ tidy₁ alive
      apply (does_documentValues quiet keeps rest m₁).bind
      intro vs m₂ evolution _ alive'
      refine .pure fun x member => ?_
      rcases objects_cons member with head | tail
      · exact evolution.live tidy₁ quiet (alive x head)
      · exact alive' x tail

theorem does_putMembers (quiet : g.sweeps = false) (keeps : g.drops = none) (h : Value) :
    ∀ (members : List (String × Document)) (m : Machine),
      Does g (putMembers h members) m fun _ _ => True
  | [], m => .pure trivial
  | (name, d) :: rest, m => by
      apply (does_textValue name).bind
      intro key m₁ _ tidy₁ aliveKey
      apply (does_documentValue quiet keeps d m₁).bind
      intro v m₂ evolution _ aliveValue
      have set := does_hashSet (g := g) (m := m₂) h key v keeps fun x member => by
        rcases objects_cons member with isKey | isValue
        · exact .inr (evolution.live tidy₁ quiet (aliveKey x isKey))
        · exact .inr (aliveValue x isValue)
      refine set.attempt_any.bind ?_
      intro _ m₃ _ _ _
      exact does_putMembers quiet keeps h rest m₃

end

/-- What comes of host data names what the data name, or new objects. -/
theorem does_intoGuest (quiet : g.sweeps = false) (keeps : g.drops = none) :
    ∀ (t : HostType) (data : t.Carrier), (∀ x ∈ t.ids data, x ∈ g.ids) → ∀ m : Machine,
      Does g (intoGuest t data) m fun v m' => ∀ x ∈ Value.objects [v], x ∈ g.ids ∨ m'.Live x
  | .unit, _, _, _ => .pure fun x none => nomatch none
  | .bool, _, _, _ => .pure fun x none => nomatch none
  | .int64, _, _, _ => .pure fun x none => nomatch none
  | .int32, _, _, _ => .pure fun x none => nomatch none
  | .size, _, _, _ => .pure fun x none => nomatch none
  | .float, _, _, _ => .pure fun x none => nomatch none
  | .text, s, _, _ => (does_textValue s).mono fun _ _ _ _ alive x member => .inr (alive x member)
  | .option _, none, _, _ => .pure fun x none => nomatch none
  | .option t, some data, handed, m => does_intoGuest quiet keeps t data handed m
  | .document, d, _, m =>
      (does_documentValue quiet keeps d m).mono fun _ _ _ _ alive x member => .inr (alive x member)
  | .value, v, handed, _ => .pure fun x member => .inl (handed x member)
  | .list t, items, handed, m => by
      have each : ∀ (items : List t.Carrier), (∀ x ∈ items.flatMap t.ids, x ∈ g.ids) →
          ∀ m : Machine, Does g (List.mapM (intoGuest t) items) m fun vs m' =>
            ∀ x ∈ Value.objects vs, x ∈ g.ids ∨ m'.Live x := by
        intro items
        induction items with
        | nil => exact fun _ _ => .pure fun x none => nomatch none
        | cons item rest ih =>
            intro handed m
            rw [List.mapM_cons]
            refine (does_intoGuest quiet keeps t item (fun x member => handed x ?_) m).bind ?_
            · exact List.mem_append_left _ member
            intro v m₁ _ tidy₁ known
            refine (ih (fun x member => handed x (List.mem_append_right _ member)) m₁).bind ?_
            intro vs m₂ evolution _ known'
            refine .pure fun x member => ?_
            rcases objects_cons member with head | tail
            · exact (known x head).imp_right (evolution.live tidy₁ quiet)
            · exact known' x tail
      refine (each items handed m).bind ?_
      intro vs m₁ _ tidy₁ known
      refine (does_arrayNew fun x member => ?_).mono ?_
      · exact (known x member).elim .handed .alive
      · intro _ _ _ _ done
        obtain ⟨rfl, rfl⟩ := done
        exact fun x member => .inr (alive_new tidy₁ _ x member)

end Act

end GuestVM
