import GuestVM.Bridge.Typed
import GuestVM.Machine.Calls
import GuestVM.Machine.Ranges
import GuestVM.Proofs.Machine.Raising

/-! # What operations that raise leave

An operation that raises makes an exception and makes it the current one.  `Machine.Spared` says
that nothing else has happened since the operation began, but for names that were interned, and
`Act.Spares` says it of every exit by which an action raises.

Operations check and then write.  A check that is passed has changed nothing, so whatever a later
check raises is judged from where the operation began; and what follows the last check raises
nothing, which is `Act.Unraised`. -/
set_option autoImplicit false

namespace GuestVM

def SymbolTable.internAll (t : SymbolTable) (names : List String) : SymbolTable :=
  names.foldl (fun t name => (t.intern name).2) t

namespace Machine

variable {m m' : Machine} {e : Raised}

def interning (m : Machine) (names : List String) : Machine :=
  { m with symbols := m.symbols.internAll names }

/-- The machine with a new object, which is the current exception. -/
def raising (m : Machine) (o : Object) : Machine := { m.withNew o with exc := some (m.newId o) }

/-- Names were interned, and then an exception was made and raised. -/
def Spared (m : Machine) (e : Raised) (m' : Machine) : Prop :=
  ∃ names c, let o : Object := { cls := c, body := .exception e.message }
    m' = (m.interning names).raising o ∧ e.value = .obj (m.newId o)

theorem Spared.of_interning {names : List String} (spared : (m.interning names).Spared e m') :
    m.Spared e m' := by
  obtain ⟨more, c, same, value⟩ := spared
  refine ⟨names ++ more, c, ?_, value⟩
  rw [same]
  simp only [interning, SymbolTable.internAll, List.foldl_append]

/-- What a machine is after an exception, which is all that is new. -/
structure Unharmed (m : Machine) (e : Raised) (m' : Machine) (id : ObjId) : Prop where
  value : e.value = .obj id
  dead : m.object? id = none
  made : ∃ c, m'.object? id = some { cls := c, body := .exception e.message }
  /-- Classes, flags, instance variables and bodies of all other objects are what they were, and
  nothing else has come to life. -/
  objects : ∀ x, x ≠ id → m'.object? x = m.object? x
  count : m'.heap.live = m.heap.live + 1
  arena : m'.heap.arena = m.heap.arena.push id
  current : m'.exc = some id
  symbols : ∃ names, m'.symbols = m.symbols.internAll names
  /-- All the rest: the globals, the running calls, the settings, and the state of the collector. -/
  rest : { m' with
      heap := { m'.heap with
        slots := m.heap.slots, free := m.heap.free, arena := m.heap.arena, live := m.heap.live }
      symbols := m.symbols
      exc := m.exc } = m

theorem Spared.unharmed (spared : m.Spared e m') (tidy : m.heap.Tidy) :
    ∃ id, m.Unharmed e m' id := by
  obtain ⟨names, c, same, value⟩ := spared
  generalize born : ({ cls := c, body := .exception e.message } : Object) = o at same value
  subst same
  have objects : ∀ x, ((m.interning names).raising o).object? x =
      if x = m.newId o then some o else m.object? x :=
    object?_withNew (m := m.interning names) tidy o
  refine ⟨m.newId o, ?_⟩
  constructor
  case value => exact value
  case dead => exact newId_dead tidy o
  case made => exact ⟨c, by rw [objects, if_pos rfl, born]⟩
  case objects => exact fun x apart => by rw [objects, if_neg apart]
  case count => exact Heap.alloc_live m.heap o
  case arena => exact Heap.alloc_arena m.heap o
  case current => rfl
  case symbols => exact ⟨names, rfl⟩
  case rest =>
    exact congrArg (fun heap : Heap => { m with heap }) (Heap.alloc_rest m.heap o)

/-- Of the objects that lived only the one that `v` is may have changed. -/
def OnlyIn (m : Machine) (v : Value) (m' : Machine) : Prop :=
  ∀ x o, v ≠ .obj x → m.object? x = some o → m'.object? x = some o

theorem OnlyIn.refl (m : Machine) (v : Value) : m.OnlyIn v m := fun _ _ _ => id

theorem OnlyIn.modify (m : Machine) (id : ObjId) (f : Object → Object) :
    m.OnlyIn (.obj id) { m with heap := m.heap.modify id f } := by
  intro x o other present
  have apart : x ≠ id := fun same => other (same ▸ rfl)
  rw [object?_modify, if_neg apart, present]

end Machine

namespace Act

variable {α β : Type} {m : Machine} {post : α → Machine → Prop}

theorem run_intern (name : String) :
    (intern name).run.run m = (.ok (m.symbols.intern name).1, m.interning [name]) := rfl

/-- Where the action raises it leaves the machine as it was, but for the exception; a result is as
`post` says. -/
def Spares (a : Act α) (m : Machine) (post : α → Machine → Prop) : Prop :=
  m.heap.Tidy →
    match a.run.run m with
    | (.ok x, m') => post x m'
    | (.error (.raised e), m') => m.Spared e m'
    | (.error .endless, _) => True

/-- Whatever comes of the action is no exception. -/
def Unraised (a : Act α) (m : Machine) : Prop :=
  ∀ e m', a.run.run m ≠ (.error (.raised e), m')

/-! ## What raises nothing -/

namespace Unraised

theorem of_run {a : Act α} {x : α} {m' : Machine} (ran : a.run.run m = (.ok x, m')) :
    Unraised a m := by
  intro e last raised
  rw [ran] at raised
  cases raised

protected theorem pure (x : α) : Unraised (pure x) m := of_run rfl

protected theorem bind {a : Act α} {b : α → Act β} (first : Unraised a m)
    (rest : ∀ x m', a.run.run m = (.ok x, m') → Unraised (b x) m') : Unraised (a >>= b) m := by
  intro e last raised
  rw [run_bind] at raised
  rcases ran : a.run.run m with ⟨(e' | _) | x, middle⟩
  · exact first e' middle ran
  · rw [ran] at raised
    cases raised
  · rw [ran] at raised
    exact rest x middle ran e last raised

theorem get_bind {f : Machine → Act β} (rest : Unraised (f m) m) :
    Unraised ((get : Act Machine) >>= f) m := rest

theorem inArenaScope {a : Act α} (unraised : Unraised a m) : Unraised (inArenaScope a) m := by
  intro e last raised
  rw [run_inArenaScope] at raised
  exact unraised e (a.run.run m).2 (Prod.ext (Prod.ext_iff.mp raised).1 rfl)

end Unraised

theorem unraised_alloc (o : Object) : Unraised (alloc o) m := .of_run rfl

theorem unraised_intern (name : String) : Unraised (intern name) m := .of_run rfl

theorem unraised_onHeap (f : Heap → Heap) : Unraised (onHeap f) m := .of_run rfl

theorem unraised_putConst (c : ObjId) (s : Sym) (v : Value) : Unraised (putConst c s v) m :=
  .of_run rfl

theorem unraised_newClass (name : String) (superclass : Option ObjId) (kind : ClassKind) :
    Unraised (newClass name superclass kind) m := by
  unfold newClass
  dsimp only
  split
  · exact unraised_alloc _
  · exact (Unraised.bind (unraised_intern name) fun _ _ _ => .pure _).bind fun _ _ _ =>
      unraised_alloc _

/-! ## What raises at its checks only -/

namespace Spares

variable {a : Act α}

theorem ensures (spares : Spares a m post) (tidy : m.heap.Tidy) : Ensures a m post m.Spared :=
  spares tidy

theorem of_ensures (ensures : m.heap.Tidy → Ensures a m post m.Spared) : Spares a m post := ensures

theorem of_unraised (unraised : Unraised a m) : Spares a m fun _ _ => True :=
  of_ensures fun _ => ensures_iff.mpr ⟨fun _ _ _ => trivial, fun e m' ran =>
    (unraised e m' ran).elim⟩

theorem of_tidy (spares : m.heap.Tidy → Spares a m post) : Spares a m post :=
  fun tidy => spares tidy tidy

theorem mono {weaker : α → Machine → Prop} (spares : Spares a m post)
    (weaken : ∀ x m', post x m' → weaker x m') : Spares a m weaker :=
  of_ensures fun tidy => (spares.ensures tidy).mono weaken fun _ _ spared => spared

theorem any (spares : Spares a m post) : Spares a m fun _ _ => True :=
  spares.mono fun _ _ _ => trivial

theorem of_run {x : α} {m' : Machine} (ran : a.run.run m = (.ok x, m')) (told : post x m') :
    Spares a m post := by
  intro _
  rw [ran]
  exact told

protected theorem pure {x : α} (told : post x m) : Spares (pure x) m post := .of_run rfl told

theorem get_bind {f : Machine → Act β} {next : β → Machine → Prop} (rest : Spares (f m) m next) :
    Spares ((get : Act Machine) >>= f) m next := rest

/-- What comes after a check is judged from where the check was, and may use what it told. -/
theorem told_bind {told : α → Prop} {b : α → Act β} {next : β → Machine → Prop}
    (check : Spares a m fun x m' => m' = m ∧ told x) (rest : ∀ x, told x → Spares (b x) m next) :
    Spares (a >>= b) m next := by
  refine of_ensures fun tidy => (check.ensures tidy).bind fun x after passed => ?_
  obtain ⟨rfl, tells⟩ := passed
  exact (rest x tells).ensures tidy

theorem check_bind {b : α → Act β} {next : β → Machine → Prop}
    (check : Spares a m fun _ m' => m' = m) (rest : ∀ x, Spares (b x) m next) :
    Spares (a >>= b) m next :=
  told_bind (check.mono fun _ _ same => ⟨same, trivial⟩) fun x _ => rest x

/-- What never has a result is followed by nothing. -/
theorem bind_none {b : α → Act β} {next : β → Machine → Prop}
    (first : Spares a m fun _ _ => False) : Spares (a >>= b) m next :=
  of_ensures fun tidy => (first.ensures tidy).bind fun _ _ never => never.elim

theorem intern_bind {name : String} {b : Sym → Act β} {next : β → Machine → Prop}
    (rest : ∀ s, Spares (b s) (m.interning [name]) next) : Spares (intern name >>= b) m next :=
  of_ensures fun tidy => ((rest (m.symbols.intern name).1).ensures tidy).mono
    (fun _ _ told => told) fun _ _ spared => spared.of_interning

theorem throwing {make : Act Raised} (made : Spares make m fun e m' => m.Spared e m') :
    Spares (Act.throwing make : Act α) m post :=
  of_ensures fun tidy => (made.ensures tidy).throwing

end Spares

/-- An exception that is made and raised is all that is new. -/
theorem spares_raise (c : ObjId) (message : String) :
    Spares (raise c message) m fun e m' => m.Spared e m' := by
  intro tidy
  generalize born : ({ cls := c, body := .exception message } : Object) = o
  have typed : (m.withNew o).typeOf (.obj (m.newId o)) = .exception :=
    born ▸ exception_new tidy c message
  have told : (m.raising o).exceptionMessage (.obj (m.newId o)) = message := by
    have present : (m.raising o).object? (m.newId o) = some o :=
      (Machine.object?_withNew tidy o _).trans (if_pos rfl)
    have body : o.body = .exception message := born ▸ rfl
    simp [Machine.exceptionMessage, Machine.body?, Value.asObj, present, body]
  have made : (exceptionNew c message).run.run m = (.ok (.obj (m.newId o)), m.withNew o) := by
    rw [← born]
    rfl
  have raised : (exceptionRaise (.obj (m.newId o))).run.run (m.withNew o) =
      (do
        let name ← ofOption ((m.raising o).realClassName (.obj (m.newId o)))
        return (⟨.obj (m.newId o), name,
          (m.raising o).exceptionMessage (.obj (m.newId o))⟩ : Raised) : Act Raised).run.run
        (m.raising o) := (run_exceptionRaise_of_exception typed).trans (run_announce _)
  unfold raise
  rw [run_ok_bind made, raised, told]
  cases (m.raising o).realClassName (.obj (m.newId o)) with
  | none => trivial
  | some name =>
      refine ⟨[], c, ?_⟩
      rw [← born]
      exact ⟨rfl, rfl⟩

theorem spares_fail (b : Builtin) (message : String) : Spares (fail b message : Act α) m post :=
  .throwing (spares_raise b.id message)

theorem spares_fail_bind {next : β → Machine → Prop} (b : Builtin) (message : String)
    (rest : α → Act β) : Spares (fail b message >>= rest) m next :=
  .bind_none (spares_fail b message)

/-! ## Checks -/

theorem spares_ofOption_told (o : Option α) :
    Spares (ofOption o) m fun x m' => m' = m ∧ o = some x := by
  cases o with
  | none => exact fun _ => trivial
  | some x => exact .pure ⟨rfl, rfl⟩

theorem spares_ofOption (o : Option α) : Spares (ofOption o) m fun _ m' => m' = m :=
  (spares_ofOption_told o).mono fun _ _ told => told.1

theorem spares_describe (v : Value) : Spares (describe v) m fun _ m' => m' = m :=
  .get_bind (spares_ofOption _)

theorem spares_describe_fail (b : Builtin) (v : Value) (text : String → String) :
    Spares (do fail b (text (← describe v)) : Act α) m post :=
  .check_bind (spares_describe v) fun _ => spares_fail b _

theorem spares_frozenError (v : Value) : Spares (frozenError v) m fun e m' => m.Spared e m' :=
  .get_bind (.check_bind (spares_ofOption _) fun _ => spares_raise _ _)

theorem spares_checkFrozen (v : Value) : Spares (checkFrozen v) m fun _ m' => m' = m := by
  refine .get_bind ?_
  split
  · exact .throwing (spares_frozenError v)
  · exact .pure rfl

theorem spares_expecting (accepts : ValueType → Prop) [DecidablePred accepts]
    (complaint : String → String) (v : Value) :
    Spares (expecting accepts complaint v) m fun id m' =>
      m' = m ∧ v = .obj id ∧ accepts (m.typeOf v) := by
  refine .get_bind ?_
  cases v with
  | obj id =>
      simp only [Value.asObj]
      split
      case isTrue typed => exact .pure ⟨rfl, rfl, typed⟩
      case isFalse => exact spares_describe_fail _ _ _
  | _ => exact spares_describe_fail _ _ _

theorem spares_expectType_typed (v : Value) (t : ValueType) :
    Spares (expectType v t) m fun id m' => m' = m ∧ v = .obj id ∧ m.typeOf v = t :=
  expectType_eq v t ▸ spares_expecting (· = t) _ v

theorem spares_expectType (v : Value) (t : ValueType) :
    Spares (expectType v t) m fun id m' => m' = m ∧ v = .obj id :=
  (spares_expectType_typed v t).mono fun _ _ told => ⟨told.1, told.2.1⟩

theorem spares_expectClass_typed (v : Value) :
    Spares (expectClass v) m fun id m' =>
      m' = m ∧ v = .obj id ∧ (m.typeOf v).isClassLike = true :=
  expectClass_eq v ▸ spares_expecting (·.isClassLike = true) _ v

theorem spares_expectClass (v : Value) : Spares (expectClass v) m fun _ m' => m' = m :=
  (spares_expectClass_typed v).mono fun _ _ told => told.1

theorem spares_expectProc (v : Value) : Spares (expectProc v) m fun _ m' => m' = m :=
  expectProc_eq v ▸ (spares_expecting (· = .proc) _ v).mono fun _ _ told => told.1

/-! ## Reading -/

theorem spares_arrayItems (a : Value) : Spares (arrayItems a) m fun _ m' => m' = m :=
  .told_bind (spares_expectType a .array) fun _ _ => .get_bind (.pure rfl)

theorem spares_arrayLen (a : Value) : Spares (arrayLen a) m fun _ m' => m' = m :=
  .check_bind (spares_arrayItems a) fun _ => .pure rfl

theorem spares_arrayGet (a : Value) (index : Int64) :
    Spares (arrayGet a index) m fun _ m' => m' = m :=
  .check_bind (spares_arrayItems a) fun _ => .pure rfl

theorem spares_arrayValues (a : Value) : Spares (arrayValues a) m fun _ m' => m' = m :=
  .check_bind (spares_arrayItems a) fun _ => .pure rfl

theorem spares_itemOr (a : ObjId) (index : Int64) (default : Value) :
    Spares (itemOr a index default) m fun _ m' => m' = m := by
  refine .check_bind (spares_arrayLen _) fun len => ?_
  split
  · exact .pure rfl
  · exact spares_arrayGet _ _

theorem spares_stringBytes (s : Value) : Spares (stringBytes s) m fun _ m' => m' = m :=
  .told_bind (spares_expectType s .string) fun _ _ => .get_bind (.pure rfl)

theorem spares_stringText (s : Value) : Spares (stringText s) m fun _ m' => m' = m :=
  .check_bind (spares_stringBytes s) fun _ => .pure rfl

theorem spares_stringLen (s : Value) : Spares (stringLen s) m fun _ m' => m' = m :=
  .check_bind (spares_stringBytes s) fun _ => .pure rfl

theorem spares_hashTable (h : Value) : Spares (hashTable h) m fun _ m' => m' = m :=
  .told_bind (spares_expectType h .hash) fun _ _ => .get_bind (.pure rfl)

theorem spares_hashGet (h key : Value) : Spares (hashGet h key) m fun _ m' => m' = m :=
  .check_bind (spares_hashTable h) fun _ => .get_bind (.pure rfl)

theorem spares_fetch (h : ObjId) (key : Value) : Spares (fetch h key) m fun _ m' => m' = m := by
  refine .check_bind (spares_hashGet _ _) fun found => ?_
  split
  · exact .pure rfl
  · exact spares_describe_fail _ key _

theorem spares_hashLen (h : Value) : Spares (hashLen h) m fun _ m' => m' = m :=
  .check_bind (spares_hashTable h) fun _ => .pure rfl

theorem spares_hashEntries (h : Value) : Spares (hashEntries h) m fun _ m' => m' = m :=
  .check_bind (spares_hashTable h) fun _ => .pure rfl

theorem spares_hashKeys (h : Value) : Spares (hashKeys h) m fun _ m' => m' = m :=
  .check_bind (spares_hashEntries h) fun _ => .pure rfl

theorem spares_hashValues (h : Value) : Spares (hashValues h) m fun _ m' => m' = m :=
  .check_bind (spares_hashEntries h) fun _ => .pure rfl

theorem spares_rangeData (r : Value) : Spares (rangeData r) m fun _ m' => m' = m := by
  refine .told_bind (spares_expectType r .range) fun _ _ => .get_bind ?_
  split
  · exact .pure rfl
  · exact .pure rfl

theorem spares_rangeSpan (r : Value) (len : Int64) (trunc : Bool) :
    Spares (rangeSpan r len trunc) m fun _ m' => m' = m := by
  refine .check_bind (spares_rangeData r) fun data => ?_
  split
  · split
    · exact .pure rfl
    · exact spares_describe_fail _ r _
  · exact spares_fail _ _

/-! ## Containers -/

theorem spares_setBody {v : Value} {id : ObjId} (isObj : v = .obj id) (b : Body) :
    Spares (setBody id b) m fun _ m' => m.OnlyIn v m' :=
  .of_run rfl (isObj ▸ .modify m id _)

/-- Operations that change a container look at its type and then at its flag. -/
theorem spares_checked {v : Value} {t : ValueType} {rest : ObjId → Act α}
    (spares : ∀ id, v = .obj id → Spares (rest id) m post) :
    Spares (expectType v t >>= fun id => checkFrozen v >>= fun _ => rest id) m post :=
  .told_bind (spares_expectType v t) fun id isObj =>
    .check_bind (spares_checkFrozen v) fun _ => spares id isObj

theorem spares_arraySet (a : Value) (index : Int64) (v : Value) :
    Spares (arraySet a index v) m fun _ m' => m.OnlyIn a m' := by
  refine spares_checked fun id isObj => .get_bind ?_
  dsimp only
  split
  · exact spares_fail_bind _ _ _
  split
  · exact spares_fail_bind _ _ _
  · exact spares_setBody isObj _

theorem spares_arrayPush (a v : Value) : Spares (arrayPush a v) m fun _ m' => m.OnlyIn a m' := by
  refine spares_checked fun id isObj => .get_bind ?_
  dsimp only
  split
  · exact spares_fail_bind _ _ _
  · exact spares_setBody isObj _

theorem spares_stringAppend (s : Value) (tail : String) :
    Spares (stringAppend s tail) m fun _ m' => m.OnlyIn s m' :=
  spares_checked fun _ isObj => .get_bind (spares_setBody isObj _)

/-- The copy that is stored of a string. -/
def copyOf (m : Machine) (key : Value) : Object :=
  { cls := Builtin.string.id, body := .string (m.bytes key) }

theorem run_storedKey_copied {key : Value} (copied : m.typeOf key = .string ∧ !m.isFrozen key) :
    (storedKey key).run.run m = (.ok (.obj (m.newId (copyOf m key))), { m.withNew (copyOf m key) with
      heap := (m.withNew (copyOf m key)).heap.modify (m.newId (copyOf m key)) fun o =>
        { o with frozen := true } }) := by
  unfold storedKey
  rw [run_get_bind, if_pos copied]
  rfl

theorem run_storedKey_asIs {key : Value} (asIs : ¬ (m.typeOf key = .string ∧ !m.isFrozen key)) :
    (storedKey key).run.run m = (.ok key, m) := by
  unfold storedKey
  rw [run_get_bind, if_neg asIs]
  rfl

/-- To store a key takes at most a new string. -/
theorem run_storedKey (tidy : m.heap.Tidy) (key : Value) :
    ∃ stored m', (storedKey key).run.run m = (.ok stored, m') ∧
      ∀ x o, m.object? x = some o → m'.object? x = some o := by
  by_cases copied : m.typeOf key = .string ∧ !m.isFrozen key
  · refine ⟨_, _, run_storedKey_copied copied, fun x o present => ?_⟩
    have apart : x ≠ m.newId (copyOf m key) := by
      rintro rfl
      rw [Machine.newId_dead tidy] at present
      cases present
    rw [Machine.object?_modify, if_neg apart, Machine.object?_withNew tidy, if_neg apart, present]
  · exact ⟨key, m, run_storedKey_asIs copied, fun _ _ => id⟩

theorem spares_hashSet (h key v : Value) :
    Spares (hashSet h key v) m fun _ m' => m.OnlyIn h m' := by
  refine spares_checked fun id isObj => .of_tidy fun tidy => ?_
  obtain ⟨stored, middle, ran, kept⟩ := run_storedKey tidy key
  have filled : (do
      let key ← storedKey key
      let m ← get
      setBody id (.hash ((m.table h).insert (m.hashKey key) key v)) : Act Unit).run.run m =
      (setBody id (.hash ((middle.table h).insert (middle.hashKey stored) stored v))).run.run
        middle := by
    rw [run_bind, ran]
    exact run_get_bind _
  subst isObj
  refine .of_run filled fun x o other present => ?_
  exact Machine.OnlyIn.modify middle id _ x o other (kept x o present)

theorem spares_hashDelete (h key : Value) :
    Spares (hashDelete h key) m fun _ m' => m.OnlyIn h m' := by
  refine spares_checked fun id isObj => .get_bind ?_
  subst isObj
  exact .of_run rfl (.modify m id _)

theorem spares_hashClear (h : Value) : Spares (hashClear h) m fun _ m' => m.OnlyIn h m' :=
  spares_checked fun _ isObj => spares_setBody isObj _

/-! ## Definitions -/

theorem spares_ivarSet (target : Value) (name : String) (v : Value) :
    Spares (ivarSet target name v) m fun _ _ => True := by
  cases target with
  | obj id =>
      refine .check_bind (spares_checkFrozen _) fun _ => .intern_bind fun s => ?_
      exact .of_unraised (unraised_onHeap _)
  | _ => exact spares_fail _ _

theorem spares_constSet (c : ObjId) (name : String) (v : Value) :
    Spares (constSet c name v) m fun _ _ => True := by
  refine .check_bind (spares_expectClass _) fun _ => ?_
  refine .check_bind (spares_checkFrozen _) fun _ => .intern_bind fun s => ?_
  exact .of_unraised (unraised_putConst c s v)

theorem spares_defineModule (outer : ObjId) (name : String) :
    Spares (defineModule outer name) m fun _ _ => True := by
  refine .intern_bind fun s => .get_bind ?_
  split
  case h_1 bound _ =>
      dsimp only
      split
      · exact spares_fail_bind _ _ _
      · exact (spares_expectClass bound).any
  case h_2 =>
      refine .of_unraised ((unraised_newClass name none .module).bind fun id _ _ => ?_)
      exact (unraised_putConst outer s _).bind fun _ _ _ => .pure _

theorem spares_defineMethod (c : ObjId) (mid : Sym) (method : Method) :
    Spares (defineMethod c mid method) m fun _ _ => True := by
  refine .check_bind (spares_expectClass _) fun _ => ?_
  refine .check_bind (spares_checkFrozen _) fun _ => .of_unraised ?_
  exact (unraised_onHeap _).bind fun _ _ _ => unraised_onHeap _

theorem spares_missingMethod (c : ObjId) (mid : Sym) :
    Spares (missingMethod c mid : Act α) m post :=
  .get_bind (.check_bind (spares_ofOption _) fun _ => spares_fail _ _)

theorem spares_undefMethod (c : ObjId) (mid : Sym) :
    Spares (undefMethod c mid) m fun _ _ => True := by
  refine .check_bind (spares_checkFrozen _) fun _ => .get_bind ?_
  split
  · exact .of_unraised (unraised_onHeap _)
  · exact spares_missingMethod c mid

theorem spares_aliasMethod (c : ObjId) (new old : Sym) :
    Spares (aliasMethod c new old) m fun _ _ => True := by
  refine .get_bind (.check_bind (spares_ofOption _) fun found => ?_)
  cases found with
  | some method => exact spares_defineMethod c new method
  | none => exact spares_missingMethod c old

theorem spares_objectNew (c : ObjId) : Spares (objectNew c) m fun _ _ => True := by
  refine .get_bind ?_
  dsimp only
  split
  · exact spares_fail_bind _ _ _
  · exact .of_unraised ((unraised_alloc _).bind fun _ _ _ => .pure _)

/-! ## Environments -/

theorem spares_ownedEnv (proc : ObjId) : Spares (ownedEnv proc) m fun _ m' => m' = m := by
  refine .get_bind ?_
  dsimp only
  split
  · exact spares_fail_bind _ _ _
  split
  · exact .pure rfl
  · exact spares_fail _ _

theorem spares_envPosition (env : ObjId) (index : Int64) :
    Spares (envPosition env index) m fun _ m' => m' = m := by
  refine .get_bind ?_
  dsimp only
  split
  · exact spares_fail_bind _ _ _
  · exact .pure rfl

theorem spares_procEnvGet (proc : ObjId) (index : Int64) :
    Spares (procEnvGet proc index) m fun _ m' => m' = m :=
  .check_bind (spares_ownedEnv proc) fun env =>
    .check_bind (spares_envPosition env index) fun _ => .get_bind (.pure rfl)

theorem spares_procEnvSet (proc : ObjId) (index : Int64) (v : Value) :
    Spares (procEnvSet proc index v) m fun _ _ => True := by
  refine .check_bind (spares_ownedEnv proc) fun env => ?_
  refine .check_bind (spares_envPosition env index) fun position => ?_
  exact .of_unraised (unraised_onHeap _)

theorem spares_envOwner (proc : Value) : Spares (envOwner proc) m fun _ m' => m' = m := by
  refine .get_bind ?_
  split
  · split
    · exact .pure rfl
    · exact spares_fail _ _
  · exact spares_fail _ _

theorem spares_envGet (proc : Value) (index : Int64) :
    Spares (envGet proc index) m fun _ m' => m' = m :=
  .check_bind (spares_envOwner proc) fun id => spares_procEnvGet id index

theorem spares_attachEnv (proc : Value) (values : List Value) :
    Spares (attachEnv proc values) m fun _ _ => True := by
  unfold attachEnv
  dsimp only
  split
  · exact spares_fail_bind _ _ _
  refine .check_bind (spares_expectProc proc) fun id => ?_
  split
  · exact spares_fail_bind _ _ _
  refine .get_bind ?_
  split
  · exact spares_fail_bind _ _ _
  · refine .of_unraised (Unraised.inArenaScope ?_)
    exact (unraised_alloc _).bind fun _ _ _ => unraised_onHeap _

/-! ## Calls -/

theorem spares_enter (frame : Frame) :
    Spares (enter frame) m fun _ m' => m' = { m with frames := frame :: m.frames } := by
  refine .get_bind ?_
  dsimp only
  split
  · exact spares_fail_bind _ _ _
  split
  · exact .of_run rfl rfl
  · exact spares_fail _ _

theorem spares_enterProc (proc self : Value) (args : List Value) :
    Spares (enterProc proc self args) m fun _ m' => m.OnlyIn proc m' := by
  refine .check_bind (spares_expectProc proc) fun id => (spares_enter _).mono ?_
  rintro _ m' rfl
  exact fun _ _ _ present => present

end Act

end GuestVM
