import GuestVM.Proofs.Bridge.Reading
import GuestVM.Proofs.Machine.Texts
import GuestVM.Proofs.RangeResolution

/-! # Walks through values

The text of a value and the document that it becomes are both made by a walk through its parts, and
nothing keeps a value from being among its own parts: an array can be pushed onto itself.  The walks
end at exactly the values from which no such value is reached, for texts along `Shows` and for
documents along `ComesTo` (`value_walks_end`).  An error that shows a value is raised where the text of
the value ends, and where it does not the operation never comes back. -/
set_option autoImplicit false

namespace GuestVM

namespace Machine

/-- An action that raises an error with the text of a value in it, if the text ends, and else does
not end. -/
structure Reports {α : Type} (m : Machine) (a : Act α) (v : Value) (b : Builtin)
    (message : String → String) : Prop where
  raised : ¬ Recurs m.Shows v → ∃ text, m.inspect v = some text ∧ m.Fails a b (message text)
  endless : Recurs m.Shows v → a.run.run m = (.error .endless, m)

variable {α β : Type} {m : Machine} {v : Value} {b : Builtin} {message : String → String}

theorem Reports.bind {a : Act α} (reports : m.Reports a v b message) (f : α → Act β) :
    m.Reports (a >>= f) v b message := by
  constructor
  · intro onward
    obtain ⟨text, written, fails⟩ := reports.raised onward
    exact ⟨text, written, fails.bind f⟩
  · intro recurs
    rw [Act.run_bind, reports.endless recurs]

theorem Established.reports (established : m.Established) {a : Act α}
    (ran : a.run.run m = (do Act.fail b (message (← Act.describe v)) : Act α).run.run m) :
    m.Reports a v b message := by
  unfold Act.describe at ran
  rw [Act.run_bind, Act.run_get_bind] at ran
  constructor
  · intro onward
    obtain ⟨text, written⟩ := Option.isSome_iff_exists.mp (isSome_inspect_iff.mpr onward)
    rw [written] at ran
    exact ⟨text, written, established.fails ran⟩
  · intro recurs
    have unwritten : m.inspect v = none :=
      Option.not_isSome_iff_eq_none.mp fun written => isSome_inspect_iff.mp written recurs
    rw [unwritten] at ran
    exact ran

/-! ## Checks -/

section Checks

variable (established : m.Established)
include established

theorem reports_expecting {accepts : ValueType → Prop} [DecidablePred accepts]
    (other : ∀ x, v = .obj x → ¬ accepts (m.typeOf v)) (complaint : String → String) :
    m.Reports (Act.expecting accepts complaint v) v .typeError complaint := by
  refine established.reports ?_
  unfold Act.expecting
  rw [Act.run_get_bind]
  cases v with
  | obj x => simp only [Value.asObj, if_neg (other x rfl)]
  | _ => rfl

theorem reports_expectType {t : ValueType} (other : ∀ x, v = .obj x → m.typeOf v ≠ t) :
    m.Reports (Act.expectType v t) v .typeError (· ++ " cannot be converted to " ++ t.name) :=
  Act.expectType_eq v t ▸ reports_expecting established other _

theorem reports_expectClass (other : ∀ x, v = .obj x → (m.typeOf v).isClassLike = false) :
    m.Reports (Act.expectClass v) v .typeError (· ++ " is not a class/module") :=
  Act.expectClass_eq v ▸ reports_expecting established
    (fun x same => Bool.not_eq_true _ ▸ other x same) _

theorem reports_enterProc (other : m.typeOf v ≠ .proc) (self : Value) (args : List Value) :
    m.Reports (Act.enterProc v self args) v .typeError (· ++ " is not a Proc") := by
  have checked : m.Reports (Act.expectProc v) v .typeError (· ++ " is not a Proc") :=
    Act.expectProc_eq v ▸ reports_expecting established (fun _ _ => other) _
  exact checked.bind _

theorem reports_fetch {h : ObjId} {t : HashTable} (body : m.body? (.obj h) = some (.hash t))
    {key : Value} (missing : t.get? (m.hashKey key) = none) :
    m.Reports (Act.fetch h key) key .keyError ("key not found: " ++ ·) := by
  obtain ⟨o, present, isHash⟩ := body?_eq_some.mp body
  have typed : m.typeOf (.obj h) = .hash := by rw [typeOf_obj present, Object.tag, isHash]
  have holds : m.table (.obj h) = t := table_of_hash present isHash
  have found : (Act.hashGet (.obj h) key).run.run m = (.ok none, m) := by
    unfold Act.hashGet Act.hashTable
    rw [Act.run_bind, Act.run_bind, Act.run_expectType typed]
    change (Except.ok ((m.table (.obj h)).get? (m.hashKey key)), m) = _
    rw [holds, missing]
  refine established.reports ?_
  rw [Act.fetch, Act.run_ok_bind found]

/-- The text of a range between words ends. -/
theorem reports_rangeSpan {x : ObjId} {o : Object} {bounds : Bounds} {len : Int64} {trunc : Bool}
    (present : m.object? x = some o) (body : o.body = .range bounds.data)
    (outside : bounds.OutOfRange len.toInt trunc) :
    ¬ Recurs m.Shows (.obj x) ∧
      m.Fails (Act.rangeSpan (.obj x) len trunc) .rangeError (bounds.text ++ " out of range") := by
  refine ⟨?_, (established.resolves present body len trunc).refused outside⟩
  rw [← isSome_inspect_iff, inspect_range present body]
  rfl

end Checks

/-- Where walks end and what is raised there. -/
structure EndsWalks (m : Machine) : Prop where
  text : ∀ v, (m.inspect v).isSome ↔ ¬ Recurs m.Shows v
  className : ∀ c, (m.className c).isSome ↔ ∀ w ∈ m.nameParts c, ¬ Recurs m.Shows w
  document : ∀ v, (m.fromGuest .document v).Ends ↔ ¬ Recurs m.ComesTo v
  /-- No bound on the levels is behind it. -/
  deeper : ∀ n v, m.heap.slots.size < n →
    m.inspectWithin n v = m.inspect v ∧ m.documentWithin n v = m.fromGuest .document v
  notOfType : ∀ v t, (∀ x, v = .obj x → m.typeOf v ≠ t) →
    m.Reports (Act.expectType v t) v .typeError (· ++ " cannot be converted to " ++ t.name)
  notClass : ∀ v, (∀ x, v = .obj x → (m.typeOf v).isClassLike = false) →
    m.Reports (Act.expectClass v) v .typeError (· ++ " is not a class/module")
  notProc : ∀ v self args, m.typeOf v ≠ .proc →
    m.Reports (Act.enterProc v self args) v .typeError (· ++ " is not a Proc")
  missingKey : ∀ h t key, m.body? (.obj h) = some (.hash t) → t.get? (m.hashKey key) = none →
    m.Reports (Act.fetch h key) key .keyError ("key not found: " ++ ·)
  outOfRange : ∀ x o (bounds : Bounds) len trunc, m.object? x = some o → o.body = .range bounds.data →
    bounds.OutOfRange len.toInt trunc → ¬ Recurs m.Shows (.obj x) ∧
      m.Fails (Act.rangeSpan (.obj x) len trunc) .rangeError (bounds.text ++ " out of range")

theorem Established.endsWalks (established : m.Established) : m.EndsWalks where
  text _ := isSome_inspect_iff
  className _ := isSome_className_iff
  document _ := ends_readDocument_iff
  deeper _ _ more := ⟨inspectWithin_eq_inspect more, documentWithin_eq_readDocument more⟩
  notOfType _ _ other := reports_expectType established other
  notClass _ other := reports_expectClass established other
  notProc _ self args other := reports_enterProc established other self args
  missingKey _ _ _ body missing := reports_fetch established body missing
  outOfRange _ _ _ _ _ present body outside := reports_rangeSpan established present body outside

end Machine

namespace Situation

attribute [local irreducible] Machine.opened

variable {now : Situation} {name : String} {i : Instance}

/-- At any moment in the life of any machine. -/
theorem value_walks_end (run : Run Anything {} now) (present : now.world.instance? name = some i) :
    i.machine.EndsWalks :=
  (run.established present).endsWalks

/-! ## An array in itself -/

def pushingOnItself : Script :=
  .guest (.arrayNew []) fun a => .guest (.arrayPush a a) fun _ => Script.ret a

/-- The slot after those that a new machine fills. -/
def ringId : ObjId := ⟨62⟩

theorem pushingOnItself_replayed : ∃ a,
    carefully 2 ⟨pushingOnItself, [], { machine := .opened ⟨1⟩ {} }⟩ = some a ∧
      a.stage.machine.typeOf (.obj ringId) = .array ∧
      a.stage.machine.items (.obj ringId) = #[.obj ringId] := by
  have replayed : ((carefully 2 ⟨pushingOnItself, [], { machine := .opened ⟨1⟩ {} }⟩).any fun a =>
      decide (a.stage.machine.typeOf (.obj ringId) = .array) &&
        decide (a.stage.machine.items (.obj ringId) = #[.obj ringId])) = true := by
    rw [Machine.opened_eq]
    decide +kernel
  obtain ⟨a, reached, holds⟩ := (Option.any_eq_true _ _).mp replayed
  simp only [Bool.and_eq_true, decide_eq_true_eq] at holds
  exact ⟨a, reached, holds.1, holds.2⟩

/-- Neither its text nor its reading ends, and no error about it is raised; one about an integer is. -/
theorem value_walks_end_ring : ∃ now i, Run Careful {} now ∧
    now.world.instance? "vm" = some i ∧
      i.machine.inspect (.obj ringId) = none ∧
      ¬ (i.machine.fromGuest .document (.obj ringId)).Ends ∧
      (Act.expectType (.obj ringId) .hash).run.run i.machine = (.error .endless, i.machine) ∧
      i.machine.Fails (Act.expectType (.int 5) .hash) .typeError "5 cannot be converted to Hash" := by
  obtain ⟨a, reached, typed, items⟩ := pushingOnItself_replayed
  have run := run_carefully_beginning reached
  obtain ⟨o, present⟩ := Machine.live_of_typeOf typed (by decide)
  have holds := Machine.array_of_typeOf present typed
  rw [items] at holds
  have body : a.stage.machine.body? (.obj ringId) = some (.array #[.obj ringId]) :=
    Machine.body?_eq_some.mpr ⟨o, present, holds⟩
  have shown : Machine.Recurs a.stage.machine.Shows (.obj ringId) := by
    refine ⟨_, .refl, .single (.part ?_)⟩
    rw [Machine.parts, body]
    exact List.mem_singleton_self _
  have whole : (#[Value.obj ringId] : Array Value).toList = [] ++ .obj ringId :: [] := rfl
  have read : Machine.Recurs a.stage.machine.ComesTo (.obj ringId) :=
    ⟨_, .refl, .single (.item body whole (List.forall_mem_nil _))⟩
  have walks := value_walks_end (run.mono fun _ _ _ => trivial) (World.instance?_put_self _)
  have other : ∀ x, (Value.int 5) = .obj x → a.stage.machine.typeOf (.int 5) ≠ .hash := by
    intro x same
    cases same
  obtain ⟨text, written, fails⟩ := (walks.notOfType (.int 5) .hash other).raised
    ((walks.text (.int 5)).mp rfl)
  cases written
  exact ⟨_, _, run, World.instance?_put_self _,
    Option.not_isSome_iff_eq_none.mp fun written => (walks.text _).mp written shown,
    fun ended => (walks.document _).mp ended read,
    (walks.notOfType _ .hash fun x _ => by rw [typed]; decide).endless shown, fails⟩

end Situation

end GuestVM
