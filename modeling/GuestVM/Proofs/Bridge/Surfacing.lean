import GuestVM.Proofs.Bridge.Reraising
import GuestVM.Proofs.Machine.Climbing
import Mathlib.Data.List.Infix

/-! # How errors of host code surface

An error of host code becomes a new exception, which is current.  `HostError.Conveys` says with which
message: that of the typed cause, and without one the outermost text, from which a class name in front
is taken only if an exception class of that name is bound.  Raising the exception comes to an end in
every established machine, unless the error sticks (`HostError.Sticks`): a class that it names has a
chain of superclasses that goes round without coming to `Exception`. -/
set_option autoImplicit false

namespace GuestVM

/-! ## Messages -/

theorem splitAtColon_cons {c d : Char} {rest more after : List Char}
    (other : ∀ tail, c = ':' → rest = ' ' :: tail → False) :
    splitAtColon (c :: rest) = some (d :: more, after) ↔
      c = d ∧ splitAtColon rest = some (more, after) := by
  rw [splitAtColon.eq_3 c rest other, Option.map_eq_some_iff]
  constructor
  · rintro ⟨⟨_, _⟩, split, same⟩
    cases same
    exact ⟨rfl, split⟩
  · rintro ⟨rfl, split⟩
    exact ⟨_, split, rfl⟩

/-- The part before the first colon with a blank has none itself. -/
theorem splitAtColon_eq_some {text before after : List Char} :
    splitAtColon text = some (before, after) ↔
      text = before ++ ':' :: ' ' :: after ∧ ¬ [':', ' '] <:+: before := by
  induction text using splitAtColon.induct generalizing before with
  | case1 => simp [splitAtColon]
  | case2 rest =>
      simp only [splitAtColon, Option.some.injEq, Prod.mk.injEq]
      constructor
      · rintro ⟨rfl, rfl⟩
        exact ⟨rfl, by simp⟩
      · rintro ⟨same, first⟩
        rcases before with _ | ⟨c, _ | ⟨d, more⟩⟩
        · exact ⟨rfl, by simpa using same⟩
        · simp at same
        · simp only [List.cons_append, List.cons.injEq] at same
          obtain ⟨rfl, rfl, -⟩ := same
          exact (first ⟨[], more, rfl⟩).elim
  | case3 c rest other ih =>
      cases before with
      | nil =>
          constructor
          · intro split
            rw [splitAtColon.eq_3 c rest other] at split
            obtain ⟨⟨_, _⟩, -, same⟩ := Option.map_eq_some_iff.mp split
            simp at same
          · rintro ⟨same, -⟩
            simp only [List.nil_append, List.cons.injEq] at same
            exact (other _ same.1 same.2).elim
      | cons d more =>
          rw [splitAtColon_cons other, ih, List.infix_cons_iff, List.cons_append, List.cons.injEq]
          constructor
          · rintro ⟨rfl, same, first⟩
            refine ⟨⟨rfl, same⟩, not_or.mpr ⟨?_, first⟩⟩
            rintro ⟨tail, start⟩
            simp only [List.cons_append, List.nil_append, List.cons.injEq] at start
            refine other (tail ++ ':' :: ' ' :: after) start.1.symm ?_
            rw [same, ← start.2]
            rfl
          · rintro ⟨⟨rfl, same⟩, first⟩
            exact ⟨rfl, same, (not_or.mp first).2⟩

/-- The text is a name and a message, with a colon and a blank between them, the first of the text. -/
def Splits (text name message : String) : Prop :=
  text = name ++ ": " ++ message ∧ ¬ [':', ' '] <:+: name.toList

theorem splits_iff {text name message : String} :
    Splits text name message ↔
      splitAtColon text.toList = some (name.toList, message.toList) := by
  rw [splitAtColon_eq_some, Splits, ← String.toList_inj]
  simp [String.toList_append]

theorem Splits.unique {text name message name' message' : String} (splits : Splits text name message)
    (again : Splits text name' message') : name = name' ∧ message = message' := by
  have same := (splits_iff.mp splits).symm.trans (splits_iff.mp again)
  simpa [String.toList_inj] using same

/-- The class is bound to the name at the top level and is an exception class. -/
def Machine.NamesException (m : Machine) (name : String) (c : ObjId) : Prop :=
  m.classGet name = some c ∧ m.descendsFrom c Builtin.exception.id = true

/-- The chain of superclasses goes round without coming to `Exception`, so that to ask whether the
class is an exception class has no end. -/
def Machine.Endless (m : Machine) (c : ObjId) : Prop :=
  ∀ r, ¬ m.Ascent (sameAt Builtin.exception.id) c r

/-- An error asks whether the class is an exception class: it is bound to the name that a cause has or
that stands in front of the text. -/
inductive HostError.Names (m : Machine) (err : HostError) (c : ObjId) : Prop where
  | typed (e : RaiseError) (name : String) (cause : err.cause = .raise e) (kind : e.kind = .named name)
      (bound : m.classGet name = some c)
  | passedOn (e : Raised) (cause : err.cause = .raised e) (bound : m.classGet e.className = some c)
  | text (plain name message : String) (cause : err.cause = .plain plain)
      (splits : Splits err.text name message) (bound : m.classGet name = some c)

/-- The error names a class of which no one can tell whether it is an exception class. -/
def HostError.Sticks (m : Machine) (err : HostError) : Prop := ∃ c, err.Names m c ∧ m.Endless c

/-- A class whose superclasses go round is bound to the class name at the top level. -/
def Machine.Traps (m : Machine) (e : Raised) : Prop :=
  ∃ c, m.classGet e.className = some c ∧ m.Endless c

theorem HostError.sticks_raised_iff {m : Machine} {contexts : List String} {e : Raised} :
    (⟨contexts, .raised e⟩ : HostError).Sticks m ↔ m.Traps e := by
  constructor
  · rintro ⟨c, names, endless⟩
    cases names with
    | typed _ _ cause => cases cause
    | passedOn _ cause bound =>
        cases cause
        exact ⟨c, bound, endless⟩
    | text _ _ _ cause => cases cause
  · rintro ⟨c, bound, endless⟩
    exact ⟨c, .passedOn e rfl bound, endless⟩

/-- The message with which an error surfaces. -/
inductive HostError.Conveys (m : Machine) (err : HostError) : String → Prop where
  | typed (e : RaiseError) (cause : err.cause = .raise e) : Conveys m err e.message
  | passedOn (e : Raised) (cause : err.cause = .raised e) : Conveys m err e.message
  /-- The name of an exception class in front of the text is left out. -/
  | named {plain name message : String} {c : ObjId} (cause : err.cause = .plain plain)
      (splits : Splits err.text name message) (names : m.NamesException name c) :
      Conveys m err message
  | whole {plain : String} (cause : err.cause = .plain plain)
      (unnamed : ∀ name message c, Splits err.text name message → ¬ m.NamesException name c) :
      Conveys m err err.text

variable {m : Machine}

namespace Machine

/-- The class and message of a text, StandardError where the name in front sticks. -/
def readText (m : Machine) (text : String) : ObjId × String :=
  (m.readError? text).getD (Builtin.standardError.id, text)

def surfacing (m : Machine) (err : HostError) : ObjId × String :=
  (m.surfacing? err).getD (Builtin.standardError.id, err.text)

theorem endless_iff {c : ObjId} : m.Endless c ↔ m.descendsFrom? c Builtin.exception.id = none := by
  rw [descendsFrom?, Option.map_eq_none_iff, Option.eq_none_iff_forall_ne_some]
  exact forall_congr' fun r => not_congr climb_eq_some_iff.symm

theorem isSome_descendsFrom? {c : ObjId} (ends : ¬ m.Endless c) :
    (m.descendsFrom? c Builtin.exception.id).isSome :=
  Option.isSome_iff_ne_none.mpr fun none => ends (endless_iff.mpr none)

end Machine

theorem Machine.readText_cases (m : Machine) (text : String) :
    (∃ name message c, Splits text name message ∧ m.NamesException name c ∧
        m.readText text = (c, message)) ∨
      (∀ name message c, Splits text name message → ¬ m.NamesException name c) ∧
        m.readText text = (Builtin.standardError.id, text) := by
  cases split : splitAtColon text.toList with
  | none =>
      refine .inr ⟨fun name message c splits => ?_, by simp [readText, readError?, split]⟩
      rw [splits_iff, split] at splits
      cases splits
  | some parts =>
      obtain ⟨name, message⟩ := parts
      have splits : Splits text (String.ofList name) (String.ofList message) := by
        rw [splits_iff, split, String.toList_ofList, String.toList_ofList]
      by_cases names : ∃ c, m.NamesException (String.ofList name) c
      · obtain ⟨c, bound, exceptional⟩ := names
        have found := descendsFrom?_of_descends exceptional
        exact .inl ⟨_, _, c, splits, ⟨bound, exceptional⟩, by
          simp [readText, readError?, split, bound, found]⟩
      · refine .inr ⟨fun other rest c again isNamed => ?_, ?_⟩
        · obtain ⟨rfl, -⟩ := splits.unique again
          exact names ⟨c, isNamed⟩
        · cases bound : m.classGet (String.ofList name) with
          | none => simp [readText, readError?, split, bound]
          | some c =>
              cases found : m.descendsFrom? c Builtin.exception.id with
              | none => simp [readText, readError?, split, bound, found]
              | some is =>
                  have other : is = false := Bool.eq_false_iff.mpr fun exceptional =>
                    names ⟨c, bound, (descendsFrom?_eq_some found).trans exceptional⟩
                  simp [readText, readError?, split, bound, found, other]

theorem HostError.conveys_surfacing (err : HostError) : err.Conveys m (m.surfacing err).2 := by
  cases cause : err.cause with
  | raise e =>
      rw [Machine.surfacing, Machine.surfacing?, cause]
      exact .typed e cause
  | raised e =>
      rw [Machine.surfacing, Machine.surfacing?, cause]
      exact .passedOn e cause
  | plain text =>
      have same : m.surfacing err = m.readText err.text := by
        rw [Machine.surfacing, Machine.surfacing?, cause]
        rfl
      rcases m.readText_cases err.text with ⟨name, message, c, splits, names, read⟩ | ⟨unnamed, read⟩
      · rw [same, read]
        exact .named cause splits names
      · rw [same, read]
        exact .whole cause unnamed

theorem HostError.Conveys.unique {err : HostError} {message other : String}
    (conveys : err.Conveys m message) (again : err.Conveys m other) : message = other := by
  cases conveys with
  | typed e cause => cases again <;> simp_all
  | passedOn e cause => cases again <;> simp_all
  | named cause splits names =>
      cases again with
      | named _ splits' => exact (splits.unique splits').2
      | whole _ unnamed => exact (unnamed _ _ _ splits names).elim
      | _ => simp_all
  | whole cause unnamed =>
      cases again with
      | named _ splits names => exact (unnamed _ _ _ splits names).elim
      | whole => rfl
      | _ => simp_all

/-! ## Exceptions -/

namespace Machine

theorem Established.descendsFrom_hostClass (c : ObjId) :
    m.descendsFrom (m.hostClass c) Builtin.exception.id = true := by
  unfold hostClass
  split
  case isTrue descends => exact descends
  case isFalse => exact descendsFrom_self _

theorem Established.not_endless (established : m.Established) (b : Builtin) : ¬ m.Endless b.id := by
  obtain ⟨r, ascent⟩ := established.ascent (sameAt Builtin.exception.id) b
  exact fun endless => endless r ascent

theorem Established.not_endless_classNamed (established : m.Established) {name : String}
    (free : ∀ c, m.classGet name = some c → ¬ m.Endless c) : ¬ m.Endless (m.classNamed name) := by
  unfold classNamed
  cases bound : m.classGet name with
  | none => exact established.not_endless .standardError
  | some c => exact free c bound

/-- An error that does not stick has a class and a message. -/
theorem Established.surfacing?_eq (established : m.Established) {err : HostError}
    (free : ¬ err.Sticks m) :
    m.surfacing? err = some (m.surfacing err) ∧ ¬ m.Endless (m.surfacing err).1 := by
  have ends : ∀ c, err.Names m c → ¬ m.Endless c := fun c names endless => free ⟨c, names, endless⟩
  unfold surfacing surfacing?
  cases cause : err.cause with
  | raise e =>
      refine ⟨rfl, ?_⟩
      change ¬ m.Endless (m.kindClass e.kind)
      cases kind : e.kind with
      | named name =>
          exact established.not_endless_classNamed fun c bound =>
            ends c (.typed e name cause kind bound)
      | _ => exact established.not_endless _
  | raised e =>
      exact ⟨rfl, established.not_endless_classNamed fun c bound => ends c (.passedOn e cause bound)⟩
  | plain plain =>
      dsimp only
      unfold readError?
      cases split : splitAtColon err.text.toList with
      | none => exact ⟨rfl, established.not_endless .standardError⟩
      | some parts =>
          obtain ⟨name, message⟩ := parts
          dsimp only
          cases bound : m.classGet (String.ofList name) with
          | none => exact ⟨rfl, established.not_endless .standardError⟩
          | some c =>
              have splits : Splits err.text (String.ofList name) (String.ofList message) := by
                rw [splits_iff, split, String.toList_ofList, String.toList_ofList]
              have known := ends c (.text plain _ _ cause splits bound)
              obtain ⟨is, found⟩ := Option.isSome_iff_exists.mp (isSome_descendsFrom? known)
              dsimp only
              rw [found]
              refine ⟨rfl, ?_⟩
              cases is with
              | true => exact known
              | false => exact established.not_endless .standardError

/-- No error sticks where all chains of superclasses come to an end. -/
theorem Rooted.not_sticks (rooted : m.Rooted) (err : HostError) : ¬ err.Sticks m := by
  rintro ⟨c, -, endless⟩
  exact endless _ (rooted.ascent _ c)

/-- The exception that an error becomes. -/
def surfacingObject (m : Machine) (err : HostError) : Object :=
  .exception (m.hostClass (m.surfacing err).1) (m.surfacing err).2

theorem Established.run_raiseError (established : m.Established) {err : HostError}
    (free : ¬ err.Sticks m) :
    (Act.raiseError err).run.run m =
      (.ok (.obj (m.newId (m.surfacingObject err))), m.raising (m.surfacingObject err)) := by
  have raisable := established.raisable (Established.descendsFrom_hostClass (m.surfacing err).1)
  obtain ⟨found, ends⟩ := established.surfacing?_eq free
  unfold Act.raiseError
  rw [Act.run_get_bind, found]
  exact Act.run_hostRaise (isSome_descendsFrom? ends) raisable (m.surfacing err).2 rfl

theorem run_hostRaise_endless {c : ObjId} (endless : m.Endless c) (message : String) :
    (Act.hostRaise c message).run.run m = (.error .endless, m) := by
  unfold Act.hostRaise
  rw [Act.run_get_bind, endless_iff.mp endless]
  rfl

/-- To raise an error that sticks has no end. -/
theorem run_raiseError_endless {err : HostError} (sticks : err.Sticks m) :
    (Act.raiseError err).run.run m = (.error .endless, m) := by
  obtain ⟨c, names, endless⟩ := sticks
  unfold Act.raiseError
  rw [Act.run_get_bind, surfacing?]
  cases names with
  | typed e name cause kind bound =>
      rw [cause]
      dsimp only
      rw [kind]
      have named : m.kindClass (.named name) = c := by simp [kindClass, classNamed, bound]
      rw [named]
      exact run_hostRaise_endless endless e.message
  | passedOn e cause bound =>
      have named : m.classNamed e.className = c := by simp [classNamed, bound]
      rw [cause]
      dsimp only
      rw [named]
      exact run_hostRaise_endless endless e.message
  | text plain name message cause splits bound =>
      have unread : m.readError? err.text = none := by
        simp [readError?, splits_iff.mp splits, bound, endless_iff.mp endless]
      rw [cause]
      dsimp only
      rw [unread]
      rfl

end Machine

/-- How the body of a callable that passes its errors on ends with one. -/
inductive Outcome.Fails : Outcome → HostError → Prop where
  | failed (err : HostError) : Fails (.failed err) err
  | raised (e : Raised) : Fails (.raised e) (.ofRaised e)

theorem Outcome.Fails.handOn {s : Stage} {o : Outcome} {err : HostError} (fails : o.Fails err) :
    s.handOn .fallible o = s.ask (Act.raiseError err) := by
  cases fails <;> rfl

/-- The exception is raised, whatever the callable has done and whatever waits for it. -/
theorem Scene.steps_fallible {s : Stage} {o : Outcome} {err : HostError} (fails : o.Fails err)
    (established : s.machine.Established) (free : ¬ err.Sticks s.machine) (mark : Nat)
    (rest : List Pending) :
    let id := s.machine.newId (s.machine.surfacingObject err)
    let s' : Stage :=
      { s with machine := s.machine.raising (s.machine.surfacingObject err) }.holding mark id
    ∃ e, StepsOver rest ⟨.done o, .host .fallible (gatewayEnd mark) :: rest, s⟩
        ⟨.done (.raised e), rest, s'⟩ ∧
      e.value = .obj id ∧ s'.machine.Tells e := by
  intro id s'
  let raised : Stage := { s with machine := s.machine.raising (s.machine.surfacingObject err) }
  have ran := established.run_raiseError free
  have asked : s.ask (Act.raiseError err) = some (.obj id, raised) := Stage.ask_of_run ran
  have handed : s.handOn .fallible o = some (.obj id, raised) := fails.handOn.trans asked
  obtain ⟨e, tells, value⟩ := (Stage.ask_calm established.tidy (Act.calm_raiseError err) asked).2
  have stepped : Scene.step ⟨.done o, .host .fallible (gatewayEnd mark) :: rest, s⟩ =
      some ⟨gatewayEnd mark e.value, rest, raised⟩ := by
    simp [Scene.step, Scene.resume, handed, value]
  exact ⟨e, .head ⟨stepped, List.suffix_rfl⟩
    (steps_gatewayEnd_again tells value.symm mark rest), value.symm, tells.congr rfl rfl rfl⟩

/-- A callable that ends with an error that sticks never hands it on. -/
theorem Scene.step_sticking {s : Stage} {o : Outcome} {err : HostError} (fails : o.Fails err)
    (sticks : err.Sticks s.machine) (next : Value → Script) (rest : List Pending) :
    Scene.step ⟨.done o, .host .fallible next :: rest, s⟩ = none := by
  have stuck : s.ask (Act.raiseError err) = none := by
    simp only [Stage.ask, Stage.act, Machine.run_raiseError_endless sticks]
  simp [Scene.step, Scene.resume, fails.handOn, stuck]

end GuestVM
