import GuestVM.Proofs.Bridge.Handles
import GuestVM.Proofs.HostErrors

/-! # Resolution of ranges

A range between two words, either of which may be missing, chooses elements of a sequence.  With
integers for words its resolution is a few lines (`Bounds.start`, `Bounds.stop`), and `span` comes to
the same (`Bounds.span_exact`).  Where a sum is no word, the range is out of range; or the sum is an
end so far before the sequence that nothing is chosen, and nothing is if the least word stands for it
(`Bounds.spanEnd_exact`). -/
set_option autoImplicit false

namespace GuestVM

/-- A range whose ends are integers or missing. -/
structure Bounds where
  first : Option Int64
  last : Option Int64
  exclusive : Bool

namespace Bounds

def endValue : Option Int64 → Value
  | some n => .int n
  | none => .nil

def endText : Option Int64 → String
  | some n => toString n.toInt
  | none => "nil"

def data (b : Bounds) : RangeData := ⟨endValue b.first, endValue b.last, b.exclusive⟩

def text (b : Bounds) : String :=
  endText b.first ++ (if b.exclusive then "..." else "..") ++ endText b.last

/-! ## The elements of a range -/

/-- A missing first end is the first element. -/
def low (b : Bounds) : Int := (b.first.map (·.toInt)).getD 0

/-- A missing last end is the last element. -/
def high (b : Bounds) : Int := (b.last.map (·.toInt)).getD (-1)

/-- Whether the last end counts; the last element does when the end is missing. -/
def IsInclusive (b : Bounds) : Prop := b.exclusive = false ∨ b.last = none

instance (b : Bounds) : Decidable b.IsInclusive := inferInstanceAs (Decidable (_ ∨ _))

end Bounds

/-- Negative positions count from the end. -/
def fromFront (len i : Int) : Int := if i < 0 then i + len else i

namespace Bounds

/-- Whether a position is not past the last end. -/
def Reaches (b : Bounds) (len i : Int) : Prop :=
  if b.IsInclusive then i ≤ fromFront len b.high else i < fromFront len b.high

def start (b : Bounds) (len : Int) : Int := fromFront len b.low

/-- The position after the last end; with `trunc`, no later than the end of the sequence. -/
def stop (b : Bounds) (len : Int) (trunc : Bool) : Int :=
  let last := fromFront len (if trunc then min b.high len else b.high)
  if b.IsInclusive ∧ (trunc = false ∨ last < len) then last + 1 else last

def count (b : Bounds) (len : Int) (trunc : Bool) : Int := max 0 (b.stop len trunc - b.start len)

/-- The first end lies before the sequence; or, if the range is to be cut to the sequence, behind it;
or the range is not to be cut and the position after its last end is no word. -/
def OutOfRange (b : Bounds) (len : Int) (trunc : Bool) : Prop :=
  (b.low < 0 ∧ b.low + len < 0) ∨ (trunc = true ∧ len < b.start len) ∨
    (trunc = false ∧ b.IsInclusive ∧ b.high = Word.greatest)

instance (b : Bounds) (len : Int) (trunc : Bool) : Decidable (b.OutOfRange len trunc) :=
  inferInstanceAs (Decidable (_ ∨ _))

variable {b : Bounds} {trunc : Bool} {len : Int}

theorem start_nonneg (inside : ¬ b.OutOfRange len trunc) : 0 ≤ b.start len := by
  by_contra before
  simp only [start, fromFront] at before
  exact inside (.inl (by split at before <;> omega))

theorem start_le (inside : ¬ b.OutOfRange len true) : b.start len ≤ len := by
  by_contra behind
  exact inside (.inr (.inl ⟨rfl, Int.not_le.mp behind⟩))

/-- It does not matter whether the end is cut before or after it is counted from the front. -/
theorem stop_cut (nonneg : 0 ≤ len) :
    b.stop len true =
      if b.IsInclusive ∧ fromFront len b.high < len then fromFront len b.high + 1
      else min (fromFront len b.high) len := by
  have cut : fromFront len (min b.high len) = min (fromFront len b.high) len := by
    unfold fromFront
    split_ifs <;> omega
  have below : min (fromFront len b.high) len < len ↔ fromFront len b.high < len := by omega
  simp only [stop, if_true, cut, Bool.true_eq_false, false_or, below]
  split_ifs <;> omega

theorem stop_le (nonneg : 0 ≤ len) : b.stop len true ≤ len := by
  rw [stop_cut nonneg]
  split_ifs <;> omega

theorem lt_stop (nonneg : 0 ≤ len) (i : Int) :
    i < b.stop len true ↔ i < len ∧ b.Reaches len i := by
  rw [stop_cut nonneg, Reaches]
  by_cases inclusive : b.IsInclusive
  · simp only [inclusive, true_and, if_true]
    split_ifs <;> omega
  · simp only [inclusive, false_and, if_false]
    omega

/-- What is chosen from a sequence are the elements of the sequence between the ends. -/
theorem chosen (nonneg : 0 ≤ len) (inside : ¬ b.OutOfRange len true) :
    b.start len + b.count len true ≤ len ∧ ∀ i,
      (b.start len ≤ i ∧ i < b.start len + b.count len true) ↔
        0 ≤ i ∧ i < len ∧ fromFront len b.low ≤ i ∧ b.Reaches len i := by
  have first := start_nonneg inside
  have ahead := start_le inside
  have last := b.stop_le nonneg
  refine ⟨by rw [count]; omega, fun i => ?_⟩
  have before : i < b.start len + b.count len true ∧ b.start len ≤ i ↔
      i < b.stop len true ∧ b.start len ≤ i := by rw [count]; omega
  rw [and_comm, before, lt_stop nonneg]
  constructor
  · rintro ⟨⟨inside, reached⟩, after⟩
    exact ⟨Int.le_trans first after, inside, after, reached⟩
  · rintro ⟨-, inside, after, reached⟩
    exact ⟨⟨inside, reached⟩, after⟩

end Bounds

/-! ## Resolution in words -/

section Words

open Word

variable {first last len start : Int} {exclusive trunc : Bool}

/-- A start that is no word lies before the sequence. -/
theorem spanStart_exact (above : len ≤ greatest) :
    spanStart first len = if fromFront len first < 0 then none else some (fromFront len first) := by
  have order : least < 0 := by decide
  unfold spanStart fromFront
  by_cases negative : first < 0
  · simp only [if_pos negative]
    by_cases small : least ≤ first + len
    · obtain ⟨w, checked, same⟩ := checked_of_fits small (by omega)
      rw [checked]
      simp only [Int64.le_iff_toInt_le, Int64.toInt_zero, same]
      split_ifs <;> first | rfl | omega
    · rw [checked_of_not_fits (.inl (by omega)), if_pos (by omega)]
  · simp only [if_neg negative]

/-- A sum that is no word is below all of them. -/
theorem clamped_fromFront (fits : least ≤ last ∧ last ≤ greatest) (above : len ≤ greatest) :
    (if last < 0 then (clamped (last + len)).toInt else last) = max least (fromFront len last) := by
  have order : least ≤ greatest := by decide
  unfold fromFront
  split
  · rw [toInt_clamped]
    omega
  · omega

end Words

namespace Bounds

open Word

variable (b : Bounds)

theorem fits_low : least ≤ b.low ∧ b.low ≤ greatest := by
  cases first : b.first with
  | none => simp only [low, first]; decide
  | some w => simpa [low, first] using ⟨Int64.minValue_le_toInt w, Int64.toInt_le w⟩

theorem fits_high : least ≤ b.high ∧ b.high ≤ greatest := by
  cases last : b.last with
  | none => simp only [high, last]; decide
  | some w => simpa [high, last] using ⟨Int64.minValue_le_toInt w, Int64.toInt_le w⟩

variable {b : Bounds} {len : Int64} {trunc : Bool}

theorem spanEnd_eq (b : Bounds) (len : Int64) (trunc : Bool) :
    let last := max least (fromFront len.toInt (if trunc then min b.high len.toInt else b.high))
    spanEnd b.high len.toInt (decide ¬ b.IsInclusive) trunc =
      if b.IsInclusive ∧ (trunc = false ∨ last < len.toInt) then (checked (last + 1)).map (·.toInt)
      else some last := by
  intro last
  have fits := b.fits_high
  have small : least ≤ len.toInt := Int64.minValue_le_toInt len
  have above : len.toInt ≤ greatest := Int64.toInt_le len
  have cut : (if trunc = true ∧ len.toInt < b.high then len.toInt else b.high) =
      if trunc then min b.high len.toInt else b.high := by
    cases trunc
    · simp
    · simp only [true_and, if_true]
      omega
  have cutFits : least ≤ (if trunc then min b.high len.toInt else b.high) ∧
      (if trunc then min b.high len.toInt else b.high) ≤ greatest := by
    split_ifs <;> omega
  have same := clamped_fromFront cutFits above
  simp only [spanEnd, cut, same]
  simp [last]

/-- The end is resolved exactly, or the exact end lies so far before the sequence that it is no word;
what stands for it lies before the sequence, too. -/
theorem spanEnd_exact (inside : ¬ b.OutOfRange len.toInt trunc) :
    ∃ stop, spanEnd b.high len.toInt (decide ¬ b.IsInclusive) trunc = some stop ∧ stop ≤ greatest ∧
      (stop = b.stop len.toInt trunc ∨ stop ≤ 0 ∧ b.stop len.toInt trunc ≤ 0) := by
  have order : least < 0 := by decide
  obtain ⟨small, large⟩ := b.fits_high
  have above : len.toInt ≤ greatest := Int64.toInt_le len
  rw [spanEnd_eq]
  cases trunc with
  | true =>
      have nonneg : 0 ≤ len.toInt := Int.le_trans (start_nonneg inside) (start_le inside)
      have word : least ≤ fromFront len.toInt (min b.high len.toInt) := by
        unfold fromFront
        split <;> omega
      have last : max least (fromFront len.toInt (min b.high len.toInt)) =
          fromFront len.toInt (min b.high len.toInt) := Int.max_eq_right word
      have below : fromFront len.toInt (min b.high len.toInt) ≤ len.toInt := by
        unfold fromFront
        split <;> omega
      simp only [if_true, last, Bounds.stop, Bool.true_eq_false, false_or]
      split
      case isTrue further =>
          obtain ⟨-, further⟩ := further
          obtain ⟨w, checked, same⟩ := checked_of_fits
            (n := fromFront len.toInt (min b.high len.toInt) + 1) (by omega) (by omega)
          exact ⟨_, by rw [checked, Option.map_some, same], by omega, .inl rfl⟩
      case isFalse => exact ⟨_, rfl, by omega, .inl rfl⟩
  | false =>
      simp only [Bounds.stop, Bool.false_eq_true, if_false, true_or, and_true]
      by_cases inclusive : b.IsInclusive
      · have notLast : b.high ≠ greatest := fun most => inside (.inr (.inr ⟨rfl, inclusive, most⟩))
        have room : fromFront len.toInt b.high < greatest := by
          unfold fromFront
          split <;> omega
        obtain ⟨w, checked, same⟩ := checked_of_fits
          (n := max least (fromFront len.toInt b.high) + 1) (by omega) (by omega)
        rw [if_pos inclusive, if_pos inclusive, checked, Option.map_some, same]
        exact ⟨_, rfl, by omega, by omega⟩
      · have room : fromFront len.toInt b.high ≤ greatest := by
          unfold fromFront
          split <;> omega
        rw [if_neg inclusive, if_neg inclusive]
        exact ⟨_, rfl, by omega, by omega⟩

/-- Between words that are in range, resolution is what it is between integers. -/
theorem span_exact (inside : ¬ b.OutOfRange len.toInt trunc) :
    ∃ start count, span b.low b.high (decide ¬ b.IsInclusive) len.toInt trunc = some (start, count) ∧
      start.toInt = b.start len.toInt ∧ count.toInt = b.count len.toInt trunc := by
  have order : least < 0 := by decide
  have above : len.toInt ≤ greatest := Int64.toInt_le len
  have reaches := start_nonneg inside
  have started : spanStart b.low len.toInt = some (b.start len.toInt) := by
    rw [spanStart_exact above]
    exact if_neg (Int.not_lt.mpr reaches)
  have ahead : ¬ (trunc = true ∧ len.toInt < b.start len.toInt) :=
    fun behind => inside (.inr (.inl behind))
  obtain ⟨stop, ended, room, near⟩ := spanEnd_exact inside
  have word : b.start len.toInt ≤ greatest := by
    obtain ⟨-, large⟩ := b.fits_low
    unfold Bounds.start fromFront
    split <;> omega
  refine ⟨clamped (b.start len.toInt),
    clamped (max 0 (clamped (stop - b.start len.toInt)).toInt), ?_, ?_, ?_⟩
  · simp only [span, started, ended, Option.bind_eq_bind, Option.bind_some, if_neg ahead]
    rfl
  · rw [toInt_clamped]
    omega
  · rw [toInt_clamped, toInt_clamped, Bounds.count]
    omega

theorem span_outOfRange (outside : b.OutOfRange len.toInt trunc) :
    span b.low b.high (decide ¬ b.IsInclusive) len.toInt trunc = none := by
  have above : len.toInt ≤ greatest := Int64.toInt_le len
  have started : spanStart b.low len.toInt =
      if fromFront len.toInt b.low < 0 then none else some (fromFront len.toInt b.low) :=
    spanStart_exact above
  by_cases before : fromFront len.toInt b.low < 0
  · rw [span, started, if_pos before]
    rfl
  rw [if_neg before] at started
  rcases outside with ⟨negative, short⟩ | behind | ⟨rfl, inclusive, most⟩
  · exact (before (by rwa [fromFront, if_pos negative])).elim
  · have behind : trunc = true ∧ len.toInt < fromFront len.toInt b.low := behind
    simp only [span, started, Option.bind_eq_bind, Option.bind_some, if_pos behind]
    rfl
  · have ended : spanEnd b.high len.toInt (decide ¬ b.IsInclusive) false = none := by
      have order : least < greatest := by decide
      have last : max least (fromFront len.toInt b.high) = greatest := by
        rw [most, fromFront, if_neg (by decide)]
        omega
      rw [spanEnd_eq]
      simp only [Bool.false_eq_true, if_false, true_or, and_true, if_pos inclusive, last]
      rw [checked_of_not_fits (.inr (by omega))]
      rfl
    simp only [span, started, ended, Option.bind_eq_bind, Option.bind_some, Bool.false_eq_true,
      false_and, if_false]
    rfl

end Bounds

/-! ## Resolution by the machine -/

theorem boundInt_first (b : Bounds) : boundInt 0 b.data.first = some b.low := by
  rcases b with ⟨_ | first, last, exclusive⟩ <;> rfl

theorem boundInt_last (b : Bounds) : boundInt (-1) b.data.last = some b.high := by
  rcases b with ⟨first, _ | last, exclusive⟩ <;> rfl

theorem exclusive_eq (b : Bounds) :
    (b.data.exclusive && !b.data.last.isNil) = decide ¬ b.IsInclusive := by
  rcases b with ⟨first, _ | last, _ | _⟩ <;> rfl

section Machines

variable {m : Machine} {x : ObjId} {o : Object} {b : Bounds}

/-- A range between words is written with both of them. -/
theorem Machine.inspect_range (present : m.object? x = some o) (body : o.body = .range b.data) :
    m.inspect (.obj x) = some b.text := by
  obtain ⟨n, size⟩ : ∃ n, m.heap.slots.size = n + 1 :=
    Nat.exists_eq_add_one.mpr (Nat.zero_lt_of_lt (Heap.slot_lt_of_get? present))
  have found : m.body? (.obj x) = some (.range b.data) := by
    simp [Machine.body?, Value.asObj, present, body]
  have ends : ∀ e, m.inspectWithin (n + 1) (Bounds.endValue e) = some (Bounds.endText e) := by
    intro e
    cases e <;> rfl
  rw [inspect, size, inspectWithin]
  simp only [found, Bounds.data, ends]
  rfl

theorem run_rangeSpan (present : m.object? x = some o) (body : o.body = .range b.data)
    (len : Int64) (trunc : Bool) : (Act.rangeSpan (.obj x) len trunc).run.run m =
      match span b.low b.high (decide ¬ b.IsInclusive) len.toInt trunc with
      | some result => (.ok result, m)
      | none => (Act.fail .rangeError (b.text ++ " out of range")).run.run m := by
  obtain ⟨data, body', reads⟩ : ∃ data, o.body = .range data ∧
      (Act.rangeData (.obj x)).run.run m = (.ok data, m) := by
    cases serves_range present body with
    | range data body reads => exact ⟨data, body, reads⟩
  cases body.symm.trans body'
  unfold Act.rangeSpan
  rw [Act.run_ok_bind reads]
  simp only [boundInt_first, boundInt_last, exclusive_eq]
  cases span b.low b.high (decide ¬ b.IsInclusive) len.toInt trunc with
  | some result => rfl
  | none =>
      simp only [Act.describe]
      rw [Act.run_bind, Act.run_get_bind, Machine.inspect_range present body]
      rfl

/-- What comes of asking a machine for the elements that a range chooses. -/
structure Machine.Resolves (m : Machine) (x : ObjId) (b : Bounds) (len : Int64) (trunc : Bool) :
    Prop where
  refused : b.OutOfRange len.toInt trunc →
    m.Fails (Act.rangeSpan (.obj x) len trunc) .rangeError (b.text ++ " out of range")
  /-- Nothing else is refused. -/
  answered : ¬ b.OutOfRange len.toInt trunc → ∃ start count : Int64,
    (Act.rangeSpan (.obj x) len trunc).run.run m = (.ok (start, count), m) ∧
      start.toInt = b.start len.toInt ∧ count.toInt = b.count len.toInt trunc
  /-- What is chosen from a sequence lies in it and is what of it is between the ends. -/
  chosen : trunc = true → 0 ≤ len → ∀ start count m',
    (Act.rangeSpan (.obj x) len trunc).run.run m = (.ok (start, count), m') →
      0 ≤ start.toInt ∧ 0 ≤ count.toInt ∧ start.toInt + count.toInt ≤ len.toInt ∧
        ∀ i, (start.toInt ≤ i ∧ i < start.toInt + count.toInt) ↔
          0 ≤ i ∧ i < len.toInt ∧ fromFront len.toInt b.low ≤ i ∧ b.Reaches len.toInt i

theorem Machine.Established.resolves (established : m.Established) (present : m.object? x = some o)
    (body : o.body = .range b.data) (len : Int64) (trunc : Bool) : m.Resolves x b len trunc := by
  have ran := run_rangeSpan present body len trunc
  have refused : b.OutOfRange len.toInt trunc →
      m.Fails (Act.rangeSpan (.obj x) len trunc) .rangeError (b.text ++ " out of range") := by
    intro outside
    rw [Bounds.span_outOfRange outside] at ran
    exact established.fails ran
  refine ⟨refused, fun inside => ?_, ?_⟩
  · obtain ⟨start, count, resolved, first, number⟩ := Bounds.span_exact inside
    rw [resolved] at ran
    exact ⟨start, count, ran, first, number⟩
  · rintro rfl nonneg start count m' answer
    have inside : ¬ b.OutOfRange len.toInt true := by
      intro outside
      obtain ⟨e, after, id, failed, -⟩ := refused outside
      cases answer.symm.trans failed
    obtain ⟨first, number, resolved, atFirst, ofNumber⟩ := Bounds.span_exact inside
    rw [resolved] at ran
    cases answer.symm.trans ran
    have length : 0 ≤ len.toInt := Int64.le_iff_toInt_le.mp nonneg
    obtain ⟨fits, elements⟩ := Bounds.chosen length inside
    rw [atFirst, ofNumber]
    exact ⟨Bounds.start_nonneg inside, Int.le_max_left _ _, fits, elements⟩

end Machines

namespace Situation

attribute [local irreducible] Machine.opened

variable {now : Situation} {name : String} {i : Instance} {x : ObjId} {o : Object} {b : Bounds}

/-- Words resolve ranges as integers do, at any moment in the life of any machine. -/
theorem ranges_resolve (run : Run Anything {} now) (present : now.world.instance? name = some i)
    (range : i.machine.object? x = some o) (body : o.body = .range b.data) (len : Int64)
    (trunc : Bool) : i.machine.Resolves x b len trunc :=
  (run.established present).resolves range body len trunc

/-! ## A range without an end -/

/-- From the third element from the end on. -/
def lastThree : Bounds := ⟨some (-3), none, true⟩

def rangeMaking : Script :=
  .guest (.rangeNew lastThree.data.first lastThree.data.last lastThree.data.exclusive) Script.ret

def lastThreeObject : Object := { cls := Builtin.range.id, body := .range lastThree.data }

def rangeMade : Scene where
  script := Script.ret (.obj ((Machine.opened ⟨1⟩ {}).newId lastThreeObject))
  stage := { machine := (Machine.opened ⟨1⟩ {}).withNew lastThreeObject }

theorem run_rangeMade : Run Anything {}
    ((beginning rangeMaking).showing "vm" { machine := .opened ⟨1⟩ {} } rangeMade) := by
  have begun : Run Anything {} (beginning rangeMaking) := run_beginning rangeMaking trivial trivial
  rw [← showing_beginning rangeMaking] at begun
  exact begun.trans (run_showing (.single ⟨rfl, rfl⟩))

/-- The last three of five are two, three and four; two are too few. -/
theorem ranges_resolve_lastThree : ∃ now i x, Run Anything {} now ∧
    now.world.instance? "vm" = some i ∧
      (Act.rangeSpan (.obj x) 5 true).run.run i.machine = (.ok (2, 3), i.machine) ∧
      i.machine.Fails (Act.rangeSpan (.obj x) 2 true) .rangeError "-3...nil out of range" := by
  have tidy : (Machine.opened ⟨1⟩ {}).heap.Tidy := (Machine.established_opened ⟨1⟩ {}).tidy
  have present : rangeMade.stage.machine.object?
      ((Machine.opened ⟨1⟩ {}).newId lastThreeObject) = some lastThreeObject :=
    (Machine.object?_withNew tidy _ _).trans (if_pos rfl)
  have resolves := ranges_resolve run_rangeMade (World.instance?_put_self _) present
    (b := lastThree) rfl
  obtain ⟨start, count, ran, first, number⟩ := (resolves 5 true).answered (by decide)
  have two : start = 2 := Int64.toInt_inj.mp (first.trans (by decide))
  have three : count = 3 := Int64.toInt_inj.mp (number.trans (by decide))
  rw [two, three] at ran
  exact ⟨_, _, _, run_rangeMade, World.instance?_put_self _, ran,
    (resolves 2 true).refused (by decide)⟩

end Situation

end GuestVM
