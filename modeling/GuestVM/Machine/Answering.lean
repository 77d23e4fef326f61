import GuestVM.Machine.Arrays
import GuestVM.Machine.Calls
import GuestVM.Machine.Define
import GuestVM.Machine.Hashes
import GuestVM.Machine.Likeness
import GuestVM.Machine.Objects
import GuestVM.Machine.Ranges

/-! # Answering requests

Each request to a machine is one of its operations; requests whose answer is an attempt catch what
the operation raises, and no other request raises anything. -/
set_option autoImplicit false

namespace GuestVM

def Act.reading {α : Type} (f : Machine → α) : Act α := do
  return f (← get)

def Act.protecting (id : ObjId) : Act Unit := Act.onHeap fun h => h.arenaPush id

def Act.answer : {a : Answer} → GuestRequest a → Act a.Carrier
  | _, .typeOf v => reading (·.typeOf v)
  | _, .inspect v => describe v
  | _, .portrait v depth => do ofOption ((← get).portrait depth v)
  | _, .intern name => intern name
  | _, .symbolName s => reading (·.symName s)
  | _, .summary => reading (·.summary)
  | _, .defineClass outer name superclass => attempt (defineClass outer name superclass)
  | _, .defineModule outer name => attempt (defineModule outer name)
  | _, .classGet name => reading (·.classGet name)
  | _, .classOf v => reading (·.classOf v)
  | _, .realClassOf v => do ofOption ((← get).realClassOf? v)
  | _, .singletonClass v => attempt (singletonClass v)
  | _, .expectClass v => attempt (expectClass v)
  | _, .expectType v t => attempt (expectType v t)
  | _, .superclass c => reading (·.superclass? c)
  | _, .className c => do ofOption ((← get).className c)
  | _, .isKindOf v c => do ofOption ((← get).isKindOf? v c)
  | _, .defineMethod c mid proc noArg => attempt (defineMethod c mid ⟨proc, noArg⟩)
  | _, .undefMethod c mid => attempt (undefMethod c mid)
  | _, .aliasMethod c new old => attempt (aliasMethod c new old)
  | _, .findMethod c mid => do
    return (← ofOption ((← get).findMethod? c mid)).map fun f => (f.proc, f.noArg)
  | _, .respondTo v name => do ofOption ((← get).respondTo? v name)
  | _, .methodNames c => reading (·.methodNames c)
  | _, .constSet c name v => attempt (constSet c name v)
  | _, .constGet c name => attempt (constGet c name)
  | _, .constDefined c name => do return (← ofOption ((← get).lookupConst? c name)).isSome
  | _, .globalSet name v => globalSet name v
  | _, .globalGet name => globalGet name
  | _, .ivarSet target name v => attempt (ivarSet target name v)
  | _, .ivarGet target name => reading (·.ivarGet target name)
  | _, .envNew values => envNew values
  | _, .setEnv proc env => setEnv proc env
  | _, .procFlags proc => reading (·.procFlags proc)
  | _, .procIsNative proc => reading (·.procIsNative proc)
  | _, .procEnv proc => reading (·.procEnv proc)
  | _, .envValues env => reading (·.envValues env)
  | _, .envShared env => reading (·.envIsShared env)
  | _, .envGet proc index => attempt (procEnvGet proc index)
  | _, .envSet proc index v => attempt (procEnvSet proc index v)
  | _, .ownEnvGet index => attempt (ownEnvGet index)
  | _, .args => reading (·.args)
  | _, .argc => reading (·.args.length)
  | _, .arg i => reading (·.arg i)
  | _, .block => reading (·.block)
  | _, .methodName => reading (·.methodName)
  | _, .currentProc => reading (·.currentProc)
  | _, .callDepth => reading (·.depth)
  | _, .protectDepth => reading (·.protectDepth)
  | _, .exceptionNew c message => exceptionNew c message
  | _, .exceptionRaise v => exceptionRaise v
  | _, .raise c message => raise c message
  | _, .frozenError v => frozenError v
  | _, .checkFrozen v => attempt (checkFrozen v)
  | _, .currentException => reading (·.currentException)
  | _, .clearException => clearException
  | _, .exceptionMessage v => reading (·.exceptionMessage v)
  | _, .objectNew c => attempt (objectNew c)
  | _, .istructNew c word => istructNew c word
  | _, .istructGet v => reading (·.istructGet v)
  | _, .freeze v => freeze v
  | _, .isFrozen v => reading (·.isFrozen v)
  | _, .edit id e => edit id e
  | _, .arrayNew items => arrayNew items
  | _, .arrayLen a => attempt (arrayLen a)
  | _, .arrayGet a index => attempt (arrayGet a index)
  | _, .arraySet a index v => attempt (arraySet a index v)
  | _, .arrayPush a v => attempt (arrayPush a v)
  | _, .arrayItems a => attempt (arrayValues a)
  | _, .stringNew bytes => stringNew bytes
  | _, .stringBytes s => attempt (stringBytes s)
  | _, .stringText s => attempt (stringText s)
  | _, .stringLen s => attempt (stringLen s)
  | _, .stringAppend s tail => attempt (stringAppend s tail)
  | _, .hashNew => hashNew
  | _, .hashSet h key v => attempt (hashSet h key v)
  | _, .hashGet h key => attempt (hashGet h key)
  | _, .hashDelete h key => attempt (hashDelete h key)
  | _, .hashLen h => attempt (hashLen h)
  | _, .hashEntries h => attempt (hashEntries h)
  | _, .hashKeys h => attempt (hashKeys h)
  | _, .hashValues h => attempt (hashValues h)
  | _, .hashClear h => attempt (hashClear h)
  | _, .rangeNew first last exclusive => rangeNew first last exclusive
  | _, .rangeParts r => attempt do
    let data ← rangeData r
    return (data.first, data.last, data.exclusive)
  | _, .rangeSpan r len trunc => attempt (rangeSpan r len trunc)
  | _, .arenaSave => reading (·.heap.arenaSave)
  | _, .arenaRestore mark => onHeap (·.arenaRestore mark)
  | _, .arenaPush id => protecting id
  | _, .collect => collect
  | _, .setCollecting on => setCollecting on
  | _, .isDead id => reading (·.heap.isDead id)
  | _, .liveCount => reading (·.heap.live)
  | _, .collections => reading (·.heap.collections)

end GuestVM
