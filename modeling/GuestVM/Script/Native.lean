import GuestVM.Script

/-! # Ready-made native procs

Small native code that shows how a call reached it: its receiver, arguments, block, environment and
depth; that calls on; and that raises. -/
set_option autoImplicit false

namespace GuestVM

inductive Native where
  | noop | self | args | argc | env0 | env1 | mid | block
  | yield
  | recurse
  | raise
  | depth
  deriving DecidableEq

namespace Native

def ofName? : String → Option Native
  | "noop" => some .noop
  | "self" => some .self
  | "args" => some .args
  | "argc" => some .argc
  | "env0" => some .env0
  | "env1" => some .env1
  | "mid" => some .mid
  | "block" => some .block
  | "yield" => some .yield
  | "recurse" => some .recurse
  | "raise" => some .raise
  | "depth" => some .depth
  | _ => none

def retSize (n : Nat) : Script := Script.ret (.int (Int64.ofNat n))

def code (n : Native) (self : Value) : Script :=
  match n with
  | .noop => Script.ret .nil
  | .self => Script.ret self
  | .args => .guest .args fun vs => .guest (.arrayNew vs) Script.ret
  | .argc => .guest .argc retSize
  | .env0 => .guest (.ownEnvGet 0) Script.ofResult
  | .env1 => .guest (.ownEnvGet 1) Script.ofResult
  | .mid => .guest .methodName fun (m : Option Sym) => Script.ret ((m.map Value.sym).getD .nil)
  | .block => .guest .block Script.ret
  | .yield => .guest .block fun b => .guest .args fun vs => .callProc b self vs Script.ofResult
  | .recurse =>
    .guest .methodName fun (m : Option Sym) =>
      match m with
      | some m => .guest .args fun vs => .call self m vs .nil Script.ofResult
      | none => Script.ret .nil
  | .raise =>
    .guest (.raise Builtin.runtimeError.id "native boom") fun e => .done (.raised e)
  | .depth => .guest .callDepth retSize

end Native

end GuestVM
