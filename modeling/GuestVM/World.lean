import GuestVM.Machine.Boot
import GuestVM.Script.Hosting
import GuestVM.Stage

/-! # Worlds

A world holds the machines that are open, each under a name, and the bridge they share.  A linked
machine is registered when it is opened and remembers its index; closing it drops the callables of
that index and unregisters it.  A bare machine is not registered until it asks to be. -/
set_option autoImplicit false

namespace GuestVM

structure Instance where
  machine : Machine
  /-- The index that a linked machine was opened with. -/
  link : Option Nat := none
  bindings : List (String × Value) := []

/-- A linked machine as diagnostics show it. -/
def Instance.summary (i : Instance) (index : Nat) : String :=
  "State \x7b index: " ++ toString index ++ ", vm: " ++ i.machine.summary ++ " \x7d"

structure World where
  bridge : Bridge := {}
  /-- The handle that the next machine gets. -/
  nextHandle : UInt64 := 1
  instances : List (String × Instance) := []

namespace World

def instance? (w : World) (name : String) : Option Instance := w.instances.lookup name

def put (w : World) (name : String) (i : Instance) : World :=
  { w with instances := (name, i) :: w.instances.filter (·.1 != name) }

/-- Opens a machine that is not registered. -/
def openBare (w : World) (name : String) (config : Config) : World :=
  { w.put name { machine := .opened ⟨w.nextHandle⟩ config } with nextHandle := w.nextHandle + 1 }

def openLinked (w : World) (name : String) (config : Config) : World :=
  let h : Handle := ⟨w.nextHandle⟩
  let (index, registry) := w.bridge.registry.register h
  { w.put name { machine := .opened h config, link := some index } with
    bridge := { w.bridge with registry := registry }
    nextHandle := w.nextHandle + 1 }

def unlink (b : Bridge) (i : Instance) : Bridge :=
  { tables := (i.link.map b.tables.drop).getD b.tables
    registry := (b.registry.unregister i.machine.handle).2 }

def close (w : World) (name : String) : World :=
  match w.instance? name with
  | some i =>
    { w with
      bridge := unlink w.bridge i
      instances := w.instances.filter (·.1 != name) }
  | none => w

/-- Runs a script in a machine; gives its outcome and the journal. -/
def enter (w : World) (fuel : Nat) (name : String) (script : Script) :
    Option (Outcome × List Document × World) :=
  match w.instance? name with
  | none => none
  | some i =>
    let stage : Stage :=
      { machine := i.machine, bridge := w.bridge, memory := { bindings := i.bindings } }
    match Stage.run fuel script stage with
    | none => none
    | some (o, s) =>
      let after := { i with machine := s.machine, bindings := s.memory.bindings }
      some (o, s.memory.journal.toList, { w.put name after with bridge := s.bridge })

end World

end GuestVM
