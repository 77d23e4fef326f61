import GuestVM.Proofs.Machine.Owning
import GuestVM.Proofs.Scene.Current

/-! # Bridged procs last

A bridged proc leads to its callable for as long as it is alive.  A step writes to its environment
only through a proc that has it, so through the bridged proc itself. -/
set_option autoImplicit false

namespace GuestVM

variable {g : Grant} {m m' : Machine} {p e : ObjId} {form : Form} {n : Nat}

/-- Who may not write through a bridged proc may not write to its environment. -/
theorem Grant.spares_of_ownEnvs (own : m.OwnEnvs) (rebinds : g.rebinds = none)
    (edits : g.edits = none) (owner : g.owner ≠ some p) (bridged : m.Bridged p e form n) :
    g.Spares m p e := by
  constructor
  · rw [rebinds]
    nofun
  · exact edits
  · intro q granted owned
    have same := own.apart q p e owned bridged.procEnv
    exact owner (same ▸ granted)

theorem Evolution.keeps_bridged (evolution : Evolution g m m') (tidy : m.heap.Tidy)
    (own : m.OwnEnvs) (rebinds : g.rebinds = none) (edits : g.edits = none)
    (owner : g.owner ≠ some p) (quiet : g.sweeps = false) (bridged : m.Bridged p e form n) :
    m'.Bridged p e form n := by
  induction evolution with
  | refl => exact bridged
  | tail before change ih =>
      have middle := Evolution.tidy before tidy
      have owning := Evolution.ownEnvs before tidy rebinds edits own
      have spares := Grant.spares_of_ownEnvs owning rebinds edits owner ih
      rcases change.live middle ih.live with live | sweeping
      · exact change.bridged middle spares live ih
      · rw [quiet] at sweeping
        cases sweeping

theorem Scene.step_keeps_bridged {a b : Scene} (stepped : a.step = some b)
    (tidy : a.stage.machine.heap.Tidy) (own : a.stage.machine.OwnEnvs)
    (rebinds : a.grant.rebinds = none) (edits : a.grant.edits = none)
    (owner : a.grant.owner ≠ some p) (live : b.stage.machine.Live p)
    (bridged : a.stage.machine.Bridged p e form n) : b.stage.machine.Bridged p e form n := by
  cases sweeps : a.grant.sweeps with
  | false =>
      have evolution := (step_evolution stepped tidy).1
      exact evolution.keeps_bridged tidy own rebinds edits owner sweeps bridged
  | true =>
      obtain ⟨next, script⟩ := script_of_sweeps sweeps
      rw [machine_of_collect script stepped] at live ⊢
      have collected : Change { sweeps := true } a.stage.machine _ := .collect rfl rfl
      have spares := Grant.spares_of_ownEnvs (g := { sweeps := true }) own rfl rfl nofun bridged
      exact collected.bridged tidy spares live bridged

end GuestVM
