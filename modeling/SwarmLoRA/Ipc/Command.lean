import SwarmLoRA.Ipc.Ring
import SwarmLoRA.Ipc.SlotMask

/-! The entries of the command ring: their fields, the checks that `submit_slot_command` makes
before it reserves one, and the order in which it fills in the reserved one. -/
namespace Ipc

def OP_O_PROJ : Int := 3
def OP_DOWN_PROJ : Int := 6
def OP_QKV_FUSED : Int := 9
def OP_GATE_UP_FUSED : Int := 10
def OP_EMBED : Int := 11
def OP_LM_HEAD : Int := 12
def OP_SET_SAMPLING : Int := 13

structure Command where
  op_type : Int
  layer_idx : Int
  slot_id : Int
  worker_id : Int
  bx : Int
  tx : Int
  dx : Int
  x_key : Nat
  y0_key : Nat
  y1_key : Nat
  y2_key : Nat
  ticket_id : Int
  deriving DecidableEq

/-- The checks on the fields. They all come before the reservation, so a command
that fails one leaves the ring as it was. -/
def submit_slot_command_check (cmd : Command) : Except String Unit :=
  if cmd.slot_id < 0 ∨ (MAX_SLOTS : Int) ≤ cmd.slot_id then
    .error ("submit_slot_command: slot_id out of range: " ++ toString cmd.slot_id)
  else if cmd.worker_id < 0 ∨ 100000 < cmd.worker_id then
    .error ("submit_slot_command: invalid worker_id: " ++ toString cmd.worker_id)
  else if cmd.bx ≤ 0 ∨ cmd.tx ≤ 0 ∨ 65536 < cmd.bx ∨ 65536 < cmd.tx then
    .error ("submit_slot_command: invalid bx/tx: bx=" ++ toString cmd.bx ++ " tx=" ++
      toString cmd.tx)
  else if 65536 * 65536 < cmd.bx * cmd.tx then
    .error "submit_slot_command: bx*tx overflow"
  else .ok ()

/-- The field writes of `submit_slot_command` in the order of the source. -/
def Command.layout : Layout Command where
  writes := [
    fun cmd entry => { entry with op_type := cmd.op_type },
    fun cmd entry => { entry with layer_idx := cmd.layer_idx },
    fun cmd entry => { entry with slot_id := cmd.slot_id },
    fun cmd entry => { entry with worker_id := cmd.worker_id },
    fun cmd entry => { entry with bx := cmd.bx },
    fun cmd entry => { entry with tx := cmd.tx },
    fun cmd entry => { entry with dx := cmd.dx },
    fun cmd entry => { entry with x_key := cmd.x_key },
    fun cmd entry => { entry with y0_key := cmd.y0_key },
    fun cmd entry => { entry with y1_key := cmd.y1_key },
    fun cmd entry => { entry with y2_key := cmd.y2_key },
    fun cmd entry => { entry with ticket_id := cmd.ticket_id }]
  complete := fun _ _ => rfl

/-- What the checks promise about a command that reaches the ring. -/
theorem submit_slot_command_check_ok {cmd : Command}
    (h : submit_slot_command_check cmd = .ok ()) :
    (0 ≤ cmd.slot_id ∧ cmd.slot_id < MAX_SLOTS) ∧
    (0 ≤ cmd.worker_id ∧ cmd.worker_id ≤ 100000) ∧
    (0 < cmd.bx ∧ cmd.bx ≤ 65536) ∧ 0 < cmd.tx ∧ cmd.tx ≤ 65536 := by
  unfold submit_slot_command_check at h
  split at h
  next => simp at h
  next hSlot =>
    split at h
    next => simp at h
    next hWorker =>
      split at h
      next => simp at h
      next hShape => omega

end Ipc
