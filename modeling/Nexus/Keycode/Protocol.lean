import Nexus.Keycode.Full

/-!
# The protocol layer as a system

Between two operations the protocol layer is a `Machine`; an operation is a
frame of either protocol, a custom flag changed by the product, or a power
cycle. The trace of a machine after an operation is the trace of that operation
alone.
-/

namespace Nexus.Keycode

open Nexus.Util

/-- What can happen to the protocol layer. Each frame comes with what the
product answers while it is handled. -/
inductive Operation
  | smallFrame (env : Env) (frame : Frame)
  | fullFrame (env : Env) (frame : Frame)
  | setCustomFlag (flag : CustomFlag)
  | resetCustomFlag (flag : CustomFlag)
  | reboot

namespace Machine

/-- One completed operation and its response; those that give none answer
`Response.none`. -/
def perform (cfg : Config) (m : Machine) : Operation → Response × Machine
  | .smallFrame env frame => m.quiet.smallParseAndApply cfg env frame
  | .fullFrame env frame => m.quiet.fullParseAndApply cfg env frame
  | .setCustomFlag flag => (.none, m.quiet.setCustomFlag flag)
  | .resetCustomFlag flag => (.none, m.quiet.resetCustomFlag flag)
  | .reboot => (.none, m.quiet.init)

/-- The machine after one operation. -/
def step (cfg : Config) (m : Machine) (op : Operation) : Machine :=
  (m.perform cfg op).2

/-- Power on over a store: RAM is zeroed and initialised. -/
def boot (nv : Nv.Store) : Machine :=
  init ⟨⟨Vector.replicate 5 0, 0, 0, 0, 0⟩, nv, []⟩

/-- What the product sees of a run: the response and the calls of every
operation that is not a power cycle. -/
def observe (cfg : Config) :
    Machine → List Operation → List (Response × List Effect)
  | _, [] => []
  | m, op :: ops =>
      match op with
      | .reboot => observe cfg (m.step cfg op) ops
      | _ =>
          ((m.perform cfg op).1, (m.perform cfg op).2.effects)
            :: observe cfg (m.step cfg op) ops

end Machine

/-- A product for examples: the key of zeros, a passthrough handler that takes
everything, and nothing on the stack. -/
def testEnv (paygState : PaygState) : Env where
  secretKey := integrityCheckFixed00Key
  paygState := paygState
  userFacingId := 12345678
  passthroughKeycode _ := .none
  stack := ⟨Vector.replicate 4 0, Vector.replicate 4 0, Vector.replicate 4 0,
    fun _ => 0⟩

end Nexus.Keycode
