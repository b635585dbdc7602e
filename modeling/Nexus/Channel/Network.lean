import Nexus.Channel.Engine

/-!
# Devices on a network

Any number of devices, each with its own resources, links and application, and
the messages they have sent so far. What a device receives is up to the network:
any packet, at any time, as often as it likes and from whatever sender it
claims. It cannot compute tags under a link key that it does not have, so what
verifies under such a key has a tag that one of the devices computed.

Between messages a device does what it likes, but it only keeps messages to send
again that it has sent before.
-/

namespace Nexus.Channel

open Nexus.Util

variable {ι : Type} [DecidableEq ι] {max : ι → MaxLinks} {H R A : ι → Type}

/-- The devices, and who has sent what. -/
structure Network (max : ι → MaxLinks) (H A : ι → Type) where
  devices : (i : ι) → Engine (max i) (H i) (A i)
  sent : List (ι × OcMessage)

/-- What happens to one of the devices: it sends a request, it gets a packet, or
anything else happens in it. -/
inductive Network.Op (max : ι → MaxLinks) (H A : ι → Type)
  | send (i : ι) (r : OutgoingRequest)
  | receive (i : ι) (s : Surroundings) (sender : NxId) (pkt : CoapPacket)
  | change (i : ι) (resources : ResourceTable (H i))
      (links : LinkManager (max i)) (client : ClientCbs) (app : A i)

/-- The messages among what is seen of a device. -/
def sentMessages {H R : Type} (effects : List (Effect H R)) :
    List OcMessage :=
  effects.filterMap fun effect =>
    match effect with
    | .sent message => some message
    | _ => none

namespace Network

/-- A device moves on. -/
def advance (n : Network max H A) (i : ι)
    (moved : Engine (max i) (H i) (A i) × List (Effect (H i) (R i))) :
    Network max H A where
  devices := Function.update n.devices i moved.1
  sent := n.sent ++ (sentMessages moved.2).map fun message => (i, message)

variable (app : (i : ι) → Application (max i) (H i) (R i) (A i))

def step (n : Network max H A) : Op max H A → Network max H A
  | .send i r => n.advance i ((n.devices i).sendRequest (R := R i) r)
  | .receive i s sender pkt =>
      n.advance i ((n.devices i).coapReceive (app i) s sender pkt)
  | .change i resources links client state =>
      n.advance (R := R) i ({ n.devices i with
        resources := resources
        links := links
        client := client
        app := state }, [])

/-- What verifies under the key has a tag that a device computed, over the same
bytes. -/
def Unforged (key : CheckKey) (n : Network max H A) : Op max H A → Prop
  | .receive _ s _ pkt => ∀ nonce payload,
      verifyMessage key pkt.aad pkt.payload s.staleTag = .ok (nonce, payload) →
      ∃ sender message params, (sender, message) ∈ n.sent ∧
        message.signed = some params ∧ params.key = key ∧
        macStructureBytes params.nonceToProtect params.aad params.payload
          = macStructureBytes nonce pkt.aad payload
  | _ => True

/-- Nothing has been sent, and nothing is kept. -/
def Fresh (n : Network max H A) : Prop :=
  n.sent = [] ∧ ∀ i id, (n.devices i).messages id = none

end Network

end Nexus.Channel
