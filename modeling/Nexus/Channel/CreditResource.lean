import Nexus.Channel.Engine
import Nexus.Channel.PaygCredit

/-!
# The resource `/nx/pc`

How `nexus_channel_res_payg_credit.c` is registered with the engine. Its POST
handler is told from all other handlers of the device, its own GET handler among
them. The calls of `nxp_channel_payg_credit_set` and
`nxp_channel_payg_credit_unlock` are kept in the order in which they were made.
-/

namespace Nexus.Channel

open Nexus.Util

/-- `nexus_channel_res_payg_credit_post_handler`, or another handler. -/
inductive ChannelHandler (H : Type)
  | creditPost
  | other (handler : H)
deriving DecidableEq

/-- "/nx/pc". -/
def creditUri : List UInt8 := [0x2F, 0x6E, 0x78, 0x2F, 0x70, 0x63]

/-- `pc_props` of `nexus_channel_res_payg_credit_init`. -/
def creditProps {H : Type} (getHandler : H) :
    ResourceTable.ResourceProps (ChannelHandler H) where
  uri := creditUri
  ifMasks := [ifRw, ifBaseline]
  getHandler := some (.other getHandler)
  getSecured := false
  postHandler := some .creditPost
  postSecured := true

/-- The credit, the calls that were made, and the state of everything else. -/
structure ChannelState (A : Type) where
  credit : PaygCredit
  calls : List CreditCall
  other : A
deriving DecidableEq

/-- `PAYG_CREDIT_UNITS_SHORT_PROP_NAME`, "un". -/
def creditUnitsShortPropName : List UInt8 := [0x75, 0x6E]

/-- The response with its properties as a map of indefinite length. -/
def PaygCredit.PostResponse.toOcResponse : PostResponse → OcResponse
  | .changed re un => ⟨.changed, [0xBF]
      ++ Cbor.encodeTextString creditRemainingShortPropName
      ++ Cbor.encodeUint re.toUInt64
      ++ Cbor.encodeTextString creditUnitsShortPropName
      ++ Cbor.encodeUint un.toUInt64 ++ [Cbor.breakByte]⟩
  | .badRequest => ⟨.badRequest, []⟩

variable {max : MaxLinks} {H A : Type}

/-- `nexus_channel_res_payg_credit_post_handler` as the engine calls it. -/
def creditPostHandler (support : SupportedModes)
    (request : OcRequest (ChannelHandler H) (List Rep))
    (links : LinkManager max) (state : ChannelState A) :
    Option OcResponse × ChannelState A :=
  let (response, calls, credit) := PaygCredit.postHandler support links
    (request.requestPayload.getD []) state.credit
  (some response.toOcResponse,
    { state with credit := credit, calls := state.calls ++ calls })

/-- The application with this handler among its handlers. -/
def creditApplication (support : SupportedModes)
    (parseRep : List UInt8 → Except RepError (List Rep))
    (handleOther : H → OcRequest (ChannelHandler H) (List Rep) →
      LinkManager max → ChannelState A → Option OcResponse × ChannelState A)
    (respond : ClientCb → OcClientResponse (List Rep) → LinkManager max →
      ChannelState A → List OutgoingRequest × ChannelState A) :
    Application max (ChannelHandler H) (List Rep) (ChannelState A) where
  parseRep := parseRep
  handle
    | .creditPost => creditPostHandler support
    | .other handler => handleOther handler
  respond := respond

end Nexus.Channel
