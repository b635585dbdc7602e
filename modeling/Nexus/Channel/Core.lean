import Nexus.Channel.PaygCredit

/-!
# Processing a device

`nexus_channel_core_process` and `nx_common_process`, as far as links and credit
depend on them. Messages that have arrived are handled first; then the links
age, pending links are made and unmade; then the credit is looked after, with
the seconds since the last call.

Of the messages only what they do to links and credit is kept: a handshake that
succeeds creates a link, a secured message moves the nonce of its link and
keeps the link active. The timers of handshakes are left out.
-/

namespace Nexus.Channel

variable {max : MaxLinks}

/-- `NEXUS_CHANNEL_SUPPORT_ACCESSORY_MODE` alone. -/
def accessoryOnly : SupportedModes := ⟨true, false⟩

/-- The links and the credit of a device, and the uptime of its last
`nx_common_process`. -/
structure ChannelDevice (max : MaxLinks) where
  links : LinkManager max
  credit : PaygCredit
  uptime : UInt32

/-- What a message that has arrived does. -/
inductive ChannelMessage
  | creditPost (payload : List Rep)
  | creditGetResponse (payload : List Rep)
  | creditGet (product : ProductCredit)
  | linkToController (id : NxId) (securityMode : UInt8)
      (data : SecurityMode0Data)
  | linkToAccessory (id : NxId) (securityMode : UInt8)
      (data : SecurityMode0Data)
  | setNonce (id : NxId) (newNonce : UInt32)
  | resetActive (id : NxId)

/-- What a call of `nexus_channel_core_process` meets: the messages, what the
product says, and whether a POST can be prepared and sent. -/
structure CoreCall where
  messages : List ChannelMessage
  product : ProductCredit
  initOk : Bool
  doOk : Bool

namespace ChannelDevice

/-- One message in `oc_main_poll`, and what the product is told. The code for
the other role is not there. -/
def handle (support : SupportedModes) (d : ChannelDevice max) :
    ChannelMessage → List CreditCall × ChannelDevice max
  | .creditPost payload =>
      let r := d.credit.postHandler support d.links payload
      (r.2.1, { d with credit := r.2.2 })
  | .creditGetResponse payload =>
      if support.accessoryMode then
        let r := d.credit.getResponseHandler support d.links payload
        (r.1, { d with credit := r.2 })
      else ([], d)
  | .creditGet product =>
      ([], { d with
        credit := (d.credit.getHandler support d.links product 0).2 })
  | .linkToController id securityMode data =>
      if support.accessoryMode then
        ([], { d with
          links := (d.links.createLink id .accessory securityMode data).2 })
      else ([], d)
  | .linkToAccessory id securityMode data =>
      if support.controllerMode then
        ([], { d with
          links := (d.links.createLink id .controller securityMode data).2 })
      else ([], d)
  | .setNonce id newNonce =>
      ([], { d with
        links := (d.links.setSecurityDataAuthNonce id newNonce).2 })
  | .resetActive id =>
      ([], { d with links := (d.links.resetLinkSecsSinceActive id).2 })

/-- `oc_main_poll`. -/
def mainPoll (support : SupportedModes) : List ChannelMessage →
    ChannelDevice max → List CreditCall × ChannelDevice max
  | [], d => ([], d)
  | message :: messages, d =>
      let r := d.handle support message
      let rest := mainPoll support messages r.2
      (r.1 ++ rest.1, rest.2)

/-- What comes of a call: what the product is told while messages are handled
and afterwards, and the new state. -/
structure CoreProcessed (max : MaxLinks) where
  messageCalls : List CreditCall
  calls : List CreditCall
  device : ChannelDevice max

/-- `nexus_channel_core_process`. -/
def coreProcess (support : SupportedModes) (call : CoreCall)
    (secondsElapsed : UInt32) (d : ChannelDevice max) : CoreProcessed max :=
  let polled := mainPoll support call.messages d
  let links := polled.2.links.process secondsElapsed
  let r := polled.2.credit.process support links call.product call.initOk
    call.doOk secondsElapsed
  ⟨polled.1, r.calls, { polled.2 with links := links, credit := r.credit }⟩

/-- `nx_common_process`: nothing is done when the uptime has gone back. -/
def commonProcess (support : SupportedModes) (call : CoreCall)
    (uptimeSeconds : UInt32) (d : ChannelDevice max) : CoreProcessed max :=
  if uptimeSeconds < d.uptime then ⟨[], [], d⟩
  else
    { d with uptime := uptimeSeconds }.coreProcess support call
      (uptimeSeconds - d.uptime)

/-- `nx_channel_accessory_delete_all_links`. -/
def deleteAllLinks (d : ChannelDevice max) : ChannelDevice max :=
  { d with links := d.links.clearAllLinks }

/-- A start with these links, after `nx_common_init`. -/
def start (support : SupportedModes) (links : LinkManager max)
    (product : ProductCredit) (initialUptime : UInt32) : ChannelDevice max :=
  ⟨links, (PaygCredit.init support links product).2, initialUptime⟩

/-- `nx_common_init` after a restart, with what the storage holds. -/
def restart (support : SupportedModes) (product : ProductCredit)
    (initialUptime : UInt32) (d : ChannelDevice max) : ChannelDevice max :=
  start support (LinkManager.init max d.links.nv) product initialUptime

end ChannelDevice

end Nexus.Channel
