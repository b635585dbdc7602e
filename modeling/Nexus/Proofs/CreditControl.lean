import Nexus.Channel.CreditResource
import Nexus.Proofs.CreditPost
import Nexus.Proofs.SecuredHandlers

/-!
# Who sets the credit

The POST handler of `/nx/pc` leaves it to the security manager to keep away
those who may not control this device, and the security manager asks no more
than that there is a link to the sender and that the message verifies under its
key. Which of the two devices of a link is the controller nobody asks. So a
device may not only be set by its controllers: an accessory of its own can set
it with the same message.

Everything else of a POST that does not verify, or whose nonce is not taken, is
answered with an error and changes nothing, as is one that verifies and carries
no credit.
-/

namespace Nexus.Channel

open Nexus.Util Nexus.Lib

variable {max : MaxLinks} {H A : Type}

/-! ## The resource in its table -/

/-- A resource that is found under `/nx/pc`. -/
structure SetsCredit (r : Resource (ChannelHandler H)) : Prop where
  uri : r.uri = creditUri
  post : r.postHandler = some .creditPost
  interfaces : r.interfaces = ifBaseline ||| ifRw
  default : r.defaultInterface = ifRw

/-- Its GET handler may be any. -/
theorem SetsCredit.setRequestHandler {r : Resource (ChannelHandler H)}
    (h : SetsCredit r) (callback : Option (ChannelHandler H)) :
    SetsCredit (r.setRequestHandler .get callback) :=
  ⟨h.uri, h.post, h.interfaces, h.default⟩

namespace ResourceTable

/-- The table leads to `/nx/pc` from every path that means it, and has its POST
among the secured methods. -/
structure ServesCredit (t : ResourceTable (ChannelHandler H)) : Prop where
  found : ∀ path, storeUri path = creditUri →
    ∃ r, t.getAppResourceByUri path = some r ∧ SetsCredit r
  secured : ⟨creditUri, .post⟩ ∈ t.secResMethods

/-- A lookup does not mind what else happens to resources. -/
theorem getAppResourceByUri_map (t : ResourceTable H)
    {f : Resource H → Resource H} (hf : ∀ r, (f r).uri = r.uri)
    (path : List UInt8) :
    getAppResourceByUri { t with appResources := t.appResources.map f } path
      = (t.getAppResourceByUri path).map f := by
  unfold getAppResourceByUri
  dsimp only
  rw [List.find?_map]
  simp only [Function.comp_def, hf]

theorem uri_replaceHandler (uri : List UInt8) (method : Method)
    (callback : Option H) (r : Resource H) :
    (if r.uri = uri then r.setRequestHandler method callback else r).uri
      = r.uri := by
  split
  · exact uri_setRequestHandler r method callback
  · rfl

section

variable {t : ResourceTable (ChannelHandler H)} {path : List UInt8}

/-- `/nx/pc` is still found when other handlers are replaced. -/
theorem found_replaceHandler {uri : List UInt8} {method : Method}
    {callback : Option (ChannelHandler H)}
    (hother : uri ≠ creditUri ∨ method = .get)
    (h : ∃ r, t.getAppResourceByUri path = some r ∧ SetsCredit r) :
    ∃ r, getAppResourceByUri
        { t with appResources := t.appResources.map fun r =>
          if r.uri = uri then r.setRequestHandler method callback
          else r } path = some r ∧ SetsCredit r := by
  obtain ⟨r, hfound, hr⟩ := h
  rw [getAppResourceByUri_map t (uri_replaceHandler uri method callback),
    hfound]
  refine ⟨_, rfl, ?_⟩
  dsimp only
  split
  next huri =>
    rcases hother with hother | rfl
    · exact absurd (huri.symm.trans hr.uri) hother
    · exact hr.setRequestHandler callback
  · exact hr

theorem found_secureMethod {secured : Bool} {uri : List UInt8}
    {method : Method} (hother : uri ≠ creditUri ∨ method = .get)
    (h : ∃ r, t.getAppResourceByUri path = some r ∧ SetsCredit r) :
    ∃ r, (if secured then t.secureMethod uri method
      else (true, t)).2.getAppResourceByUri path = some r ∧ SetsCredit r := by
  cases secured with
  | false => exact h
  | true =>
      rw [if_pos rfl, secureMethod]
      split
      · exact h
      · exact found_replaceHandler hother h

/-- No registration takes `/nx/pc` away. -/
theorem ServesCredit.step (h : ServesCredit t)
    (reg : Registration (ChannelHandler H)) : ServesCredit (t.step reg) := by
  refine ⟨fun path hpath => ?_, ?_⟩
  · have hfound := h.found path hpath
    cases reg with
    | resource props =>
        rw [ResourceTable.step, registerResource]
        split
        · exact hfound
        · dsimp only
          split
          · exact hfound
          next hnew =>
            -- its own URI is taken
            have hother : storeUri props.uri ≠ creditUri := by
              intro huri
              obtain ⟨r, hr, -⟩ := h.found creditUri rfl
              refine hnew ?_
              show (t.getAppResourceByUri (storeUri props.uri)).isSome = true
              rw [huri, hr]
              rfl
            split
            · exact hfound
            · refine found_secureMethod (.inl hother)
                (found_secureMethod (.inl hother) ?_)
              obtain ⟨r, hr, hsets⟩ := hfound
              refine ⟨r, ?_, hsets⟩
              unfold getAppResourceByUri at hr ⊢
              dsimp only at hr ⊢
              rw [List.find?_append, hr]
              rfl
    | handler uri method callback secured =>
        rw [ResourceTable.step, registerResourceHandler]
        cases hres : t.getAppResourceByUri uri with
        | none => exact hfound
        | some res =>
            dsimp only
            split
            · exact hfound
            next hmethod =>
              split
              · exact hfound
              next hfree =>
                -- its POST handler is there already
                have hother : res.uri ≠ creditUri ∨ method = .get := by
                  by_cases huri : res.uri = creditUri
                  · refine .inr ?_
                    have hhead : res.uri.head? = some slash := by
                      rw [huri]
                      rfl
                    obtain ⟨-, hstore⟩ := uri_of_getAppResourceByUri hres hhead
                    obtain ⟨r, hr, hsets⟩ :=
                      h.found uri (hstore.symm.trans huri)
                    rw [hres] at hr
                    cases hr
                    cases method with
                    | get => rfl
                    | post =>
                        refine absurd ?_ hfree
                        show res.postHandler.isSome = true
                        rw [hsets.post]
                        rfl
                    | put => exact absurd (.inl rfl) hmethod
                    | delete => exact absurd (.inr rfl) hmethod
                  · exact .inl huri
                exact found_secureMethod hother
                  (found_replaceHandler hother hfound)
  · rw [(secResMethods_step t reg).1]
    exact List.mem_append_left _ h.secured

/-- Nor does a sequence of them. -/
theorem ServesCredit.run (h : ServesCredit t)
    (regs : List (Registration (ChannelHandler H))) :
    ServesCredit (Lib.run ResourceTable.step t regs) :=
  run_invariant (P := ServesCredit) (fun _ reg ht _ => ht.step reg) h
    (along_true t regs)

/-- The registration of `/nx/pc`, if it does not fail. -/
theorem servesCredit_of_registered {getHandler : H}
    (hslashes : ∀ uri ∈ t.appResources.map Resource.uri,
      uri.head? = some slash)
    (hok : (t.registerResource (creditProps getHandler)).1 = true) :
    ServesCredit (t.step (.resource (creditProps getHandler))) := by
  rw [ResourceTable.step]
  unfold registerResource at hok ⊢
  split at hok
  · cases hok
  next hroom =>
    rw [if_neg hroom]
    dsimp only at hok ⊢
    split at hok
    · cases hok
    next hnew =>
      rw [if_neg hnew]
      have hhandlers : ¬ ((newResource (creditProps getHandler)).getHandler.isNone
          = true ∧ (newResource (creditProps getHandler)).postHandler.isNone
            = true) := by
        intro h
        cases h.1
      rw [if_neg hhandlers] at hok ⊢
      rw [if_neg (show ¬ (creditProps getHandler).getSecured = true from
        Bool.false_ne_true), if_pos (show
          (creditProps getHandler).postSecured = true from rfl)] at hok ⊢
      dsimp only at hok ⊢
      unfold secureMethod at hok ⊢
      split at hok
      next hfree =>
        rw [if_pos hfree]
        refine ⟨fun path hpath => ⟨newResource (creditProps getHandler), ?_,
          rfl, rfl, rfl, rfl⟩, List.mem_append_right _ List.mem_cons_self⟩
        -- nothing in front of it has its URI
        have hnone : t.getAppResourceByUri path = none := by
          rw [← Option.not_isSome_iff_eq_none]
          intro hsome
          obtain ⟨r, hr⟩ := Option.isSome_iff_exists.mp hsome
          have hmem : r ∈ t.appResources := List.mem_of_find?_eq_some hr
          obtain ⟨-, huri⟩ := uri_of_getAppResourceByUri hr
            (hslashes r.uri (List.mem_map_of_mem hmem))
          refine hnew ?_
          show (t.getAppResourceByUri creditUri).isSome = true
          unfold getAppResourceByUri
          refine List.find?_isSome.mpr ⟨r, hmem, ?_⟩
          rw [huri, hpath]
          rfl
        have hpaths : path = creditUri ∨ path = creditUri.drop 1 := by
          unfold storeUri at hpath
          split at hpath
          · exact .inl hpath
          · exact .inr (by rw [← hpath]; rfl)
        unfold getAppResourceByUri at hnone ⊢
        dsimp only at hnone ⊢
        rw [List.find?_append, hnone]
        rcases hpaths with rfl | rfl <;> rfl
      · cases hok

end

/-- So it is found from then on. -/
theorem servesCredit_registered {maxAppResources : ℕ} {getHandler : H}
    {before after : List (Registration (ChannelHandler H))}
    (hok : ((registered maxAppResources before).registerResource
      (creditProps getHandler)).1 = true) :
    ServesCredit (registered maxAppResources
      (before ++ .resource (creditProps getHandler) :: after)) := by
  rw [registered, run_append]
  refine (servesCredit_of_registered ?_ hok).run after
  intro uri huri
  obtain ⟨props, -, rfl⟩ := uri_of_registered huri
  exact head_storeUri props.uri

end ResourceTable

/-! ## Links, answers and payloads -/

/-- There is a link to the sender in which this device is the accessory. -/
def LinkManager.ControlledBy (m : LinkManager max) (sender : NxId) : Prop :=
  ∃ link, m.linkFromNxid sender = some link ∧
    link.operatingMode = OperatingMode.accessory.toUInt8

/-- An error response goes out to the sender. -/
def AnswersError {R : Type} (sender : NxId) (effects : List (Effect H R)) :
    Prop :=
  ∃ message, .sent message ∈ effects ∧
    message.endpoint = nxIdToOcEndpoint sender ∧
    message.pkt.code ≥ OcStatus.badRequest.code

/-- The packet verifies, its nonce is taken, and this is its payload. -/
def TakenFrom (m : LinkManager max) (sender : NxId) (pkt : CoapPacket)
    (staleTag : Vector UInt8 8) (payload : List UInt8) : Prop :=
  ∃ data nonce, Received.verified m ⟨sender, pkt, staleTag⟩
      = some (data, nonce, payload) ∧ data.nonce + 1 ≤ nonce ∧
    nonce ≤ resetNonceSignalValue - nonceNvStorageIntervalCount

/-- The payload has a property `re` that passes for a credit, and the packet
selects no interface that the resource does not have. -/
def CarriesCredit (parseRep : List UInt8 → Except RepError (List Rep))
    (pkt : CoapPacket) (payload : List UInt8) : Prop :=
  pkt.queryInterface &&& ~~~(ifBaseline ||| ifRw) = 0 ∧ payload ≠ [] ∧
    ∃ rep, parseRep payload = .ok rep ∧
      ∃ value ∈ PaygCredit.remainings rep, PaygCredit.Passes value

/-- The credit changes for a controller of this device only, and any other
sender gets an error response. -/
structure SetByControllers
    (app : Application max (ChannelHandler H) (List Rep) (ChannelState A))
    (s : Surroundings) (e : Engine max (ChannelHandler H) (ChannelState A))
    (sender : NxId) (pkt : CoapPacket) : Prop where
  changes : (e.coapReceive app s sender pkt).1.app.calls ≠ e.app.calls →
    e.links.ControlledBy sender
  refused : ¬ e.links.ControlledBy sender →
    (e.coapReceive app s sender pkt).1.app = e.app ∧
      AnswersError sender (e.coapReceive app s sender pkt).2

theorem PaygCredit.exists_passes_iff {rep : List Rep} :
    (∃ value ∈ remainings rep, Passes value) ↔
      (remainings rep).filterMap taken ≠ [] := by
  constructor
  · intro h
    obtain ⟨value, hmem, hpasses⟩ := h
    obtain ⟨remaining, htaken⟩ :=
      Option.isSome_iff_exists.mp (isSome_taken.mpr hpasses)
    exact List.ne_nil_of_mem (List.mem_filterMap.mpr ⟨value, hmem, htaken⟩)
  · intro h
    obtain ⟨remaining, hmem⟩ := List.exists_mem_of_ne_nil _ h
    obtain ⟨value, hvalue, htaken⟩ := List.mem_filterMap.mp hmem
    exact ⟨value, hvalue, isSome_taken.mp (by rw [htaken]; rfl)⟩

/-! ## The handler -/

namespace Engine

open ResourceTable

variable {app : Application max (ChannelHandler H) (List Rep) (ChannelState A)}
  {support : SupportedModes} {s : Surroundings}
  {e : Engine max (ChannelHandler H) (ChannelState A)} {sender : NxId}
  {pkt : CoapPacket}

/-- No core resource is in the way. -/
theorem getResourceByUri_credit
    {t : ResourceTable (ChannelHandler H)} (ht : t.ServesCredit)
    {path : List UInt8} (hpath : storeUri path = creditUri) :
    ∃ r, t.getResourceByUri path = some r ∧ SetsCredit r := by
  obtain ⟨r, hr, hsets⟩ := ht.found path hpath
  refine ⟨r, ?_, hsets⟩
  unfold ResourceTable.getResourceByUri
  rw [hr]
  refine Option.or_eq_some_iff.mpr (.inr ⟨?_, rfl⟩)
  unfold storeUri at hpath
  split at hpath
  · rw [hpath]
    rfl
  · have htail : path = creditUri.drop 1 := by
      rw [← hpath]
      rfl
    rw [htail]
    rfl

theorem supports_post {ifaceMask : UInt16}
    (h : ifaceMask &&& ~~~(ifBaseline ||| ifRw) = 0) :
    doesInterfaceSupportMethod ifaceMask .post = true := by
  refine if_neg ?_
  intro hmask
  rcases hmask with rfl | rfl | rfl <;> exact absurd h (by decide)

/-- The interface a request for `/nx/pc` selects is looked at as it is. -/
theorem ifaceMask_credit {r : Resource (ChannelHandler H)} (hr : SetsCredit r)
    (queryInterface : UInt16) :
    r.ifaceMask queryInterface &&& ~~~r.interfaces = 0 ↔
      queryInterface &&& ~~~(ifBaseline ||| ifRw) = 0 := by
  rw [hr.interfaces, Resource.ifaceMask, hr.default]
  split
  next hnone =>
    rw [hnone]
    decide
  · rfl

section

variable (hpost : app.handle .creditPost = creditPostHandler support)
  (ht : e.resources.ServesCredit) (hpath : storeUri pkt.uriPath = creditUri)

include hpost ht hpath

variable (sender) in
/-- A POST that carries a credit sets it. -/
theorem invoke_of_carries (h : CarriesCredit app.parseRep pkt pkt.payload) :
    (invokeCoapEntityHandler app e sender pkt .post).2.2.calls
      ≠ e.app.calls := by
  obtain ⟨r, hr, hsets⟩ := getResourceByUri_credit ht hpath
  obtain ⟨hiface, hpayload, rep, hrep, hpasses⟩ := h
  have hmask := (ifaceMask_credit hsets pkt.queryInterface).mpr hiface
  have hsupports : doesInterfaceSupportMethod (r.ifaceMask pkt.queryInterface)
      .post = true := by
    rw [hsets.interfaces] at hmask
    exact supports_post hmask
  have hfound : findHandler app e.resources sender pkt .post
      = .ok (.creditPost, ⟨sender, r, .post, r.ifaceMask pkt.queryInterface,
        some rep⟩) := by
    unfold findHandler
    dsimp only
    rw [if_pos (List.length_pos_of_ne_nil hpayload), hrep, hr]
    simp [Except.map, hmask, hsupports, Resource.handler, hsets.post]
  rw [invoke_of_ok hfound, hpost]
  obtain ⟨last, hlast⟩ := Option.isSome_iff_exists.mp
    (List.getLast?_isSome.mpr (PaygCredit.exists_passes_iff.mp hpasses))
  have hcalls : (PaygCredit.postHandler support e.links rep
      e.app.credit).2.1 = [PaygCredit.creditCall last] :=
    (PaygCredit.postHandler_taken hlast).1
  show e.app.calls ++ (PaygCredit.postHandler support e.links rep
    e.app.credit).2.1 ≠ e.app.calls
  rw [hcalls]
  simp

variable (sender) in
/-- Any other POST gets an error and changes nothing. -/
theorem invoke_of_not_carries
    (h : ¬ CarriesCredit app.parseRep pkt pkt.payload) :
    ∃ code ≥ OcStatus.badRequest.code,
      (invokeCoapEntityHandler app e sender pkt .post).1
        = responseBuffer sender code [] ∧
      (invokeCoapEntityHandler app e sender pkt .post).2.2 = e.app := by
  cases hfound : findHandler app e.resources sender pkt .post with
  | error status =>
      have hstatus : status.code ≥ OcStatus.badRequest.code := by
        unfold findHandler at hfound
        dsimp only at hfound
        split at hfound
        · cases hfound
          decide
        · cases hfound
          decide
        · split at hfound
          · cases hfound
            decide
          · split at hfound
            · cases hfound
              decide
            · split at hfound
              · cases hfound
                decide
              · cases hfound
      unfold invokeCoapEntityHandler
      rw [hfound]
      exact ⟨status.code, hstatus, rfl, rfl⟩
  | ok found =>
      obtain ⟨handler, request⟩ := found
      obtain ⟨hresource, hhandler, -, -, hallowed, hreads⟩ :=
        findHandler_eq_ok hfound
      obtain ⟨r, hr, hsets⟩ := getResourceByUri_credit ht hpath
      obtain rfl : r = request.resource := by
        rw [hresource] at hr
        cases hr
        rfl
      obtain rfl : ChannelHandler.creditPost = handler := by
        rw [show request.resource.handler .post = request.resource.postHandler
          from rfl, hsets.post] at hhandler
        cases hhandler
        rfl
      have hnil : (PaygCredit.remainings
          (request.requestPayload.getD [])).filterMap PaygCredit.taken = [] := by
        rcases hreads with ⟨-, hnone⟩ | ⟨hpayload, rep, hrep, hsome⟩
        · rw [hnone]
          rfl
        · by_contra hne
          rw [hsome] at hne
          exact h ⟨(ifaceMask_credit hsets _).mp hallowed, hpayload, rep, hrep,
            PaygCredit.exists_passes_iff.mpr hne⟩
      rw [invoke_of_ok hfound, hpost]
      unfold creditPostHandler
      rw [PaygCredit.postHandler_refused hnil]
      refine ⟨OcStatus.badRequest.code, UInt8.le_refl _, rfl, ?_⟩
      show { e.app with calls := e.app.calls ++ [] } = e.app
      rw [List.append_nil]

end

/-! ## The answer -/

/-- A response goes to the sender of the request, with its code. -/
theorem responseMessage_code {t : ResourceTable H} {links : LinkManager max}
    {response : CoapPacket} {rcvdPktSecured : Bool} :
    (responseMessage t links sender pkt response rcvdPktSecured).endpoint
        = nxIdToOcEndpoint sender ∧
      (responseMessage t links sender pkt response rcvdPktSecured).pkt.code
        = response.code := by
  unfold responseMessage
  dsimp only
  split
  next hcode => exact ⟨rfl, hcode.symm⟩
  · split
    · exact ⟨rfl, rfl⟩
    · split
      · split <;> exact ⟨rfl, rfl⟩
      · exact ⟨rfl, rfl⟩

section

variable {R A' : Type} {app : Application max H R A'} {e : Engine max H A'}
  {rcvdPktSecured : Bool} {method : Method}

/-- A request is not looked at if there is no room for its response. -/
theorem app_receiveRequest :
    (e.receiveRequest app s sender pkt rcvdPktSecured method).1.app
      = if s.transactionFree && s.messageFree then
          (invokeCoapEntityHandler app e sender pkt method).2.2
        else e.app := by
  unfold receiveRequest
  dsimp only
  split
  · split
    · rfl
    · split <;> rfl
  · rfl

/-- An error is sent if the request ends in one and has a token. -/
theorem answersError_receiveRequest :
    AnswersError sender
        (e.receiveRequest app s sender pkt rcvdPktSecured method).2 ↔
      (s.transactionFree && s.messageFree) = true ∧ pkt.token ≠ [] ∧
        ∃ code payload, (invokeCoapEntityHandler app e sender pkt method).1
          = some (code, payload) ∧ code ≥ OcStatus.badRequest.code := by
  have hnone : ¬ AnswersError sender
      (invokeCoapEntityHandler app e sender pkt method).2.1 := by
    intro h
    obtain ⟨message, hmem, -⟩ := h
    unfold invokeCoapEntityHandler at hmem
    split at hmem
    · cases hmem
    · cases List.mem_singleton.mp hmem
  unfold receiveRequest
  dsimp only
  split
  next hroom =>
    cases hbuffer : (invokeCoapEntityHandler app e sender pkt method).1 with
    | none =>
        refine iff_of_false hnone ?_
        intro h
        obtain ⟨-, -, code, payload, hsome, -⟩ := h
        cases hsome
    | some buffer =>
        obtain ⟨code, payload⟩ := buffer
        by_cases htoken : pkt.token.length = 0
        · simp only [if_pos htoken]
          refine iff_of_false hnone ?_
          intro h
          exact h.2.1 (List.length_eq_zero_iff.mp htoken)
        · simp only [if_neg htoken]
          constructor
          · intro h
            obtain ⟨message, hmem, hendpoint, herror⟩ := h
            rcases List.mem_append.mp hmem with hmem | hmem
            · exact absurd ⟨message, hmem, hendpoint, herror⟩ hnone
            · cases List.mem_singleton.mp hmem
              refine ⟨hroom, fun hnil => htoken (by rw [hnil]; rfl), code,
                payload, rfl, ?_⟩
              rw [responseMessage_code.2] at herror
              exact herror
          · intro h
            obtain ⟨-, -, code', payload', hsome, herror⟩ := h
            cases hsome
            refine ⟨_, List.mem_append_right _ List.mem_cons_self,
              responseMessage_code.1, ?_⟩
            rw [responseMessage_code.2]
            exact herror
  next hroom =>
    refine iff_of_false ?_ fun h => hroom h.1
    intro h
    obtain ⟨message, hmem, -⟩ := h
    cases hmem

/-- So is every empty response with an error, and every nonce sync. -/
theorem answersError_sendEmptyResponse {code : UInt8}
    (hcode : code ≥ OcStatus.badRequest.code) :
    AnswersError sender (sendEmptyResponse (H := H) (R := R) s sender pkt code)
      ↔ s.messageFree = true := by
  unfold sendEmptyResponse
  dsimp only
  split
  next hroom =>
    exact iff_of_true ⟨_, List.mem_cons_self, rfl, hcode⟩ hroom
  next hroom =>
    refine iff_of_false ?_ hroom
    intro h
    obtain ⟨message, hmem, -⟩ := h
    cases hmem

theorem answersError_sendNonceSyncResponse {data : SecurityMode0Data}
    (hdata : e.links.securityDataFromNxid sender = some data) (reset : Bool) :
    AnswersError sender (e.sendNonceSyncResponse (R := R) s sender pkt reset)
      ↔ s.messageFree = true := by
  unfold sendNonceSyncResponse
  rw [hdata]
  dsimp only
  split
  next hroom =>
    have hcode : notAcceptable406 ≥ OcStatus.badRequest.code := by decide
    exact iff_of_true ⟨_, List.mem_cons_self, rfl, hcode⟩ hroom
  next hroom =>
    refine iff_of_false ?_ hroom
    intro h
    obtain ⟨message, hmem, -⟩ := h
    cases hmem

end

variable (app e) in
/-- A POST to `/nx/pc` that is passed on changes nothing and ends in an error
if there is room for it, it can be answered and it carries no credit. -/
theorem passOnwards_credit
    (hpost : app.handle .creditPost = creditPostHandler support)
    (ht : e.resources.ServesCredit) (hcode : pkt.code = Method.post.code)
    (hpath : storeUri pkt.uriPath = creditUri) (rcvdPktSecured : Bool) :
    (e.passOnwards app s sender pkt rcvdPktSecured).1.app = e.app ∧
        AnswersError sender (e.passOnwards app s sender pkt rcvdPktSecured).2 ↔
      s.messageFree = true ∧ s.transactionFree = true ∧
        sender ≠ multicastNxId ∧ pkt.token ≠ [] ∧
        ¬ CarriesCredit app.parseRep pkt pkt.payload := by
  have hmethod : methodOfCode pkt.code = some .post := by
    rw [hcode]
    rfl
  have hpass : e.passOnwards app s sender pkt rcvdPktSecured
      = (e.clearTransaction pkt.mid).receiveRequest app s sender pkt
        rcvdPktSecured .post := by
    unfold passOnwards
    simp only [hmethod]
  rw [hpass, app_receiveRequest, answersError_receiveRequest]
  by_cases hroom : (s.transactionFree && s.messageFree) = true
  · rw [if_pos hroom]
    obtain ⟨htransaction, hmessage⟩ := Bool.and_eq_true_iff.mp hroom
    by_cases hcarries : CarriesCredit app.parseRep pkt pkt.payload
    · refine iff_of_false ?_ fun h => h.2.2.2.2 hcarries
      intro h
      refine invoke_of_carries (e := e.clearTransaction pkt.mid) sender
        hpost ht hpath hcarries ?_
      rw [h.1]
      rfl
    · obtain ⟨code, herror, hbuffer, hsame⟩ :=
        invoke_of_not_carries (e := e.clearTransaction pkt.mid) sender
          hpost ht hpath hcarries
      rw [hbuffer, hsame, responseBuffer]
      constructor
      · intro h
        obtain ⟨-, -, htoken, code', payload, hsome, -⟩ := h
        refine ⟨hmessage, htransaction, ?_, htoken, hcarries⟩
        intro hmulticast
        rw [if_pos ⟨hmulticast, herror⟩] at hsome
        cases hsome
      · intro h
        obtain ⟨-, -, hunicast, htoken, -⟩ := h
        refine ⟨rfl, hroom, htoken, code, [], ?_, herror⟩
        exact if_neg fun h => hunicast h.1
  · refine iff_of_false (fun h => hroom h.2.1) ?_
    intro h
    exact hroom (Bool.and_eq_true_iff.mpr ⟨h.2.1, h.1⟩)

end Engine

/-! ## POSTs -/

/-- A POST to `/nx/pc` has to be secured. -/
theorem ResourceTable.ServesCredit.isSecured
    {t : ResourceTable (ChannelHandler H)} (ht : t.ServesCredit)
    {pkt : CoapPacket} (hcode : pkt.code = Method.post.code)
    (hpath : storeUri pkt.uriPath = creditUri) :
    requestedMethodIsSecured t pkt = true := by
  obtain ⟨r, hr, hsets⟩ := ht.found pkt.uriPath hpath
  have hlength : pkt.uriPath.length ≠ 0 := by
    intro hnil
    rw [List.length_eq_zero_iff] at hnil
    rw [hnil] at hpath
    exact absurd hpath (by decide)
  unfold requestedMethodIsSecured resourceMethodIsSecured
  rw [if_neg hlength, hr]
  refine List.any_eq_true.mpr ⟨⟨creditUri, .post⟩, ht.secured, ?_⟩
  rw [Bool.and_eq_true, List.isPrefixOf_iff_prefix, hsets.uri, hcode, beq_iff_eq]
  exact ⟨List.prefix_rfl, rfl⟩

/-- There is still a link to the sender of a message that verified. -/
theorem Engine.securityData_accept {e : Engine max H A} {sender : NxId}
    {data : SecurityMode0Data}
    (h : e.links.securityDataFromNxid sender = some data)
    (nonce : Option UInt32) :
    ∃ data', (e.accept sender nonce).links.securityDataFromNxid sender
      = some data' := by
  obtain ⟨link, hlink, -⟩ := Option.map_eq_some_iff.mp h
  obtain ⟨i, hi, -⟩ := Option.map_eq_some_iff.mp hlink
  refine ⟨_, Option.map_eq_some_iff.mpr
    ⟨_, Option.map_eq_some_iff.mpr ⟨i, ?_, rfl⟩, rfl⟩⟩
  exact (LinkManager.linkIndexFromNxid_acceptNonce nonce sender).trans hi

/-- The link of `linkedAt`, in which this device has the given role. -/
def linkedAs (mode : OperatingMode) : LinkManager oneLink where
  slots := #v[⟨{ Link.zero with
    linkedDeviceId := peerId
    operatingMode := mode.toUInt8
    securityData := ⟨peerKey, 4⟩ }, true, false⟩]
  pendingLinkToCreate := Link.zero
  linkCount := 1
  pendingAddLink := false
  pendingClearAllLinks := false
  nv := fun _ => none

/-- The map with `re` set to 5. -/
def fiveCredits : List UInt8 := [0xBF, 0x62, 0x72, 0x65, 0x05, 0xFF]

/-- A device that has `/nx/pc` and nothing else. -/
def creditOnly : Application oneLink (ChannelHandler Unit) (List Rep)
    (ChannelState Unit) :=
  creditApplication ⟨true, true⟩
    (fun payload =>
      if payload = fiveCredits then .ok [⟨creditRemainingShortPropName, .int 5⟩]
      else .error .other)
    (fun _ _ _ state => (none, state)) fun _ _ _ state => ([], state)

def creditDevice (mode : OperatingMode) :
    Engine oneLink (ChannelHandler Unit) (ChannelState Unit) where
  resources := ResourceTable.registered 4 [.resource (creditProps ())]
  links := linkedAs mode
  client := .init
  messages _ := none
  app := ⟨(PaygCredit.init ⟨true, true⟩ (linkedAs mode) ⟨.disabled, 0⟩).2,
    [], ()⟩

/-- The peer's POST of five credits. -/
def fiveCreditsPost : CoapPacket :=
  .secure ⟨.non, 2, 0, [0], 0, [0x6E, 0x78, 0x2F, 0x70, 0x63], 0, fiveCredits⟩
    peerKey 5

end Nexus.Channel
