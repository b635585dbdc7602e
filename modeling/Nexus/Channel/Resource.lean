import Mathlib

/-!
# Resources

The application resources of `oc_ri.c` and what `nexus_channel_core.c`,
`nexus_oc_wrapper.c` and `nexus_channel_sm.c` do with them: registration, the
lookup by URI, and the list of methods that ask for a secured request. All
resources belong to the one device 0.

URIs are stored with a leading slash, and URI paths in messages come without
one. The methods on the secured list are told apart by the URI of the resource
they point to, which never changes.
-/

namespace Nexus.Channel

/-- `oc_method_t`. -/
inductive Method
  | get
  | post
  | put
  | delete
deriving DecidableEq

/-- The CoAP code of the method. -/
def Method.code : Method → UInt8
  | get => 1
  | post => 2
  | put => 3
  | delete => 4

/-- The character `/`. -/
def slash : UInt8 := 0x2F

/-! ## Interfaces -/

/-- `OC_IF_BASELINE`. -/
def ifBaseline : UInt16 := 0x002
/-- `OC_IF_LL`. -/
def ifLl : UInt16 := 0x004
/-- `OC_IF_R`. -/
def ifR : UInt16 := 0x010
/-- `OC_IF_RW`. -/
def ifRw : UInt16 := 0x020
/-- `OC_IF_S`. -/
def ifS : UInt16 := 0x080

/-- `does_interface_support_method`. -/
def doesInterfaceSupportMethod (ifaceMask : UInt16) (method : Method) : Bool :=
  if ifaceMask = ifLl ∨ ifaceMask = ifS ∨ ifaceMask = ifR then method == .get
  else true

/-! ## The table -/

/-- `oc_resource_t`; `H` are the handlers an application may set. -/
structure Resource (H : Type) where
  uri : List UInt8
  interfaces : UInt16
  defaultInterface : UInt16
  getHandler : Option H
  postHandler : Option H
  putHandler : Option H
  deleteHandler : Option H
deriving DecidableEq

variable {H : Type}

namespace Resource

def handler (r : Resource H) : Method → Option H
  | .get => r.getHandler
  | .post => r.postHandler
  | .put => r.putHandler
  | .delete => r.deleteHandler

/-- `oc_resource_set_request_handler`. -/
def setRequestHandler (r : Resource H) (method : Method)
    (callback : Option H) : Resource H :=
  match method with
  | .get => { r with getHandler := callback }
  | .post => { r with postHandler := callback }
  | .put => { r with putHandler := callback }
  | .delete => { r with deleteHandler := callback }

end Resource

/-- `nexus_secured_resource_method_t`, with the URI of its resource. -/
structure SecuredResourceMethod where
  uri : List UInt8
  method : Method
deriving DecidableEq

/-- The application resources, how many were taken from the pool of
`OC_MAX_APP_RESOURCES`, and the list `nexus_sec_res_methods`. -/
structure ResourceTable (H : Type) where
  maxAppResources : Nat
  allocated : Nat
  appResources : List (Resource H)
  secResMethods : List SecuredResourceMethod

namespace ResourceTable

def empty (maxAppResources : Nat) : ResourceTable H :=
  ⟨maxAppResources, 0, [], []⟩

/-- `oc_ri_get_app_resource_by_uri`. -/
def getAppResourceByUri (t : ResourceTable H) (uri : List UInt8) :
    Option (Resource H) :=
  let skip := if uri.head? = some slash then 0 else 1
  t.appResources.find? fun r =>
    r.uri.length == uri.length + skip && r.uri.drop skip == uri

/-- `nexus_channel_sm_resource_method_is_secured`. The comparison ends with the
resource's own URI, so it also meets entries of longer URIs. -/
def resourceMethodIsSecured (t : ResourceTable H) (r : Option (Resource H))
    (code : UInt8) : Bool :=
  match r with
  | none => false
  | some r =>
      t.secResMethods.any fun m =>
        r.uri.isPrefixOf m.uri && m.method.code == code

/-- `nexus_channel_sm_nexus_resource_method_new`, and the handler unset again
where there is no room for the entry. -/
def secureMethod (t : ResourceTable H) (uri : List UInt8) (method : Method) :
    Bool × ResourceTable H :=
  if t.secResMethods.length < 2 * t.maxAppResources then
    (true, { t with secResMethods := t.secResMethods ++ [⟨uri, method⟩] })
  else
    (false, { t with appResources := t.appResources.map fun r =>
      if r.uri = uri then r.setRequestHandler method none else r })

/-! ## Registration -/

/-- `oc_store_uri`. -/
def storeUri (uri : List UInt8) : List UInt8 :=
  if uri.head? = some slash then uri else slash :: uri

/-- `struct nx_channel_resource_props`, without its names. -/
structure ResourceProps (H : Type) where
  uri : List UInt8
  ifMasks : List UInt16
  getHandler : Option H
  getSecured : Bool
  postHandler : Option H
  postSecured : Bool

/-- The resource `nx_channel_register_resource` sets up. -/
def newResource (props : ResourceProps H) : Resource H where
  uri := storeUri props.uri
  interfaces := props.ifMasks.foldl (· ||| ·) ifBaseline
  defaultInterface := props.ifMasks.headD ifBaseline
  getHandler := props.getHandler
  postHandler := props.postHandler
  putHandler := none
  deleteHandler := none

/-- `nx_channel_register_resource`; the answer is whether it returned
`NX_CHANNEL_ERROR_NONE`. A resource that is refused stays allocated. -/
def registerResource (t : ResourceTable H) (props : ResourceProps H) :
    Bool × ResourceTable H :=
  if t.allocated ≥ t.maxAppResources then (false, t)
  else
    let res := newResource props
    let t := { t with allocated := t.allocated + 1 }
    if (t.getAppResourceByUri res.uri).isSome then (false, t)
    else if res.getHandler.isNone ∧ res.postHandler.isNone then (false, t)
    else
      let t := { t with appResources := t.appResources ++ [res] }
      let (getOk, t) :=
        if props.getSecured then t.secureMethod res.uri .get else (true, t)
      let (postOk, t) :=
        if props.postSecured then t.secureMethod res.uri .post else (true, t)
      (getOk && postOk, t)

/-- `nx_channel_register_resource_handler`, with
`nexus_channel_set_request_handler`. -/
def registerResourceHandler (t : ResourceTable H) (uri : List UInt8)
    (method : Method) (callback : H) (secured : Bool) :
    Bool × ResourceTable H :=
  match t.getAppResourceByUri uri with
  | none => (false, t)
  | some res =>
      if method = .put ∨ method = .delete then (false, t)
      else if (res.handler method).isSome then (false, t)
      else
        let t := { t with appResources := t.appResources.map fun r =>
          if r.uri = res.uri then r.setRequestHandler method (some callback)
          else r }
        if secured then t.secureMethod res.uri method else (true, t)

end ResourceTable

end Nexus.Channel
