import Nexus.Channel.Resource
import Nexus.Lib.Run

/-!
# Which methods count as secured

The list of secured methods is searched with a comparison that ends where the
URI of the resource in question ends. It therefore meets the entries of every
longer URI as well. What the list holds is exactly what was registered as
secured; what the search answers is that, as long as no method that was not
registered as secured has its URI at the head of one that was.
-/

namespace Nexus.Channel

open Nexus.Lib

namespace ResourceTable

/-- The two ways to register. -/
inductive Registration (H : Type)
  | resource (props : ResourceProps H)
  | handler (uri : List UInt8) (method : Method) (callback : H)
      (secured : Bool)

variable {H : Type}

def step (t : ResourceTable H) : Registration H → ResourceTable H
  | .resource props => (t.registerResource props).2
  | .handler uri method callback secured =>
      (t.registerResourceHandler uri method callback secured).2

/-- The URI of the resource a registration is about. -/
def target (t : ResourceTable H) : Registration H → Option (List UInt8)
  | .resource props => some (storeUri props.uri)
  | .handler uri _ _ _ => (t.getAppResourceByUri uri).map Resource.uri

/-- A method, if it is to be secured. -/
def asked (secured : Bool) (uri : List UInt8) (method : Method) :
    List SecuredResourceMethod :=
  if secured then [⟨uri, method⟩] else []

/-- The methods a registration asks to be secured, unless it is refused. -/
def requests (t : ResourceTable H) :
    Registration H → List SecuredResourceMethod
  | .resource props =>
      if t.allocated ≥ t.maxAppResources then []
      else if (t.getAppResourceByUri (storeUri props.uri)).isSome then []
      else if props.getHandler.isNone ∧ props.postHandler.isNone then []
      else
        asked props.getSecured (storeUri props.uri) .get
          ++ asked props.postSecured (storeUri props.uri) .post
  | .handler uri method _ secured =>
      match t.getAppResourceByUri uri with
      | none => []
      | some res =>
          if method = .put ∨ method = .delete then []
          else if (res.handler method).isSome then []
          else asked secured res.uri method

/-- Those of them the pool has room for; without room the registration of the
method fails. -/
def registeredSecured (t : ResourceTable H) (reg : Registration H) :
    List SecuredResourceMethod :=
  (t.requests reg).take (2 * t.maxAppResources - t.secResMethods.length)

/-- All methods registered as secured in a sequence of registrations. -/
def securedAlong : ResourceTable H → List (Registration H) →
    List SecuredResourceMethod
  | _, [] => []
  | t, reg :: regs => t.registeredSecured reg ++ securedAlong (t.step reg) regs

section

variable {t : ResourceTable H} {reg : Registration H}

/-- An entry is stored as long as there is room. -/
theorem secResMethods_secureMethod (t : ResourceTable H) (secured : Bool)
    (uri : List UInt8) (method : Method) :
    let next := (if secured then t.secureMethod uri method else (true, t)).2
    next.secResMethods
        = t.secResMethods ++ (asked secured uri method).take
          (2 * t.maxAppResources - t.secResMethods.length) ∧
      next.maxAppResources = t.maxAppResources := by
  cases secured with
  | false => exact ⟨by simp [asked], rfl⟩
  | true =>
      rw [if_pos rfl, asked, if_pos rfl, secureMethod]
      split
      · next hroom =>
          refine ⟨?_, rfl⟩
          rw [List.take_of_length_le (by
            rw [List.length_singleton]
            omega)]
      · next hfull =>
          refine ⟨?_, rfl⟩
          have hnone : 2 * t.maxAppResources - t.secResMethods.length = 0 := by
            omega
          rw [hnone, List.take_zero, List.append_nil]

/-- Entries are added one after the other, as long as there is room. -/
theorem take_append_take {α : Type} (l l' : List α) (n : ℕ) :
    l.take n ++ l'.take (n - (l.take n).length) = (l ++ l').take n := by
  rw [List.take_append, List.length_take]
  congr 2
  omega

theorem secResMethods_secureMethods (t : ResourceTable H) (uri : List UInt8)
    (getSecured postSecured : Bool) :
    let t' := (if getSecured then t.secureMethod uri .get else (true, t)).2
    let t'' :=
      (if postSecured then t'.secureMethod uri .post else (true, t')).2
    t''.secResMethods
        = t.secResMethods ++ (asked getSecured uri .get
          ++ asked postSecured uri .post).take
            (2 * t.maxAppResources - t.secResMethods.length) ∧
      t''.maxAppResources = t.maxAppResources := by
  intro t' t''
  obtain ⟨hget, hgetMax⟩ := secResMethods_secureMethod t getSecured uri .get
  obtain ⟨hpost, hpostMax⟩ :=
    secResMethods_secureMethod t' postSecured uri .post
  refine ⟨?_, hpostMax.trans hgetMax⟩
  have hlength : 2 * t'.maxAppResources - t'.secResMethods.length
      = 2 * t.maxAppResources - t.secResMethods.length
        - ((asked getSecured uri .get).take
          (2 * t.maxAppResources - t.secResMethods.length)).length := by
    rw [hgetMax, hget, List.length_append, Nat.sub_sub]
  refine hpost.trans ?_
  rw [hlength, hget, List.append_assoc, take_append_take]

/-- What a registration adds to the list. -/
theorem secResMethods_step (t : ResourceTable H) (reg : Registration H) :
    (t.step reg).secResMethods
        = t.secResMethods ++ t.registeredSecured reg ∧
      (t.step reg).maxAppResources = t.maxAppResources := by
  rw [registeredSecured]
  cases reg with
  | resource props =>
      rw [step, registerResource, requests]
      by_cases hfull : t.allocated ≥ t.maxAppResources
      · rw [if_pos hfull, if_pos hfull]
        exact ⟨by simp, rfl⟩
      · rw [if_neg hfull, if_neg hfull]
        dsimp only
        by_cases hknown :
            (t.getAppResourceByUri (storeUri props.uri)).isSome = true
        · rw [if_pos hknown, if_pos]
          · exact ⟨by simp, rfl⟩
          · exact hknown
        · rw [if_neg hknown, if_neg]
          · by_cases hnone : props.getHandler.isNone ∧
                props.postHandler.isNone
            · rw [if_pos hnone, if_pos]
              · exact ⟨by simp, rfl⟩
              · exact hnone
            · rw [if_neg hnone, if_neg]
              · exact secResMethods_secureMethods
                  { t with
                    allocated := t.allocated + 1
                    appResources := t.appResources ++ [newResource props] }
                  (storeUri props.uri) props.getSecured props.postSecured
              · exact hnone
          · exact hknown
  | handler uri method callback secured =>
      rw [step, registerResourceHandler, requests]
      cases t.getAppResourceByUri uri with
      | none => exact ⟨by simp, rfl⟩
      | some res =>
          dsimp only
          split
          · exact ⟨by simp, rfl⟩
          · split
            · exact ⟨by simp, rfl⟩
            · exact secResMethods_secureMethod
                { t with appResources := t.appResources.map fun r =>
                    if r.uri = res.uri then
                      r.setRequestHandler method (some callback)
                    else r }
                secured res.uri method

theorem secResMethods_run (t : ResourceTable H)
    (regs : List (Registration H)) :
    (run step t regs).secResMethods
      = t.secResMethods ++ t.securedAlong regs := by
  induction regs generalizing t with
  | nil => simp [securedAlong]
  | cons reg regs ih =>
      rw [run_cons, ih, (secResMethods_step t reg).1, securedAlong,
        List.append_assoc]

/-! ## Registered URIs stay -/

theorem uri_setRequestHandler (r : Resource H) (method : Method)
    (callback : Option H) : (r.setRequestHandler method callback).uri = r.uri := by
  cases method <;> rfl

theorem uri_secureMethod (t : ResourceTable H) (secured : Bool)
    (uri : List UInt8) (method : Method) :
    ((if secured then t.secureMethod uri method else (true, t)).2
      ).appResources.map Resource.uri = t.appResources.map Resource.uri := by
  cases secured with
  | false => rfl
  | true =>
      rw [if_pos rfl, secureMethod]
      split
      · rfl
      · dsimp only
        rw [List.map_map]
        refine List.map_congr_left fun r _ => ?_
        show (if r.uri = uri then r.setRequestHandler method none
          else r).uri = r.uri
        split
        · exact uri_setRequestHandler r method none
        · rfl

/-- A registration keeps the URIs there are, and may add that of its own
resource behind them. -/
theorem uris_step (t : ResourceTable H) (reg : Registration H) :
    (t.step reg).appResources.map Resource.uri
        = t.appResources.map Resource.uri ∨
      ∃ props, reg = .resource props ∧
        (t.step reg).appResources.map Resource.uri
          = t.appResources.map Resource.uri ++ [storeUri props.uri] := by
  cases reg with
  | resource props =>
      rw [step, registerResource]
      split
      · exact .inl rfl
      · dsimp only
        split
        · exact .inl rfl
        · split
          · exact .inl rfl
          · refine .inr ⟨props, rfl, ?_⟩
            rw [uri_secureMethod, uri_secureMethod, List.map_append]
            rfl
  | handler uri method callback secured =>
      refine .inl ?_
      rw [step, registerResourceHandler]
      cases t.getAppResourceByUri uri with
      | none => rfl
      | some res =>
          dsimp only
          split
          · rfl
          · split
            · rfl
            · rw [uri_secureMethod]
              dsimp only
              rw [List.map_map]
              refine List.map_congr_left fun r _ => ?_
              show (if r.uri = res.uri then
                r.setRequestHandler method (some callback) else r).uri = _
              split
              · exact uri_setRequestHandler r method (some callback)
              · rfl

/-- A resource that was registered stays registered. -/
theorem uri_mem_step {uri : List UInt8}
    (h : uri ∈ t.appResources.map Resource.uri) (reg : Registration H) :
    uri ∈ (t.step reg).appResources.map Resource.uri := by
  rcases uris_step t reg with hsame | ⟨props, -, hmore⟩
  · rw [hsame]
    exact h
  · rw [hmore]
    exact List.mem_append_left _ h

/-- A registration secures methods of its own resource only. -/
theorem target_of_registeredSecured {entry : SecuredResourceMethod}
    (h : entry ∈ t.registeredSecured reg) :
    t.target reg = some entry.uri := by
  have hasked {secured : Bool} {uri : List UInt8} {method : Method}
      (h : entry ∈ asked secured uri method) : uri = entry.uri := by
    rw [asked] at h
    split at h
    · rw [List.mem_singleton.mp h]
    · cases h
  have hrequests := List.mem_of_mem_take h
  cases reg with
  | resource props =>
      rw [requests] at hrequests
      split at hrequests
      · cases hrequests
      · split at hrequests
        · cases hrequests
        · split at hrequests
          · cases hrequests
          · rw [target]
            rcases List.mem_append.mp hrequests with hget | hpost
            · rw [hasked hget]
            · rw [hasked hpost]
  | handler uri method callback secured =>
      rw [requests] at hrequests
      rw [target]
      cases hres : t.getAppResourceByUri uri with
      | none =>
          rw [hres] at hrequests
          cases hrequests
      | some res =>
          rw [hres] at hrequests
          dsimp only at hrequests
          split at hrequests
          · cases hrequests
          · split at hrequests
            · cases hrequests
            · rw [Option.map_some, hasked hrequests]

end

/-! ## The answer -/

/-- The table after these registrations. -/
def registered (maxAppResources : ℕ) (regs : List (Registration H)) :
    ResourceTable H :=
  run step (empty maxAppResources) regs

/-- The method of this URI was registered as secured. -/
def WasSecured (maxAppResources : ℕ) (regs : List (Registration H))
    (uri : List UInt8) (method : Method) : Prop :=
  ⟨uri, method⟩ ∈ securedAlong (empty maxAppResources) regs

/-- After every registration of the sequence, every method of every registered
resource counts as secured if it was registered as that; and the next
registration, of another resource, does not change it. -/
def AnswersExactly (maxAppResources : ℕ) (regs : List (Registration H)) :
    Prop :=
  ∀ before after, regs = before ++ after →
    ∀ r ∈ (registered maxAppResources before).appResources, ∀ method,
      ((registered maxAppResources before).resourceMethodIsSecured (some r)
          method.code = true
        ↔ WasSecured maxAppResources before r.uri method) ∧
      ∀ reg, after.head? = some reg →
        (registered maxAppResources before).target reg ≠ some r.uri →
        (registered maxAppResources (before ++ [reg])
            ).resourceMethodIsSecured (some r) method.code
          = (registered maxAppResources before).resourceMethodIsSecured
            (some r) method.code

/-- The method was not registered as secured, but that of a longer URI that
begins with this one was. -/
def Shadowed (maxAppResources : ℕ) (regs : List (Registration H))
    (uri : List UInt8) (method : Method) : Prop :=
  ¬ WasSecured maxAppResources regs uri method ∧
    ∃ longer, uri <+: longer ∧ WasSecured maxAppResources regs longer method

/-- The URIs of the table are those of resources that were registered. -/
theorem uri_of_registered {maxAppResources : ℕ} {regs : List (Registration H)}
    {uri : List UInt8}
    (huri : uri ∈ (registered maxAppResources regs).appResources.map
      Resource.uri) :
    ∃ props, .resource props ∈ regs ∧ uri = storeUri props.uri := by
  induction regs using List.reverseRecOn with
  | nil => cases huri
  | append_singleton regs reg ih =>
      have hold (huri : uri ∈
          (registered maxAppResources regs).appResources.map Resource.uri) :
          ∃ props, .resource props ∈ regs ++ [reg] ∧
            uri = storeUri props.uri := by
        obtain ⟨props, hprops, hstore⟩ := ih huri
        exact ⟨props, List.mem_append_left _ hprops, hstore⟩
      rw [registered, run_append] at huri
      rcases uris_step (registered maxAppResources regs) reg with
        hsame | ⟨props, rfl, hmore⟩
      · exact hold (hsame ▸ huri)
      · rcases List.mem_append.mp (hmore ▸ huri) with huri | huri
        · exact hold huri
        · exact ⟨props, by simp, List.mem_singleton.mp huri⟩

theorem head_storeUri (uri : List UInt8) :
    (storeUri uri).head? = some slash := by
  unfold storeUri
  split
  next h => exact h
  · rfl

section

variable {maxAppResources : ℕ} {regs : List (Registration H)}

theorem code_inj {m m' : Method} (h : m.code = m'.code) : m = m' := by
  cases m <;> cases m' <;> first | rfl | cases h

/-- The search finds every URI that begins with the resource's own. -/
theorem resourceMethodIsSecured_iff (r : Resource H) (method : Method) :
    (registered maxAppResources regs).resourceMethodIsSecured (some r)
        method.code = true
      ↔ ∃ longer, r.uri <+: longer ∧
        WasSecured maxAppResources regs longer method := by
  rw [resourceMethodIsSecured, List.any_eq_true, registered,
    secResMethods_run, empty, List.nil_append]
  constructor
  · rintro ⟨⟨uri, m⟩, hmem, h⟩
    rw [Bool.and_eq_true, List.isPrefixOf_iff_prefix, beq_iff_eq] at h
    obtain rfl := code_inj h.2
    exact ⟨uri, h.1, hmem⟩
  · rintro ⟨longer, hfront, hmem⟩
    refine ⟨⟨longer, method⟩, hmem, ?_⟩
    rw [Bool.and_eq_true, List.isPrefixOf_iff_prefix, beq_iff_eq]
    exact ⟨hfront, rfl⟩

theorem securedAlong_append (t : ResourceTable H)
    (regs regs' : List (Registration H)) :
    t.securedAlong (regs ++ regs')
      = t.securedAlong regs ++ (run step t regs).securedAlong regs' := by
  induction regs generalizing t with
  | nil => rfl
  | cons reg regs ih =>
      rw [List.cons_append, securedAlong, securedAlong, ih,
        List.append_assoc]
      rfl

/-- Another resource's registration secures nothing of this one. -/
theorem wasSecured_concat {reg : Registration H} {uri : List UInt8}
    (h : (registered maxAppResources regs).target reg ≠ some uri)
    (method : Method) :
    WasSecured maxAppResources (regs ++ [reg]) uri method
      ↔ WasSecured maxAppResources regs uri method := by
  rw [WasSecured, WasSecured, securedAlong_append, List.mem_append,
    securedAlong, securedAlong, List.append_nil]
  refine or_iff_left ?_
  intro hmem
  exact h (target_of_registeredSecured hmem)

end

/-- The answers are exact in every sequence of registrations in which no
method is ever shadowed. -/
theorem answersExactly_iff (maxAppResources : ℕ)
    (regs : List (Registration H)) :
    AnswersExactly maxAppResources regs ↔
      ∀ before after, regs = before ++ after →
        ∀ r ∈ (registered maxAppResources before).appResources, ∀ method,
          ¬ Shadowed maxAppResources before r.uri method := by
  constructor
  · rintro h before after hregs r hr method ⟨hnot, hlonger⟩
    obtain ⟨hexact, -⟩ := h before after hregs r hr method
    exact hnot (hexact.mp ((resourceMethodIsSecured_iff r method).mpr hlonger))
  · intro h
    have hexact (before after : List (Registration H))
        (hregs : regs = before ++ after) (r : Resource H)
        (hr : r ∈ (registered maxAppResources before).appResources)
        (method : Method) :
        (registered maxAppResources before).resourceMethodIsSecured (some r)
            method.code = true
          ↔ WasSecured maxAppResources before r.uri method := by
      rw [resourceMethodIsSecured_iff]
      constructor
      · intro hlonger
        by_contra hnot
        exact h before after hregs r hr method ⟨hnot, hlonger⟩
      · intro hsecured
        exact ⟨r.uri, List.prefix_rfl, hsecured⟩
    intro before after hregs r hr method
    refine ⟨hexact before after hregs r hr method, ?_⟩
    intro reg hnext hother
    obtain ⟨rest, rfl⟩ : ∃ rest, after = reg :: rest := by
      cases after with
      | nil => cases hnext
      | cons first rest =>
          injection hnext with hnext
          exact ⟨rest, by rw [hnext]⟩
    have hmem : r.uri ∈ (registered maxAppResources
        (before ++ [reg])).appResources.map Resource.uri := by
      rw [registered, run_append]
      exact uri_mem_step (List.mem_map_of_mem hr) reg
    obtain ⟨r', hr', huri⟩ := List.mem_map.mp hmem
    have hlater := hexact (before ++ [reg]) rest
      (by rw [hregs, List.append_assoc]; rfl) r' hr' method
    rw [resourceMethodIsSecured_iff, huri,
      wasSecured_concat hother] at hlater
    rw [Bool.eq_iff_iff, hexact before _ hregs r hr method,
      resourceMethodIsSecured_iff]
    exact hlater

/-- `/a` with an open GET, then `/ab` with a secured one. -/
def shadowing : List (Registration Unit) :=
  [.resource ⟨[0x2F, 0x61], [], some (), false, none, false⟩,
    .resource ⟨[0x2F, 0x61, 0x62], [], some (), true, none, false⟩]

/-- The open GET of `/a` turns into a secured one when `/ab` is registered. -/
theorem longer_uri_secures_shorter :
    ∃ r ∈ (registered 4 shadowing).appResources,
      r.uri = [0x2F, 0x61] ∧
      (registered 4 (shadowing.take 1)).resourceMethodIsSecured (some r)
        Method.get.code = false ∧
      (registered 4 shadowing).resourceMethodIsSecured (some r)
        Method.get.code = true ∧
      ¬ WasSecured 4 shadowing r.uri .get ∧
      ¬ AnswersExactly 4 shadowing := by
  have hnot : ¬ WasSecured 4 shadowing [0x2F, 0x61] .get := by
    rw [WasSecured]
    decide
  refine ⟨⟨[0x2F, 0x61], ifBaseline, ifBaseline, some (), none, none, none⟩,
    ?_, rfl, by decide, by decide, hnot, ?_⟩
  · exact List.mem_cons_self
  · intro h
    obtain ⟨hexact, -⟩ := h shadowing [] (List.append_nil _).symm
      ⟨[0x2F, 0x61], ifBaseline, ifBaseline, some (), none, none, none⟩
      List.mem_cons_self .get
    exact hnot (hexact.mp (by decide))

end ResourceTable

end Nexus.Channel
