import Nexus.Channel.PaygCredit

/-!
# What a credit POST sets

A payload is right when it has a property `re` and every property `re` is a
number a credit can be. The handler takes the last property `re` that is an
integer not above the highest credit, whatever the others are: a negative
integer is taken as well, for the number its low 32 bits make, and a property
that is not taken is passed over. Its answer is right unless the payload has a
property `re` it takes together with one, perhaps the same, that no credit can
be.
-/

namespace Nexus.Channel

namespace PaygCredit

/-- The properties named `re`. -/
def remainings (payload : List Rep) : List RepValue :=
  (payload.filter fun rep => rep.sameName creditRemainingShortPropName).map
    Rep.value

/-- A number from 0 to the highest `uint32_t`. -/
def IsCredit (value : RepValue) (remaining : UInt32) : Prop :=
  value = .int remaining.toNat

/-- What the product is told about a credit. -/
def creditCall (remaining : UInt32) : CreditCall :=
  if remaining = unlockedSentinelValue then .unlock else .set remaining

/-- A payload with a credit in every property `re`, the last of which is this
one. -/
def Carries (payload : List Rep) (remaining : UInt32) : Prop :=
  (∀ value ∈ remainings payload, ∃ remaining, IsCredit value remaining) ∧
    ∃ value, (remainings payload).getLast? = some value ∧
      IsCredit value remaining

/-- The credit changes exactly for a payload that carries one, and to that
one. -/
structure SetsExactly (support : SupportedModes) {max : MaxLinks}
    (links : LinkManager max) (credit : PaygCredit) (payload : List Rep) :
    Prop where
  changes_iff : (postHandler support links payload credit).2.1 ≠ [] ↔
    ∃ remaining, Carries payload remaining
  set : ∀ remaining, Carries payload remaining →
    (postHandler support links payload credit).2.1 = [creditCall remaining] ∧
    (postHandler support links payload credit).2.2.remaining = remaining
  refused : (¬ ∃ remaining, Carries payload remaining) →
    postHandler support links payload credit = (.badRequest, [], credit)

/-- An integer that is not above the highest `uint32_t`. -/
def Passes (value : RepValue) : Prop :=
  ∃ number : ℤ, value = .int number ∧ number ≤ 0xFFFFFFFF

/-- With a property `re` that passes, every property `re` is a credit. -/
def Unmixed (payload : List Rep) : Prop :=
  (∃ value ∈ remainings payload, Passes value) →
    ∀ value ∈ remainings payload, ∃ remaining, IsCredit value remaining

/-! ## What is taken -/

/-- The credit taken from a property. -/
def taken : RepValue → Option UInt32
  | .int value => if value > 0xFFFFFFFF then none else UInt32.ofInt value
  | _ => none

theorem remainings_cons_of_name {rep : Rep} (payload : List Rep)
    (h : rep.sameName creditRemainingShortPropName = true) :
    remainings (rep :: payload) = rep.value :: remainings payload := by
  rw [remainings, List.filter_cons, if_pos h]
  rfl

theorem remainings_cons_of_not_name {rep : Rep} (payload : List Rep)
    (h : ¬ rep.sameName creditRemainingShortPropName = true) :
    remainings (rep :: payload) = remainings payload := by
  rw [remainings, List.filter_cons, if_neg h]
  rfl

/-- The last credit taken, and whether there is one, is what comes out. -/
theorem extractCreditLoop_eq (payload : List Rep) (errorState : Bool)
    (newRemaining : UInt32) :
    extractCreditLoop payload errorState newRemaining =
      ((remainings payload).filterMap taken).getLast?.elim
        (errorState, newRemaining) fun remaining => (false, remaining) := by
  induction payload generalizing errorState newRemaining with
  | nil => rfl
  | cons rep payload ih =>
      rw [extractCreditLoop]
      by_cases hname : rep.sameName creditRemainingShortPropName = true
      · rw [if_pos hname, remainings_cons_of_name payload hname]
        cases hvalue : rep.value with
        | int value =>
            dsimp only
            by_cases hlarge : value > 0xFFFFFFFF
            · have hnone : taken (.int value) = none := if_pos hlarge
              rw [if_pos hlarge, ih, List.filterMap_cons_none hnone]
            · have hsome : taken (.int value) = some (UInt32.ofInt value) :=
                if_neg hlarge
              rw [if_neg hlarge, ih, List.filterMap_cons_some hsome,
                List.getLast?_cons]
              cases ((remainings payload).filterMap taken).getLast? <;> rfl
        | byteString bytes =>
            dsimp only
            rw [ih, List.filterMap_cons_none rfl]
        | other =>
            dsimp only
            rw [ih, List.filterMap_cons_none rfl]
      · rw [if_neg hname, remainings_cons_of_not_name payload hname, ih]

section

variable {support : SupportedModes} {max : MaxLinks}
  {links : LinkManager max} {payload : List Rep} {credit : PaygCredit}

/-- Without a property to take there is an error response and nothing else. -/
theorem postHandler_refused
    (h : (remainings payload).filterMap taken = []) :
    postHandler support links payload credit = (.badRequest, [], credit) := by
  rw [postHandler, evaluatePayloadExtractCredit, extractCreditLoop_eq, h]
  rfl

/-- The last property that can be taken is. -/
theorem postHandler_taken {remaining : UInt32}
    (h : ((remainings payload).filterMap taken).getLast? = some remaining) :
    (postHandler support links payload credit).2.1 = [creditCall remaining] ∧
    (postHandler support links payload credit).2.2.remaining
      = remaining := by
  have hhandler : (postHandler support links payload credit).2 =
      ([(updateFromPostOrGet support links remaining credit).1],
        (updateFromPostOrGet support links remaining credit).2) := by
    rw [postHandler, evaluatePayloadExtractCredit, extractCreditLoop_eq, h]
    rfl
  rw [hhandler, updateFromPostOrGet, creditCall, ite_not]
  by_cases hmode : support.accessoryMode = true ∧
      links.creditOperatingMode = .following
  · rw [if_pos hmode]
    exact ⟨rfl, rfl⟩
  · rw [if_neg hmode]
    exact ⟨rfl, rfl⟩

/-! ## Credits are taken for what they are -/

theorem taken_of_isCredit {value : RepValue} {remaining : UInt32}
    (h : IsCredit value remaining) : taken value = some remaining := by
  have hle : ¬ (remaining.toNat : ℤ) > 0xFFFFFFFF := by
    have := remaining.toNat_lt
    omega
  rw [h, taken, if_neg hle, UInt32.ofInt]
  congr 1
  rw [← UInt32.toNat_inj, UInt32.toNat_ofNat']
  have := remaining.toNat_lt
  omega

theorem filterMap_taken_of_credits {values : List RepValue}
    (h : ∀ value ∈ values, ∃ remaining, IsCredit value remaining) :
    (values.filterMap taken).map (fun remaining => RepValue.int remaining.toNat)
      = values := by
  induction values with
  | nil => rfl
  | cons value values ih =>
      rw [List.forall_mem_cons] at h
      obtain ⟨⟨remaining, hcredit⟩, hrest⟩ := h
      rw [List.filterMap_cons_some (taken_of_isCredit hcredit), List.map_cons,
        ih hrest, hcredit]

theorem isSome_taken {value : RepValue} :
    (taken value).isSome = true ↔ Passes value := by
  cases value with
  | int number =>
      rw [taken]
      by_cases hlarge : number > 0xFFFFFFFF
      · rw [if_pos hlarge]
        refine iff_of_false Bool.false_ne_true ?_
        rintro ⟨number', hnumber, hle⟩
        cases hnumber
        omega
      · rw [if_neg hlarge]
        exact iff_of_true rfl ⟨number, rfl, not_lt.mp hlarge⟩
  | byteString bytes =>
      refine iff_of_false Bool.false_ne_true ?_
      rintro ⟨number, hnumber, -⟩
      cases hnumber
  | other =>
      refine iff_of_false Bool.false_ne_true ?_
      rintro ⟨number, hnumber, -⟩
      cases hnumber

/-- What is taken in the end is the credit a payload carries. -/
theorem carries_iff
    (h : ∀ value ∈ remainings payload, ∃ remaining, IsCredit value remaining)
    (remaining : UInt32) : Carries payload remaining ↔
      ((remainings payload).filterMap taken).getLast? = some remaining := by
  have hvalues := filterMap_taken_of_credits h
  constructor
  · rintro ⟨-, value, hlast, hcredit⟩
    rw [← hvalues, List.getLast?_map] at hlast
    obtain ⟨remaining', hlast', hvalue⟩ := Option.map_eq_some_iff.mp hlast
    rw [hlast']
    have hcredit' : IsCredit value remaining' := hvalue.symm
    have htaken := taken_of_isCredit hcredit'
    rw [taken_of_isCredit hcredit] at htaken
    exact htaken.symm
  · intro hlast
    refine ⟨h, .int remaining.toNat, ?_, rfl⟩
    rw [← hvalues, List.getLast?_map, hlast]
    rfl

theorem Carries.taken_ne_nil {remaining : UInt32}
    (h : Carries payload remaining) :
    (remainings payload).filterMap taken ≠ [] := by
  intro hnil
  have hlast := (carries_iff h.1 remaining).mp h
  rw [hnil] at hlast
  cases hlast

/-! ## The handler and its payloads -/

/-- The answer is right exactly when no property `re` that passes comes
together with one that is no credit. -/
theorem setsExactly_iff (support : SupportedModes) (links : LinkManager max)
    (credit : PaygCredit) (payload : List Rep) :
    SetsExactly support links credit payload ↔ Unmixed payload := by
  constructor
  · rintro ⟨hchanges, -, -⟩ ⟨value, hmem, hpasses⟩
    obtain ⟨remaining, htaken⟩ :=
      Option.isSome_iff_exists.mp (isSome_taken.mpr hpasses)
    have hmem' : remaining ∈ (remainings payload).filterMap taken :=
      List.mem_filterMap.mpr ⟨value, hmem, htaken⟩
    obtain ⟨last, hlast⟩ := Option.isSome_iff_exists.mp
      (List.getLast?_isSome.mpr (List.ne_nil_of_mem hmem'))
    have hcalls : (postHandler support links payload credit).2.1 ≠ [] := by
      rw [(postHandler_taken hlast).1]
      exact List.cons_ne_nil _ _
    obtain ⟨remaining', hcarries⟩ := hchanges.mp hcalls
    exact hcarries.1
  · intro hunmixed
    by_cases hnil : (remainings payload).filterMap taken = []
    · -- nothing is taken, and the payload carries nothing
      have hnot : ¬ ∃ remaining, Carries payload remaining := by
        rintro ⟨remaining, hcarries⟩
        exact hcarries.taken_ne_nil hnil
      have hrefused : postHandler support links payload credit
          = (.badRequest, [], credit) := postHandler_refused hnil
      refine ⟨?_, ?_, fun _ => hrefused⟩
      · rw [hrefused]
        exact iff_of_false (fun h => h rfl) hnot
      · intro remaining hcarries
        exact absurd ⟨remaining, hcarries⟩ hnot
    · obtain ⟨last, hlast⟩ := Option.isSome_iff_exists.mp
        (List.getLast?_isSome.mpr hnil)
      have hmem := List.mem_of_getLast? hlast
      obtain ⟨value, hvalue, htaken⟩ := List.mem_filterMap.mp hmem
      have hpasses : Passes value :=
        isSome_taken.mp (Option.isSome_iff_exists.mpr ⟨last, htaken⟩)
      have hcredits := hunmixed ⟨value, hvalue, hpasses⟩
      have hcarries : ∃ remaining, Carries payload remaining :=
        ⟨last, (carries_iff hcredits last).mpr hlast⟩
      refine ⟨?_, ?_, fun hnot => absurd hcarries hnot⟩
      · refine iff_of_true ?_ hcarries
        rw [(postHandler_taken hlast).1]
        exact List.cons_ne_nil _ _
      · intro remaining hremaining
        exact postHandler_taken ((carries_iff hcredits remaining).mp hremaining)

/-- The credit -1 unlocks the device. -/
theorem minus_one_unlocks :
    ¬ SetsExactly ⟨true, true⟩ (LinkManager.init ⟨10, by decide, by decide⟩
        fun _ => none)
      (init ⟨true, true⟩ (LinkManager.init ⟨10, by decide, by decide⟩
        fun _ => none) ⟨.disabled, 0⟩).2
      [⟨creditRemainingShortPropName, .int (-1)⟩] := by
  intro h
  obtain ⟨remaining, hcarries⟩ := h.changes_iff.mp (by decide +kernel)
  obtain ⟨remaining', hcredit⟩ := hcarries.1 (.int (-1)) (by decide +kernel)
  have hnumber := RepValue.int.inj hcredit
  omega

end

end PaygCredit

end Nexus.Channel
