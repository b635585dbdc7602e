import Nexus.Channel.LinkHandshake

/-!
# The payload of a handshake POST

A payload is good when it has three properties: challenge data of sixteen
bytes, a challenge mode and a link security mode. The parser looks at one
property at a time and counts down from three in eight bits. It looks at the
first two characters of a name, at the low byte of an integer and at the low
byte of a length, and it does not know which properties it has seen. All good
payloads are taken, with exactly their values; so are those that only look good
in all these respects.
-/

namespace Nexus.Channel

namespace LinkHsAccessory

/-! ## Good payloads -/

/-- Three properties, one of each kind. Both lists of supported modes hold the
mode 0 alone. -/
def WellFormed (payload : List Rep) : Prop :=
  payload.length = 3 ∧
    (∃ data, data.length = 16 ∧
      ⟨chalDataShortPropName, .byteString data⟩ ∈ payload) ∧
    ⟨chalModeShortPropName, .int 0⟩ ∈ payload ∧
    ⟨linkSecModeShortPropName, .int 0⟩ ∈ payload

/-- The three fields are the received values. -/
structure Received (server : LinkHsAccessory) (payload : List Rep) :
    Prop where
  chalData : ∀ data, ⟨chalDataShortPropName, .byteString data⟩ ∈ payload →
    server.chalData.toList = data
  chalMode : ∀ value, ⟨chalModeShortPropName, .int value⟩ ∈ payload →
    (server.chalMode.toNat : ℤ) = value
  linkSecurityMode : ∀ value,
    ⟨linkSecModeShortPropName, .int value⟩ ∈ payload →
    (server.linkSecurityMode.toNat : ℤ) = value

/-- The parser takes the good payloads and no others, and with them exactly
what they carry. -/
def ParsesExactly (server : LinkHsAccessory) (payload : List Rep) : Prop :=
  ((server.postParsePayload payload).1 = true ↔ WellFormed payload) ∧
    ((server.postParsePayload payload).1 = true →
      Received (server.postParsePayload payload).2 payload)

/-! ## What is looked at -/

/-- A property that passes by itself. -/
def Acceptable (rep : Rep) : Prop :=
  match rep.value with
  | .byteString bytes =>
      rep.named chalDataShortPropName ∧ UInt8.ofNat bytes.length = 16
  | .int value =>
      (rep.named chalModeShortPropName ∨
        rep.named linkSecModeShortPropName) ∧ UInt8.ofInt value = 0
  | .other => False

/-- A payload that passes. -/
def LooksGood (payload : List Rep) : Prop :=
  (∀ rep ∈ payload, Acceptable rep) ∧ payload.length % 256 = 3

/-- What is not looked at. -/
def HidesNothing (payload : List Rep) : Prop :=
  payload.length = 3 ∧ (payload.map Rep.name).Nodup ∧
    ∀ rep ∈ payload, rep.name.length = 2 ∧
      (∀ bytes, rep.value = .byteString bytes → bytes.length = 16) ∧
      ∀ value, rep.value = .int value → value = 0

section

variable {server : LinkHsAccessory} {rep : Rep} {payload : List Rep}

theorem named_disjoint (h : rep.named chalModeShortPropName = true) :
    ¬ rep.named linkSecModeShortPropName = true := by
  rw [Rep.named, beq_iff_eq] at h ⊢
  rw [h]
  decide

theorem isSome_postParseProperty (server : LinkHsAccessory) (rep : Rep) :
    (server.postParseProperty rep).isSome = true ↔ Acceptable rep := by
  rw [postParseProperty, Acceptable]
  cases rep.value with
  | byteString bytes =>
      dsimp only
      rw [postParsePayloadChalData]
      split
      · next h => exact iff_of_true rfl h
      · next h => exact iff_of_false Bool.false_ne_true h
  | int value =>
      dsimp only
      rw [postParsePayloadRequestedModes]
      by_cases hmode : rep.named chalModeShortPropName = true
      · rw [if_pos hmode]
        split
        · next h => exact iff_of_true rfl ⟨Or.inl hmode, h⟩
        · next h => exact iff_of_false Bool.false_ne_true fun hr => h hr.2
      · rw [if_neg hmode]
        by_cases hsec : rep.named linkSecModeShortPropName = true
        · rw [if_pos hsec]
          split
          · next h => exact iff_of_true rfl ⟨Or.inr hsec, h⟩
          · next h => exact iff_of_false Bool.false_ne_true fun hr => h hr.2
        · rw [if_neg hsec]
          refine iff_of_false Bool.false_ne_true ?_
          rintro ⟨hmode' | hsec', -⟩
          · exact hmode hmode'
          · exact hsec hsec'
  | other => exact iff_of_false Bool.false_ne_true id

/-- The loop passes when every property does and the count ends at zero. -/
theorem postParseLoop_iff (payload : List Rep) (missing : UInt8)
    (server : LinkHsAccessory) :
    (postParseLoop payload missing server).1 = true ↔
      (∀ rep ∈ payload, Acceptable rep) ∧
        missing = UInt8.ofNat payload.length := by
  induction payload generalizing missing server with
  | nil =>
      rw [postParseLoop, beq_iff_eq]
      exact ⟨fun h => ⟨List.forall_mem_nil _, h⟩, And.right⟩
  | cons rep payload ih =>
      have hcount : missing - 1 = UInt8.ofNat payload.length ↔
          missing = UInt8.ofNat (payload.length + 1) := by
        rw [UInt8.ofNat_add]
        exact sub_eq_iff_eq_add
      have hrep := isSome_postParseProperty server rep
      rw [postParseLoop, List.length_cons, List.forall_mem_cons]
      cases hparsed : server.postParseProperty rep with
      | none =>
          rw [hparsed] at hrep
          refine iff_of_false Bool.false_ne_true ?_
          rintro ⟨⟨hacceptable, -⟩, -⟩
          cases hrep.mpr hacceptable
      | some server' =>
          rw [hparsed] at hrep
          dsimp only
          rw [ih, hcount, and_iff_right (hrep.mp rfl)]

theorem postParsePayload_iff (server : LinkHsAccessory)
    (payload : List Rep) :
    (server.postParsePayload payload).1 = true ↔ LooksGood payload := by
  have hcount : (3 : UInt8) = UInt8.ofNat payload.length ↔
      payload.length % 256 = 3 := by
    rw [← UInt8.toNat_inj, UInt8.toNat_ofNat', eq_comm]
    rfl
  rw [postParsePayload, postParseLoop_iff, hcount, LooksGood]

/-! ## What is taken -/

/-- A property under another name leaves a field alone. -/
def Belongs {β : Type} (field : LinkHsAccessory → β)
    (propName : List UInt8) : Prop :=
  ∀ (server server' : LinkHsAccessory) (rep : Rep),
    server.postParseProperty rep = some server' →
    rep.named propName = false → field server' = field server

theorem belongs_chalData :
    Belongs LinkHsAccessory.chalData chalDataShortPropName := by
  intro server server' rep hparsed hname
  rw [postParseProperty] at hparsed
  cases hvalue : rep.value with
  | byteString bytes =>
      rw [hvalue] at hparsed
      dsimp only at hparsed
      rw [postParsePayloadChalData, hname,
        if_neg fun h => Bool.false_ne_true h.1] at hparsed
      cases hparsed
  | int value =>
      rw [hvalue] at hparsed
      dsimp only at hparsed
      rw [postParsePayloadRequestedModes] at hparsed
      split_ifs at hparsed <;> cases hparsed <;> rfl
  | other =>
      rw [hvalue] at hparsed
      cases hparsed

theorem belongs_chalMode :
    Belongs LinkHsAccessory.chalMode chalModeShortPropName := by
  intro server server' rep hparsed hname
  rw [postParseProperty] at hparsed
  cases hvalue : rep.value with
  | byteString bytes =>
      rw [hvalue] at hparsed
      dsimp only at hparsed
      rw [postParsePayloadChalData] at hparsed
      split_ifs at hparsed
      cases hparsed
      rfl
  | int value =>
      rw [hvalue] at hparsed
      dsimp only at hparsed
      rw [postParsePayloadRequestedModes, hname,
        if_neg Bool.false_ne_true] at hparsed
      split_ifs at hparsed
      cases hparsed
      rfl
  | other =>
      rw [hvalue] at hparsed
      cases hparsed

theorem belongs_linkSecurityMode :
    Belongs LinkHsAccessory.linkSecurityMode linkSecModeShortPropName := by
  intro server server' rep hparsed hname
  rw [postParseProperty] at hparsed
  cases hvalue : rep.value with
  | byteString bytes =>
      rw [hvalue] at hparsed
      dsimp only at hparsed
      rw [postParsePayloadChalData] at hparsed
      split_ifs at hparsed
      cases hparsed
      rfl
  | int value =>
      rw [hvalue] at hparsed
      dsimp only at hparsed
      rw [postParsePayloadRequestedModes, hname,
        if_neg Bool.false_ne_true] at hparsed
      split_ifs at hparsed
      cases hparsed
      rfl
  | other =>
      rw [hvalue] at hparsed
      cases hparsed

/-- With no property of its name, a field is that of an earlier POST. -/
theorem Belongs.loop_keeps {β : Type} {field : LinkHsAccessory → β}
    {propName : List UInt8} (h : Belongs field propName) :
    ∀ (payload : List Rep) (missing : UInt8) (server : LinkHsAccessory),
      (∀ rep ∈ payload, rep.named propName = false) →
      field (postParseLoop payload missing server).2 = field server := by
  intro payload
  induction payload with
  | nil =>
      intro missing server _
      rfl
  | cons rep payload ih =>
      intro missing server hnames
      rw [List.forall_mem_cons] at hnames
      rw [postParseLoop]
      cases hparsed : server.postParseProperty rep with
      | none => rfl
      | some server' =>
          dsimp only
          rw [ih _ _ hnames.2, h server server' rep hparsed hnames.1]

/-- With one property of its name, a field is what that property sets it to. -/
theorem Belongs.loop_sets {β : Type} {field : LinkHsAccessory → β}
    {propName : List UInt8} (h : Belongs field propName) {rep : Rep} {b : β}
    (hsets : ∀ server server' : LinkHsAccessory,
      server.postParseProperty rep = some server' → field server' = b) :
    ∀ (payload : List Rep) (missing : UInt8) (server : LinkHsAccessory),
      (∀ rep ∈ payload, rep.name.take 2 = rep.name) →
      (payload.map Rep.name).Nodup → rep ∈ payload → rep.name = propName →
      (postParseLoop payload missing server).1 = true →
      field (postParseLoop payload missing server).2 = b := by
  intro payload
  induction payload with
  | nil =>
      intro missing server _ _ hmem
      cases hmem
  | cons first payload ih =>
      intro missing server hshort hnodup hmem hname hok
      rw [List.forall_mem_cons] at hshort
      rw [List.map_cons, List.nodup_cons] at hnodup
      rw [postParseLoop] at hok ⊢
      cases hparsed : server.postParseProperty first with
      | none =>
          rw [hparsed] at hok
          cases hok
      | some server' =>
          rw [hparsed] at hok
          dsimp only at hok ⊢
          rcases List.mem_cons.mp hmem with rfl | hmem
          · -- no later property has the name
            have hothers : ∀ other ∈ payload,
                other.named propName = false := by
              intro other hother
              rw [Rep.named, hshort.2 other hother, beq_eq_false_iff_ne]
              intro hsame
              refine hnodup.1 (List.mem_map.mpr ⟨other, hother, ?_⟩)
              rw [hsame, hname]
            rw [h.loop_keeps payload _ _ hothers]
            exact hsets server server' hparsed
          · exact ih _ _ hshort.2 hnodup.2 hmem hname hok

/-! ## Good payloads look good and hide nothing -/

/-- The names of a payload. -/
def propNames : List (List UInt8) :=
  [chalDataShortPropName, chalModeShortPropName, linkSecModeShortPropName]

theorem name_of_acceptable (hshort : rep.name.length = 2)
    (h : Acceptable rep) : rep.name ∈ propNames := by
  have htake : rep.name.take 2 = rep.name :=
    List.take_of_length_le (le_of_eq hshort)
  rw [Acceptable] at h
  simp only [Rep.named, htake, beq_iff_eq] at h
  cases hvalue : rep.value with
  | byteString bytes =>
      rw [hvalue] at h
      rw [h.1]
      decide
  | int value =>
      rw [hvalue] at h
      obtain ⟨hname | hname, -⟩ := h
      · rw [hname]
        decide
      · rw [hname]
        decide
  | other =>
      rw [hvalue] at h
      cases h

theorem wellFormed_iff_perm (payload : List Rep) :
    WellFormed payload ↔ ∃ data, data.length = 16 ∧
      payload.Perm [⟨chalDataShortPropName, .byteString data⟩,
        ⟨chalModeShortPropName, .int 0⟩,
        ⟨linkSecModeShortPropName, .int 0⟩] := by
  constructor
  · rintro ⟨hlength, ⟨data, hdata, hchalData⟩, hchalMode, hsec⟩
    refine ⟨data, hdata, ?_⟩
    have hnodup : [(⟨chalDataShortPropName, .byteString data⟩ : Rep),
        ⟨chalModeShortPropName, .int 0⟩,
        ⟨linkSecModeShortPropName, .int 0⟩].Nodup := by
      simp
      decide
    have hsubset : [(⟨chalDataShortPropName, .byteString data⟩ : Rep),
        ⟨chalModeShortPropName, .int 0⟩,
        ⟨linkSecModeShortPropName, .int 0⟩] ⊆ payload := by
      simp [hchalData, hchalMode, hsec]
    have hsubperm := hnodup.subperm hsubset
    exact (hsubperm.perm_of_length_le (le_of_eq hlength)).symm
  · rintro ⟨data, hdata, hperm⟩
    refine ⟨hperm.length_eq, ⟨data, hdata, ?_⟩, ?_, ?_⟩
    · exact hperm.mem_iff.mpr (by simp)
    · exact hperm.mem_iff.mpr (by simp)
    · exact hperm.mem_iff.mpr (by simp)

theorem WellFormed.looksGood (h : WellFormed payload) :
    LooksGood payload := by
  obtain ⟨data, hdata, hperm⟩ := (wellFormed_iff_perm payload).mp h
  refine ⟨?_, ?_⟩
  · intro rep hrep
    have hcases := hperm.mem_iff.mp hrep
    simp only [List.mem_cons, List.not_mem_nil, or_false] at hcases
    rcases hcases with rfl | rfl | rfl
    · exact ⟨rfl, congrArg UInt8.ofNat hdata⟩
    · exact ⟨Or.inl rfl, rfl⟩
    · exact ⟨Or.inr rfl, rfl⟩
  · rw [h.1]

theorem WellFormed.hidesNothing (h : WellFormed payload) :
    HidesNothing payload := by
  obtain ⟨data, hdata, hperm⟩ := (wellFormed_iff_perm payload).mp h
  refine ⟨h.1, ?_, ?_⟩
  · refine (hperm.map Rep.name).nodup_iff.mpr ?_
    show propNames.Nodup
    decide
  · intro rep hrep
    have hcases := hperm.mem_iff.mp hrep
    simp only [List.mem_cons, List.not_mem_nil, or_false] at hcases
    rcases hcases with rfl | rfl | rfl
    · refine ⟨rfl, ?_, ?_⟩
      · intro bytes hbytes
        cases hbytes
        exact hdata
      · intro value hvalue
        cases hvalue
    · refine ⟨rfl, ?_, ?_⟩
      · intro bytes hbytes
        cases hbytes
      · intro value hvalue
        cases hvalue
        rfl
    · refine ⟨rfl, ?_, ?_⟩
      · intro bytes hbytes
        cases hbytes
      · intro value hvalue
        cases hvalue
        rfl

/-- The name decides what a property holds. -/
theorem mem_of_name (hgood : LooksGood payload)
    (hhides : HidesNothing payload) {propName : List UInt8}
    (hname : propName ∈ payload.map Rep.name) :
    (propName = chalDataShortPropName →
      ∃ data, data.length = 16 ∧ ⟨propName, .byteString data⟩ ∈ payload) ∧
    (propName ≠ chalDataShortPropName →
      ⟨propName, .int 0⟩ ∈ payload) := by
  obtain ⟨⟨name, value⟩, hrep, rfl⟩ := List.mem_map.mp hname
  obtain ⟨hshort, hbytes, hint⟩ := hhides.2.2 _ hrep
  have htake : name.take 2 = name := List.take_of_length_le (le_of_eq hshort)
  have hacceptable := hgood.1 _ hrep
  rw [Acceptable] at hacceptable
  simp only [Rep.named, htake, beq_iff_eq] at hacceptable
  cases value with
  | byteString bytes =>
      refine ⟨?_, ?_⟩
      · intro _
        exact ⟨bytes, hbytes bytes rfl, hrep⟩
      · intro hne
        exact absurd hacceptable.1 hne
  | int value =>
      have hzero : value = 0 := hint value rfl
      subst hzero
      refine ⟨?_, fun _ => hrep⟩
      intro hcd
      dsimp only at hcd
      subst hcd
      exact absurd hacceptable.1 (by decide)
  | other => cases hacceptable

theorem wellFormed_of_looksGood (hgood : LooksGood payload)
    (hhides : HidesNothing payload) : WellFormed payload := by
  have hsubset : payload.map Rep.name ⊆ propNames := by
    intro name hname
    obtain ⟨rep, hrep, rfl⟩ := List.mem_map.mp hname
    exact name_of_acceptable (hhides.2.2 rep hrep).1 (hgood.1 rep hrep)
  have hlength : propNames.length ≤ (payload.map Rep.name).length := by
    rw [List.length_map, hhides.1]
    exact le_refl 3
  have hperm := (hhides.2.1.subperm hsubset).perm_of_length_le hlength
  have hmem : ∀ propName ∈ propNames, propName ∈ payload.map Rep.name := by
    intro propName h
    exact hperm.mem_iff.mpr h
  refine ⟨hhides.1, ?_, ?_, ?_⟩
  · exact (mem_of_name hgood hhides (hmem _ (by decide))).1 rfl
  · exact (mem_of_name hgood hhides (hmem _ (by decide))).2 (by decide)
  · exact (mem_of_name hgood hhides (hmem _ (by decide))).2 (by decide)

/-! ## The values of a good payload -/

theorem sets_chalData {data : List UInt8} (hdata : data.length = 16) :
    ∀ server server' : LinkHsAccessory,
      server.postParseProperty ⟨chalDataShortPropName, .byteString data⟩
        = some server' → server'.chalData.toList = data := by
  intro server server' hparsed
  have hlength : UInt8.ofNat data.length = 16 := congrArg UInt8.ofNat hdata
  rw [postParseProperty] at hparsed
  dsimp only at hparsed
  rw [postParsePayloadChalData, if_pos ⟨rfl, hlength⟩] at hparsed
  cases hparsed
  refine List.ext_getElem ?_ ?_
  · rw [Vector.length_toList, hdata]
  · intro i hi hi'
    simp [List.getElem?_eq_getElem hi']

theorem WellFormed.received (h : WellFormed payload)
    (server : LinkHsAccessory) :
    Received (server.postParsePayload payload).2 payload := by
  have hok := (postParsePayload_iff server payload).mpr h.looksGood
  obtain ⟨-, hnodup, hrep⟩ := h.hidesNothing
  have hshort : ∀ rep ∈ payload, rep.name.take 2 = rep.name := by
    intro rep hmem
    exact List.take_of_length_le (le_of_eq (hrep rep hmem).1)
  refine ⟨?_, ?_, ?_⟩
  · intro data hmem
    have hdata := (hrep _ hmem).2.1 data rfl
    have hbelongs : Belongs (fun server => server.chalData.toList)
        chalDataShortPropName := by
      intro server server' rep hparsed hname
      exact congrArg Vector.toList
        (belongs_chalData server server' rep hparsed hname)
    exact hbelongs.loop_sets (sets_chalData hdata) payload 3 server hshort
      hnodup hmem rfl hok
  · intro value hmem
    have hzero := (hrep _ hmem).2.2 value rfl
    subst hzero
    have hset := belongs_chalMode.loop_sets (b := 0)
      (by intro server server' hparsed; cases hparsed; rfl)
      payload 3 server hshort hnodup hmem rfl hok
    rw [postParsePayload, hset]
    rfl
  · intro value hmem
    have hzero := (hrep _ hmem).2.2 value rfl
    subst hzero
    have hset := belongs_linkSecurityMode.loop_sets (b := 0)
      (by intro server server' hparsed; cases hparsed; rfl)
      payload 3 server hshort hnodup hmem rfl hok
    rw [postParsePayload, hset]
    rfl

/-! ## The parser and its payloads -/

/-- The parser is exact but for the payloads that look good and hide
something. -/
theorem parsesExactly_iff (server : LinkHsAccessory) (payload : List Rep) :
    ParsesExactly server payload ↔
      (LooksGood payload → HidesNothing payload) := by
  rw [ParsesExactly, postParsePayload_iff]
  constructor
  · rintro ⟨hexact, -⟩ hgood
    exact (hexact.mp hgood).hidesNothing
  · intro hhides
    refine ⟨⟨?_, WellFormed.looksGood⟩, ?_⟩
    · intro hgood
      exact wellFormed_of_looksGood hgood (hhides hgood)
    · intro hgood
      have hwell := wellFormed_of_looksGood hgood (hhides hgood)
      exact hwell.received server

/-- Challenge data three times over: the modes are those of an earlier POST. -/
theorem three_chalData_parsed :
    ¬ ParsesExactly zero (List.replicate 3
      ⟨chalDataShortPropName, .byteString (List.replicate 16 0)⟩) := by
  intro h
  have hwell := h.1.mp (by decide +kernel)
  exact absurd hwell.2.2.1 (by decide +kernel)

end

end LinkHsAccessory

end Nexus.Channel
