import Nexus.Proofs.Accessories

/-!
# The rounds of credit updates

A controller posts its credit to its accessories in turn, a round at a time. A
call that finds the first accessory's turn come and the time of the round over
starts the next round: it puts the clock of the round back, and then looks
whether the last POST is long enough ago. If that is not so it returns, and the
clock runs from zero although the round has not begun. The first accessory has
to wait for another 25 seconds.

In a run in which this never happens, and in which the clocks do not overflow,
every round whose time has come begins.
-/

namespace Nexus.Channel

open Nexus.Lib Nexus.Util

namespace PaygCredit

variable {max : MaxLinks}

/-! ## Calls -/

/-- What a call of `nexus_channel_res_payg_credit_process` finds and is
given. -/
structure ProcessCall (max : MaxLinks) where
  links : LinkManager max
  product : ProductCredit
  initOk : Bool
  doOk : Bool
  secondsElapsed : UInt32

def ProcessCall.result (support : SupportedModes) (call : ProcessCall max)
    (credit : PaygCredit) : Processed :=
  credit.process support call.links call.product call.initOk call.doOk
    call.secondsElapsed

/-- The state after what is done for an accessory. -/
def followed (support : SupportedModes) (call : ProcessCall max)
    (credit : PaygCredit) : PaygCredit :=
  { (if support.accessoryMode then
      { credit with remaining := call.product.getLatest }.processFollowing
        call.links.creditOperatingMode call.secondsElapsed
    else (idleTimeBetweenProcessCallSeconds, [],
      { credit with remaining := call.product.getLatest })).2.2 with
    mode := call.links.creditOperatingMode }

/-- The state in which the next accessory is looked for. -/
def prepared (support : SupportedModes) (call : ProcessCall max)
    (credit : PaygCredit) : PaygCredit :=
  ((followed support call credit).notePaygState
    call.product.paygState).checkStoredIds call.links

/-- It is the turn of the first accessory of the round. -/
def FirstsTurn (support : SupportedModes) (call : ProcessCall max)
    (credit : PaygCredit) : Prop :=
  (prepared support call credit).nextId call.links
    = some (prepared support call credit).cycleFirstNexusId

/-- The seconds of the round, at the call. -/
def cycleSeconds (support : SupportedModes) (call : ProcessCall max)
    (credit : PaygCredit) : UInt32 :=
  (prepared support call credit).secondsSinceLastCycleStart
    + call.secondsElapsed

/-- The seconds since the last POST, at the call. -/
def postSeconds (support : SupportedModes) (call : ProcessCall max)
    (credit : PaygCredit) : UInt32 :=
  (prepared support call credit).secondsSinceLastPost + call.secondsElapsed

/-- The call attempts the POST to the first accessory of the round, with the
credit of the device if the request can be prepared. -/
def AttemptsFirst (support : SupportedModes) (call : ProcessCall max)
    (credit : PaygCredit) : Prop :=
  (call.result support credit).post = some
    ⟨(prepared support call credit).cycleFirstNexusId,
      if call.initOk then some (call.result support credit).credit.remaining
      else none⟩

/-- A call that puts the clock of the round back, since it is the first
accessory's turn and the time of the round is over. -/
def RestartsCycle (support : SupportedModes) (call : ProcessCall max)
    (credit : PaygCredit) : Prop :=
  FirstsTurn support call credit ∧
    postUpdateCycleTimeSeconds ≤ cycleSeconds support call credit ∧
    (call.result support credit).credit.secondsSinceLastCycleStart = 0

/-! ## Runs -/

/-- The state, and the seconds reported since the round began with its first
POST and since the last POST. -/
structure Watched where
  credit : PaygCredit
  sinceCycleStart : ℕ
  sincePost : ℕ

/-- Before the first POST both are due. -/
def watchedInit (support : SupportedModes) (links : LinkManager max)
    (product : ProductCredit) : Watched :=
  ⟨(init support links product).2, 25, 2⟩

def watchedStep (support : SupportedModes) (w : Watched)
    (call : ProcessCall max) : Watched :=
  let r := call.result support w.credit
  { credit := r.credit
    sinceCycleStart :=
      if r.post.map CreditPost.id = some r.credit.cycleFirstNexusId then 0
      else w.sinceCycleStart + call.secondsElapsed.toNat
    sincePost :=
      if r.post.isSome then 0 else w.sincePost + call.secondsElapsed.toNat }

/-- A round that begins begins with a POST; and one that is due begins. -/
def BeginsRound (support : SupportedModes) (w : Watched)
    (call : ProcessCall max) : Prop :=
  (RestartsCycle support call w.credit →
    AttemptsFirst support call w.credit) ∧
  (FirstsTurn support call w.credit →
    25 ≤ w.sinceCycleStart + call.secondsElapsed.toNat →
    2 ≤ w.sincePost + call.secondsElapsed.toNat →
    AttemptsFirst support call w.credit)

/-- The time of the round is not over on the first accessory's turn with the
last POST less than two seconds ago. -/
def Spaced (support : SupportedModes) (call : ProcessCall max)
    (credit : PaygCredit) : Prop :=
  ¬ (FirstsTurn support call credit ∧
    postUpdateCycleTimeSeconds ≤ cycleSeconds support call credit ∧
    postSeconds support call credit < intervalBetweenPostSeconds)

/-- Neither clock overflows. -/
def NoOverflow (support : SupportedModes) (call : ProcessCall max)
    (credit : PaygCredit) : Prop :=
  (prepared support call credit).secondsSinceLastCycleStart.toNat
      + call.secondsElapsed.toNat < 4294967296 ∧
    (prepared support call credit).secondsSinceLastPost.toNat
      + call.secondsElapsed.toNat < 4294967296

/-- A call with an accessory linked and the two clocks in order. -/
def Orderly (support : SupportedModes) (w : Watched)
    (call : ProcessCall max) : Prop :=
  call.links.accessoryLinkCount ≠ 0 ∧ Spaced support call w.credit ∧
    NoOverflow support call w.credit

/-! ## There is always a next accessory -/

section

variable {support : SupportedModes} {call : ProcessCall max}
  {credit : PaygCredit} {links : LinkManager max}

/-- A slot that is counted is found, unless it is the one left out. -/
theorem exists_controls (h : links.accessoryLinkCount ≠ 0) :
    ∃ i, links.controls i = true := by
  have hlength : links.accessoryIds.length ≠ 0 := by
    rw [← LinkManager.toNat_accessoryLinkCount]
    intro hzero
    exact h (UInt8.toNat_inj.mp hzero)
  rw [LinkManager.accessoryIds_length] at hlength
  obtain ⟨i, hi⟩ := List.exists_mem_of_length_pos
    (Nat.pos_of_ne_zero hlength)
  exact ⟨i, mem_marked.mp hi⟩

theorem linksAccessory_of_controls {i : Fin max.count}
    (h : links.controls i = true) : links.linksAccessory i = true := by
  rw [LinkManager.controls, Bool.and_eq_true, beq_iff_eq] at h
  rw [LinkManager.linksAccessory, h.1, h.2]
  rfl

theorem isSome_firstLinkedAccessory (h : links.accessoryLinkCount ≠ 0) :
    links.firstLinkedAccessory.isSome = true := by
  obtain ⟨i, hi⟩ := exists_controls h
  rw [LinkManager.firstLinkedAccessory, Option.isSome_map,
    List.find?_isSome]
  exact ⟨i, List.mem_finRange i, linksAccessory_of_controls hi⟩

/-- With more than one accessory, there is one in another slot. -/
theorem exists_controls_ne (h : 1 < (marked links.controls).length)
    (prev : Fin max.count) :
    ∃ i, i ≠ prev ∧ links.controls i = true := by
  by_contra hnone
  push Not at hnone
  have hsubset : marked links.controls ⊆ [prev] := by
    intro i hi
    by_contra hne
    exact hnone i (fun heq => hne (List.mem_singleton.mpr heq))
      (mem_marked.mp hi)
  have hle := ((nodup_marked links.controls).subperm hsubset).length_le
  rw [List.length_singleton] at hle
  omega

theorem isSome_nextLinkedAccessory (h : links.accessoryLinkCount ≠ 0)
    {id : NxId} (hid : (links.linkFromNxid id).isSome = true) :
    (links.nextLinkedAccessory (some id)).isSome = true := by
  rw [LinkManager.nextLinkedAccessory]
  by_cases hone : links.accessoryLinkCount = 1
  · rw [if_pos hone]
    exact isSome_firstLinkedAccessory h
  · rw [if_neg hone]
    rw [LinkManager.linkFromNxid, Option.isSome_map] at hid
    obtain ⟨prev, hprev⟩ := Option.isSome_iff_exists.mp hid
    have hmore : 1 < (marked links.controls).length := by
      have hcount := links.toNat_accessoryLinkCount
      rw [LinkManager.accessoryIds_length] at hcount
      have h0 : links.accessoryLinkCount.toNat ≠ 0 := by
        intro hzero
        exact h (UInt8.toNat_inj.mp hzero)
      have h1 : links.accessoryLinkCount.toNat ≠ 1 := by
        intro heq
        exact hone (UInt8.toNat_inj.mp heq)
      omega
    obtain ⟨i, hne, hi⟩ := exists_controls_ne hmore prev
    have hmem : i ∈ (List.range' (prev + 1) (max.count - 1)).map
        LinkManager.wrapIdx := mem_map_wrap_range' max.one_le hne
    obtain ⟨j, hj, rfl⟩ := List.mem_map.mp hmem
    rw [hprev]
    dsimp only
    rw [Option.isSome_map, List.find?_isSome]
    exact ⟨j, hj, linksAccessory_of_controls hi⟩

/-- The stored id is none or has a link. -/
theorem prepared_stored :
    (prepared support call credit).lastUpdatedNexusId
        = sentinelNullNexusId ∨
      (call.links.linkFromNxid
        (prepared support call credit).lastUpdatedNexusId).isSome = true := by
  rw [prepared, checkStoredIds]
  split
  · next h => exact Or.inr h.1
  · exact Or.inl rfl

theorem exists_nextId (h : call.links.accessoryLinkCount ≠ 0) :
    ∃ id, (prepared support call credit).nextId call.links = some id := by
  refine Option.isSome_iff_exists.mp ?_
  rw [nextId]
  split
  · exact isSome_firstLinkedAccessory h
  · next hnull =>
      exact isSome_nextLinkedAccessory h (prepared_stored.resolve_left hnull)

/-! ## What a call does -/

theorem processFollowing_clocks (mode : CreditOperatingMode)
    (secondsElapsed : UInt32) (credit : PaygCredit) :
    (credit.processFollowing mode secondsElapsed).2.2.secondsSinceLastCycleStart
        = credit.secondsSinceLastCycleStart ∧
      (credit.processFollowing mode secondsElapsed).2.2.secondsSinceLastPost
        = credit.secondsSinceLastPost := by
  rw [processFollowing]
  dsimp only
  split_ifs <;> exact ⟨rfl, rfl⟩

/-- Nothing that is done for an accessory touches the clocks. -/
theorem followed_clocks :
    (followed support call credit).secondsSinceLastCycleStart
        = credit.secondsSinceLastCycleStart ∧
      (followed support call credit).secondsSinceLastPost
        = credit.secondsSinceLastPost := by
  rw [followed]
  cases support.accessoryMode with
  | false => exact ⟨rfl, rfl⟩
  | true => exact processFollowing_clocks _ _ _

/-- What is done before the next accessory is looked for leaves the clocks
alone or makes both due. -/
theorem prepared_clocks :
    ((prepared support call credit).secondsSinceLastCycleStart
        = credit.secondsSinceLastCycleStart ∧
      (prepared support call credit).secondsSinceLastPost
        = credit.secondsSinceLastPost) ∨
    ((prepared support call credit).secondsSinceLastCycleStart
        = postUpdateCycleTimeSeconds ∧
      (prepared support call credit).secondsSinceLastPost
        = intervalBetweenPostSeconds) := by
  have hfollowed : (followed support call credit).secondsSinceLastCycleStart
        = credit.secondsSinceLastCycleStart ∧
      (followed support call credit).secondsSinceLastPost
        = credit.secondsSinceLastPost := followed_clocks
  rw [prepared, checkStoredIds]
  split
  · rw [notePaygState]
    split
    · exact Or.inr ⟨rfl, rfl⟩
    · exact Or.inl hfollowed
  · exact Or.inr ⟨rfl, rfl⟩

/-- With a next device, what is left is to look whether its POST is due. -/
theorem processLeading_of_nextId {links : LinkManager max}
    {paygState : Keycode.PaygState} {initOk doOk : Bool}
    {secondsElapsed minSleep : UInt32} {credit : PaygCredit}
    (hcount : links.accessoryLinkCount ≠ 0) {id : NxId}
    (hid : ((credit.notePaygState paygState).checkStoredIds links).nextId links
      = some id) :
    credit.processLeading links paygState initOk doOk secondsElapsed minSleep
      = (((credit.notePaygState paygState).checkStoredIds links).elapse
          secondsElapsed).updateNext id initOk doOk := by
  simp only [processLeading, if_neg hcount, hid]

theorem result_eq (hsupport : support.controllerMode = true)
    (hcount : call.links.accessoryLinkCount ≠ 0) {id : NxId}
    (hid : (prepared support call credit).nextId call.links = some id) :
    (call.result support credit).post
        = (((prepared support call credit).elapse
          call.secondsElapsed).updateNext id call.initOk call.doOk).2.1 ∧
      (call.result support credit).credit
        = (((prepared support call credit).elapse
          call.secondsElapsed).updateNext id call.initOk call.doOk).2.2 := by
  have hleading : ∀ minSleep, (followed support call credit).processLeading
      call.links call.product.paygState call.initOk call.doOk
      call.secondsElapsed minSleep
        = ((prepared support call credit).elapse
          call.secondsElapsed).updateNext id call.initOk call.doOk := by
    intro minSleep
    exact processLeading_of_nextId hcount hid
  rw [ProcessCall.result, process, if_pos hsupport]
  exact ⟨congrArg (fun r => r.2.1) (hleading _),
    congrArg (fun r => r.2.2) (hleading _)⟩

end

section

variable {credit : PaygCredit} {id : NxId} {initOk doOk : Bool}

/-- What an attempt leaves behind: the clock of the round starts only if the
device is now its first. -/
theorem post_spec (id : NxId) (initOk doOk : Bool) (credit : PaygCredit) :
    (credit.post id initOk doOk).2.1 = some ⟨id,
        if initOk then some (credit.post id initOk doOk).2.2.remaining
        else none⟩ ∧
      (credit.post id initOk doOk).2.2.secondsSinceLastPost = 0 ∧
      ((credit.post id initOk doOk).2.2.cycleFirstNexusId = id ∨
        ((credit.post id initOk doOk).2.2.cycleFirstNexusId
            = credit.cycleFirstNexusId ∧
          (credit.post id initOk doOk).2.2.secondsSinceLastCycleStart
            = credit.secondsSinceLastCycleStart)) := by
  rw [post]
  cases initOk with
  | false => exact ⟨rfl, rfl, Or.inr ⟨rfl, rfl⟩⟩
  | true =>
      cases doOk with
      | false => exact ⟨rfl, rfl, Or.inr ⟨rfl, rfl⟩⟩
      | true =>
          by_cases hnull : credit.cycleFirstNexusId = sentinelNullNexusId
          · dsimp only
            rw [if_neg Bool.true_eq_false_eq_False,
              if_neg Bool.true_eq_false_eq_False, if_pos hnull]
            exact ⟨rfl, rfl, Or.inl rfl⟩
          · dsimp only
            rw [if_neg Bool.true_eq_false_eq_False,
              if_neg Bool.true_eq_false_eq_False, if_neg hnull]
            exact ⟨rfl, rfl, Or.inr ⟨rfl, rfl⟩⟩

/-- A call with a next accessory waits for the round, waits for the interval,
starts the round without a POST, or posts. -/
theorem updateNext_cases (id : NxId) (initOk doOk : Bool)
    (credit : PaygCredit) :
    (((credit.cycleFirstNexusId = id ∧
          credit.secondsSinceLastCycleStart < postUpdateCycleTimeSeconds) ∨
        (credit.cycleFirstNexusId ≠ id ∧
          credit.secondsSinceLastPost < intervalBetweenPostSeconds)) ∧
      (credit.updateNext id initOk doOk).2 = (none, credit)) ∨
    (credit.cycleFirstNexusId = id ∧
      ¬ credit.secondsSinceLastCycleStart < postUpdateCycleTimeSeconds ∧
      credit.secondsSinceLastPost < intervalBetweenPostSeconds ∧
      (credit.updateNext id initOk doOk).2
        = (none, { credit with secondsSinceLastCycleStart := 0 })) ∨
    (¬ credit.secondsSinceLastPost < intervalBetweenPostSeconds ∧
      (credit.updateNext id initOk doOk).2.1 = some ⟨id,
        if initOk then some (credit.updateNext id initOk doOk).2.2.remaining
        else none⟩ ∧
      (credit.updateNext id initOk doOk).2.2.secondsSinceLastPost = 0 ∧
      ((credit.updateNext id initOk doOk).2.2.cycleFirstNexusId = id ∨
        (credit.updateNext id initOk doOk).2.2.secondsSinceLastCycleStart
          = credit.secondsSinceLastCycleStart)) := by
  rw [updateNext]
  by_cases hfirst : credit.cycleFirstNexusId = id
  · rw [if_pos hfirst]
    by_cases hround :
        credit.secondsSinceLastCycleStart < postUpdateCycleTimeSeconds
    · rw [if_pos hround]
      exact Or.inl ⟨Or.inl ⟨hfirst, hround⟩, rfl⟩
    · rw [if_neg hround, postWhenDue]
      by_cases hpost :
          credit.secondsSinceLastPost < intervalBetweenPostSeconds
      · rw [if_pos hpost]
        exact Or.inr (Or.inl ⟨hfirst, hround, hpost, rfl⟩)
      · rw [if_neg hpost]
        obtain ⟨hsent, hzero, hcycle⟩ := post_spec id initOk doOk
          { credit with secondsSinceLastCycleStart := 0 }
        refine Or.inr (Or.inr ⟨hpost, hsent, hzero, Or.inl ?_⟩)
        rcases hcycle with heq | ⟨heq, -⟩
        · exact heq
        · exact heq.trans hfirst
  · rw [if_neg hfirst, postWhenDue]
    by_cases hpost : credit.secondsSinceLastPost < intervalBetweenPostSeconds
    · rw [if_pos hpost]
      exact Or.inl ⟨Or.inr ⟨hfirst, hpost⟩, rfl⟩
    · rw [if_neg hpost]
      obtain ⟨hsent, hzero, hcycle⟩ := post_spec id initOk doOk credit
      refine Or.inr (Or.inr ⟨hpost, hsent, hzero, ?_⟩)
      rcases hcycle with heq | ⟨-, heq⟩
      · exact Or.inl heq
      · exact Or.inr heq

end

/-! ## Rounds begin -/

section

variable {support : SupportedModes} {call : ProcessCall max}
  {credit : PaygCredit} {w : Watched}

theorem attemptsFirst_of_due (hsupport : support.controllerMode = true)
    (hcount : call.links.accessoryLinkCount ≠ 0)
    (hturn : FirstsTurn support call credit)
    (hcycle : postUpdateCycleTimeSeconds ≤ cycleSeconds support call credit)
    (hpost : ¬ postSeconds support call credit < intervalBetweenPostSeconds) :
    AttemptsFirst support call credit := by
  obtain ⟨hsent, hcredit⟩ := result_eq hsupport hcount hturn
  rw [AttemptsFirst, hsent, hcredit]
  rcases updateNext_cases (prepared support call credit).cycleFirstNexusId
      call.initOk call.doOk
      ((prepared support call credit).elapse call.secondsElapsed) with
    ⟨⟨-, hearly⟩ | ⟨hother, -⟩, -⟩ | ⟨-, -, hearly, -⟩ | ⟨-, hposted, -⟩
  · exact absurd hcycle (UInt32.not_le.mpr hearly)
  · exact absurd rfl hother
  · exact absurd hearly hpost
  · exact hposted

/-- What goes wrong is exactly the start of a round too soon after a POST. -/
theorem restart_attempts_iff (hsupport : support.controllerMode = true)
    (hcount : call.links.accessoryLinkCount ≠ 0) :
    (RestartsCycle support call credit → AttemptsFirst support call credit) ↔
      Spaced support call credit := by
  constructor
  · rintro h ⟨hturn, hcycle, hpost⟩
    obtain ⟨hsent, hcredit⟩ := result_eq hsupport hcount hturn
    rcases updateNext_cases (prepared support call credit).cycleFirstNexusId
        call.initOk call.doOk
        ((prepared support call credit).elapse call.secondsElapsed) with
      ⟨⟨-, hearly⟩ | ⟨hother, -⟩, -⟩ | ⟨-, -, -, heq⟩ | ⟨hlate, -⟩
    · exact absurd hcycle (UInt32.not_le.mpr hearly)
    · exact absurd rfl hother
    · rw [heq] at hsent hcredit
      have hattempt := h ⟨hturn, hcycle, congrArg _ hcredit⟩
      rw [AttemptsFirst, hsent] at hattempt
      cases hattempt
    · exact absurd hpost hlate
  · rintro hspaced ⟨hturn, hcycle, -⟩
    refine attemptsFirst_of_due hsupport hcount hturn hcycle ?_
    intro hearly
    exact hspaced ⟨hturn, hcycle, hearly⟩

/-- The clocks show the time that has passed, at least until it is enough. -/
def InTime (w : Watched) : Prop :=
  min w.sinceCycleStart 25 ≤ w.credit.secondsSinceLastCycleStart.toNat ∧
    min w.sincePost 2 ≤ w.credit.secondsSinceLastPost.toNat

/-- So they do at a call. -/
theorem InTime.elapsed (h : InTime w)
    (hover : NoOverflow support call w.credit) :
    min (w.sinceCycleStart + call.secondsElapsed.toNat) 25
        ≤ (cycleSeconds support call w.credit).toNat ∧
      min (w.sincePost + call.secondsElapsed.toNat) 2
        ≤ (postSeconds support call w.credit).toNat := by
  obtain ⟨hcycle, hpost⟩ := h
  obtain ⟨hcycleOver, hpostOver⟩ := hover
  rw [cycleSeconds, postSeconds, UInt32.toNat_add, UInt32.toNat_add,
    Nat.mod_eq_of_lt hcycleOver, Nat.mod_eq_of_lt hpostOver]
  rcases @prepared_clocks max support call w.credit with
    ⟨heq, heq'⟩ | ⟨heq, heq'⟩
  · rw [heq, heq']
    omega
  · have h25 : postUpdateCycleTimeSeconds.toNat = 25 := rfl
    have h2 : intervalBetweenPostSeconds.toNat = 2 := rfl
    rw [heq, heq', h25, h2]
    omega

theorem InTime.step (hsupport : support.controllerMode = true)
    (h : InTime w) (horderly : Orderly support w call) :
    InTime (watchedStep support w call) := by
  obtain ⟨hcount, hspaced, hover⟩ := horderly
  obtain ⟨hcycle, hpost⟩ := h.elapsed hover
  obtain ⟨id, hid⟩ := @exists_nextId max support call w.credit hcount
  obtain ⟨hsent, hcredit⟩ := result_eq hsupport hcount hid
  rw [InTime, watchedStep]
  dsimp only
  rw [hsent, hcredit]
  rcases updateNext_cases id call.initOk call.doOk
      ((prepared support call w.credit).elapse call.secondsElapsed) with
    ⟨-, heq⟩ | ⟨hfirst, hround, hearly, -⟩ | ⟨-, hposted, hzero, hround⟩
  · -- nothing is sent, and time goes on
    rw [heq]
    exact ⟨hcycle, hpost⟩
  · refine absurd ⟨?_, UInt32.not_lt.mp hround, hearly⟩ hspaced
    rw [FirstsTurn, hid]
    exact congrArg some hfirst.symm
  · rw [hposted, Option.map_some, Option.isSome_some, if_pos rfl]
    refine ⟨?_, Nat.zero_le _⟩
    rcases hround with hsame | hsame
    · rw [hsame, if_pos rfl]
      exact Nat.zero_le _
    · rw [hsame]
      refine le_trans (min_le_min_right 25 ?_) hcycle
      dsimp only
      split
      · exact Nat.zero_le _
      · exact le_rfl

theorem InTime.beginsRound (hsupport : support.controllerMode = true)
    (h : InTime w) (horderly : Orderly support w call) :
    BeginsRound support w call := by
  obtain ⟨hcount, hspaced, hover⟩ := horderly
  obtain ⟨hcycle, hpost⟩ := h.elapsed hover
  constructor
  · exact (restart_attempts_iff hsupport hcount).mpr hspaced
  · intro hturn hcycle25 hpost2
    refine attemptsFirst_of_due hsupport hcount hturn ?_ ?_
    · rw [UInt32.le_iff_toNat_le]
      show 25 ≤ _
      omega
    · rw [UInt32.lt_iff_toNat_lt]
      show ¬ _ < 2
      omega

end

/-- In a run of orderly calls, every round that is started and every round that
is due begins with its POST. -/
theorem rounds_begin {support : SupportedModes}
    (hsupport : support.controllerMode = true) (links : LinkManager max)
    (product : ProductCredit) {calls : List (ProcessCall max)}
    (hcalls : Along (watchedStep support) (Orderly support)
      (watchedInit support links product) calls) :
    Along (watchedStep support) (BeginsRound support)
      (watchedInit support links product) calls := by
  have hinit : InTime (watchedInit support links product) :=
    ⟨le_refl 25, le_refl 2⟩
  refine along_of_invariant ?_ ?_ hinit hcalls
  · intro w call h horderly
    exact h.step hsupport horderly
  · intro w call h horderly
    exact h.beginsRound hsupport horderly

/-! ## A round that is lost -/

section

variable (support : SupportedModes) (call : ProcessCall max)
  (credit : PaygCredit) (w : Watched)

instance FirstsTurn.decidable : Decidable (FirstsTurn support call credit) :=
  inferInstanceAs (Decidable (_ = _))

instance AttemptsFirst.decidable :
    Decidable (AttemptsFirst support call credit) :=
  inferInstanceAs (Decidable (_ = _))

instance RestartsCycle.decidable :
    Decidable (RestartsCycle support call credit) :=
  inferInstanceAs (Decidable (_ ∧ _))

instance BeginsRound.decidable : Decidable (BeginsRound support w call) :=
  inferInstanceAs (Decidable (_ ∧ _))

instance Spaced.decidable : Decidable (Spaced support call credit) :=
  inferInstanceAs (Decidable (¬ _))

instance NoOverflow.decidable : Decidable (NoOverflow support call credit) :=
  inferInstanceAs (Decidable (_ ∧ _))

instance Orderly.decidable : Decidable (Orderly support w call) :=
  inferInstanceAs (Decidable (_ ∧ _))

end

/-- A call after so many seconds, in which everything can be sent. -/
def callAfter (secondsElapsed : UInt32) :=
  ProcessCall.mk threeLinks ⟨.enabled, 1000⟩ true true secondsElapsed

/-- The last accessory gets its credit late in the round. -/
theorem rounds_begin_late :
    Along (watchedStep ⟨true, true⟩) (BeginsRound ⟨true, true⟩)
      (watchedInit ⟨true, true⟩ threeLinks ⟨.enabled, 1000⟩)
      [callAfter 0, callAfter 23, callAfter 2] := by
  refine rounds_begin rfl threeLinks ⟨.enabled, 1000⟩ ?_
  decide +kernel

/-- A second later still, and the next round is put off. -/
theorem round_lost :
    threeLinks.accessoryLinkCount ≠ 0 ∧
      ¬ Along (watchedStep ⟨true, true⟩) (BeginsRound ⟨true, true⟩)
        (watchedInit ⟨true, true⟩ threeLinks ⟨.enabled, 1000⟩)
        [callAfter 0, callAfter 24, callAfter 1] := by
  constructor
  · decide +kernel
  · decide +kernel

end PaygCredit

end Nexus.Channel
