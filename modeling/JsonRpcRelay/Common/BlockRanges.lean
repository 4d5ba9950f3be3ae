import JsonRpcRelay.Common.CommonService

/-!
# Block ranges

The check of the range of a log query while the chain grows between its lookups.
-/

namespace JsonRpcRelay.Common

open constants Framework Mirror

section Chains

/-- The blocks that a mirror node has, which need not start with the first one. -/
structure KnownBlocks where
  blocks : List MirrorNodeBlock
  nonempty : blocks ≠ []
  increasing : blocks.Pairwise fun a b : MirrorNodeBlock =>
    a.number < b.number ∧ a.timestampTo < b.timestampFrom
  spans : ∀ b ∈ blocks, b.timestampFrom ≤ b.timestampTo

def KnownBlocks.latest (known : KnownBlocks) : MirrorNodeBlock := known.blocks.getLast known.nonempty

def KnownBlocks.block? (known : KnownBlocks) (n : ℕ) : Option MirrorNodeBlock :=
  known.blocks.find? (·.number = n)

/-- The blocks at each request to the mirror node. -/
structure GrowingChain where
  known : ℕ → KnownBlocks
  grows : ∀ i, (known i).blocks <+: (known (i + 1)).blocks

/-- The requests by their number. -/
abbrev RequestM := StateT ℕ (Except RelayError)

/-- The lookups of the latest block and of numbers are answered by the chain. -/
def growingClient (chain : GrowingChain) (others : MirrorNodeClient RequestM) :
    MirrorNodeClient RequestM where
  getLatestBlock _ := fun i => .ok (some [(chain.known i).latest], i + 1)
  getBlock
    | _, .number n => fun i => .ok ((chain.known i).block? n, i + 1)
    | lookup, .hash text => others.getBlock lookup (.hash text)
  getLogs := others.getLogs

/-- The bounds of a range, as the validation of a filter accepts them. -/
structure RangeParams where
  fromBlock : Option BlockParam
  toBlock : Option BlockParam
  fromValid : ∀ param ∈ fromBlock, param.isBlockNumber
  toValid : ∀ param ∈ toBlock, param.isBlockNumber

end Chains

section Ranges

variable (config : CommonConfig) (chain : GrowingChain)

/-- The block that is found for a parameter from a request on.  A number is compared with the head
first, and looked up with the next request. -/
def GrowingChain.resolve (i : ℕ) : Option BlockParam → Option MirrorNodeBlock
  | some .earliest => (chain.known i).block? 0
  | some (.hex text) =>
      if bigIntOfHex text > (chain.known i).latest.number + config.maxBlockRange then none
      else (chain.known (i + 1)).block? (bigIntOfHex text)
  | _ => some (chain.known i).latest

def requestsFor : Option BlockParam → ℕ
  | some (.hex _) => 2
  | _ => 1

/-- Seven days in nanoseconds. -/
def sevenDays : Timestamp := maxTimestampParamRange * 10 ^ 9

/-- As many blocks in their order as may be asked for. -/
structure InLimits (address : AddressFilter) (first last : MirrorNodeBlock) : Prop where
  ordered : first.number ≤ last.number
  blocks : last.number - first.number ≤ config.logsBlockRangeLimit ∨ address.isSingleAddress = true

/-- A range of two blocks that may be asked for. -/
structure Allowed (address : AddressFilter) (first last : MirrorNodeBlock) : Prop
    extends InLimits config address first last where
  time : last.timestampTo ≤ first.timestampFrom + sevenDays

/-- A range of two blocks that the check lets through, whose times are rounded. -/
structure LetThrough (address : AddressFilter) (first last : MirrorNodeBlock) : Prop
    extends InLimits config address first last where
  time : ¬ExceedsRange last.timestampTo first.timestampFrom

namespace RangeParams

variable (params : RangeParams)

/-- The bounds are written in the same way. -/
def Same : Prop := latestIfTag params.fromBlock = latestIfTag params.toBlock

instance : Decidable params.Same := inferInstanceAs (Decidable (_ = _))

/-- The head is only asked for if there is an upper bound. -/
def fromRequest : ℕ := if blockTagIsLatestOrPending params.toBlock then 0 else 1

def toRequest : ℕ := params.fromRequest + requestsFor params.fromBlock

def firstBlock : Option MirrorNodeBlock :=
  chain.resolve config params.fromRequest params.fromBlock

def lastBlock : Option MirrorNodeBlock :=
  if params.Same then params.firstBlock config chain
  else chain.resolve config params.toRequest params.toBlock

/-- The number of the block that the upper bound names. -/
def toNumber : Option ℕ := params.toBlock.bind fun param =>
  if param = .earliest then some 0 else param.toNumber

/-- There is an upper bound other than the head and no lower one. -/
def LacksLowerBound : Prop :=
  params.fromBlock = none ∧ blockTagIsLatestOrPending params.toBlock = false ∧
    params.toNumber ≠ some (chain.known 0).latest.number

/-- The range is bounded from below and goes from the start of its first block to the end of its
last one, both of which are there and an allowed range. -/
structure Spans (address : AddressFilter) (range : Timestamp × Timestamp) : Prop where
  bounded : ¬params.LacksLowerBound chain
  blocks : ∃ first last, params.firstBlock config chain = some first ∧
    params.lastBlock config chain = some last ∧ Allowed config address first last ∧
    range = (first.timestampFrom, last.timestampTo)

variable (others : MirrorNodeClient RequestM)

def validatedRange (address : AddressFilter) : Except RelayError (Option (Timestamp × Timestamp)) :=
  (validateBlockRangeAndAddTimestampToParams config (growingClient chain others) params.fromBlock
    params.toBlock address).run' 0

/-- Exactly the allowed ranges are validated, and an upper bound alone is refused. -/
structure ChecksRange (address : AddressFilter) : Prop where
  validates : ∀ range, params.validatedRange config chain others address = .ok (some range) ↔
    params.Spans config chain address range
  refuses : params.LacksLowerBound chain → params.validatedRange config chain others address =
    .error (.jsonRpcError predefined.MISSING_FROM_BLOCK_PARAM)

/-- The range is one block that lasts for too long. -/
def LongBlock : Prop := params.Same ∧ ∃ block, params.firstBlock config chain = some block ∧
  sevenDays < block.timestampTo - block.timestampFrom

/-- The range goes up to the very first block, which is the whole chain. -/
def OnlyEarliest : Prop :=
  params.fromBlock = none ∧ params.toBlock = some .earliest ∧
    (chain.known 1).latest.number = 0 ∧
    (chain.known 1).latest.timestampTo - (chain.known 1).latest.timestampFrom ≤ sevenDays

/-- What the check refuses for want of a lower bound.  The tag of the very first block has no
number. -/
def Refused : Prop :=
  params.fromBlock = none ∧ blockTagIsLatestOrPending params.toBlock = false ∧
    params.toBlock.bind (·.toNumber) ≠ some (chain.known 0).latest.number

instance : Decidable (params.Refused chain) := inferInstanceAs (Decidable (_ ∧ _ ∧ _))

/-- The range is within the other limits, and the difference of the doubles is on the other side of
seven days than that of the timestamps. -/
def MisjudgedTime (address : AddressFilter) : Prop :=
  ¬params.Same ∧ ¬params.Refused chain ∧ ∃ first last,
    params.firstBlock config chain = some first ∧ params.lastBlock config chain = some last ∧
      InLimits config address first last ∧
      ¬(ExceedsRange last.timestampTo first.timestampFrom ↔
        first.timestampFrom + sevenDays < last.timestampTo)

end RangeParams

end Ranges

section Times

private theorem timestampNumber_eq (t : Timestamp) :
    timestampNumber t = roundQuotient (t * 2 ^ 82) (10 ^ 9) := by
  cases t with
  | zero => rfl
  | succ t => rfl

private theorem timestampNumber_mono {t u : Timestamp} (h : t ≤ u) :
    timestampNumber t ≤ timestampNumber u := by
  rw [timestampNumber_eq, timestampNumber_eq]
  exact roundQuotient_mono (by decide) (Nat.mul_le_mul_right _ h)

private theorem exceedsRange_iff {toTimestamp fromTimestamp : Timestamp} :
    ExceedsRange toTimestamp fromTimestamp ↔ maxTimestampParamRange * 2 ^ 82 <
      roundNat (timestampNumber toTimestamp - timestampNumber fromTimestamp) := by
  rw [ExceedsRange, timestampDiff]
  generalize timestampNumber toTimestamp = m
  generalize timestampNumber fromTimestamp = n
  generalize maxTimestampParamRange * 2 ^ 82 = limit
  rcases Nat.lt_or_ge n m with hlt | hle
  · have habs : ((m : ℤ) - n).natAbs = m - n := by omega
    rw [Int.sign_eq_one_of_pos (by omega), Int.one_mul, habs, gt_iff_lt, Int.ofNat_lt]
  · have hsign : ((m : ℤ) - n).sign ≤ 0 := Int.sign_nonpos_iff.mpr (by omega)
    have hzero : roundNat (m - n) = 0 := by
      rw [Nat.sub_eq_zero_of_le hle]
      rfl
    rw [hzero]
    refine iff_of_false ?_ (Nat.not_lt_zero _)
    have hproduct := Int.mul_nonpos_of_nonpos_of_nonneg hsign
      (Int.natCast_nonneg (roundNat ((m : ℤ) - n).natAbs))
    omega

/-- A range that is part of another one is not longer for being rounded. -/
theorem ExceedsRange.mono {t u t' u' : Timestamp} (h : ExceedsRange t' u') (ht : t' ≤ t)
    (hu : u ≤ u') : ExceedsRange t u := by
  rw [exceedsRange_iff] at h ⊢
  exact h.trans_le (roundNat_mono
    (tsub_le_tsub (timestampNumber_mono ht) (timestampNumber_mono hu)))

/-- Between two powers of two there is a double for the difference. -/
theorem exceedsRange_of_powers {t u : Timestamp} {k : ℕ} (hk : 20 ≤ k)
    (hu : u ≤ 2 ^ k * 10 ^ 9) (ht : 2 ^ (k + 1) * 10 ^ 9 ≤ t) : ExceedsRange t u := by
  have hfrom : timestampNumber u ≤ 2 ^ (k + 82) := by
    rw [timestampNumber_eq]
    refine roundQuotient_le (by decide) (significant_two_pow _) ?_
    calc u * 2 ^ 82 ≤ 2 ^ k * 10 ^ 9 * 2 ^ 82 := Nat.mul_le_mul_right _ hu
      _ = 2 ^ (k + 82) * 10 ^ 9 := by rw [Nat.pow_add, Nat.mul_right_comm]
  have hto : 2 ^ (k + 83) ≤ timestampNumber t := by
    rw [timestampNumber_eq]
    refine le_roundQuotient (by decide) (significant_two_pow _) ?_
    calc 2 ^ (k + 83) * 10 ^ 9 = 2 ^ (k + 1) * 10 ^ 9 * 2 ^ 82 := by
          rw [show k + 83 = k + 1 + 82 by omega, Nat.pow_add, Nat.mul_right_comm]
      _ ≤ t * 2 ^ 82 := Nat.mul_le_mul_right _ ht
  have hdifference : 2 ^ (k + 82) ≤ timestampNumber t - timestampNumber u := by
    have hdouble : 2 ^ (k + 83) = 2 ^ (k + 82) + 2 ^ (k + 82) := by
      rw [show k + 83 = k + 82 + 1 by omega, Nat.pow_succ, Nat.mul_two]
    omega
  rw [exceedsRange_iff]
  calc maxTimestampParamRange * 2 ^ 82 < 2 ^ 20 * 2 ^ 82 := by decide
    _ ≤ 2 ^ k * 2 ^ 82 := Nat.mul_le_mul_right _ (Nat.pow_le_pow_right (by decide) hk)
    _ = 2 ^ (k + 82) := (Nat.pow_add _ _ _).symm
    _ ≤ _ := le_roundNat (significant_two_pow _) hdifference

end Times

section Lookups

variable {config : CommonConfig} {chain : GrowingChain} {others : MirrorNodeClient RequestM}

private theorem run_requireFromBlock (fromBlock toBlock : Option BlockParam) (i : ℕ) :
    (requireFromBlock (growingClient chain others) fromBlock toBlock).run i =
      if blockTagIsLatestOrPending toBlock then .ok ((), i)
      else if toBlock.bind (·.toNumber) ≠ some (chain.known i).latest.number ∧
          isMissing fromBlock = true then
        .error (.jsonRpcError predefined.MISSING_FROM_BLOCK_PARAM)
      else .ok ((), i + 1) := by
  have hlatest : (getLatestBlockNumber (growingClient chain others) .head).run i =
      .ok (numberTo0x (chain.known i).latest.number, i + 1) := rfl
  unfold requireFromBlock
  split
  · rfl
  · rw [StateT.run_bind, hlatest]
    simp only [bind, Except.bind, bigIntOfHex_numberTo0x]
    split
    · rfl
    · rfl

/-- A lookup finds the block that the parameter names.  Where it finds none, the number of its
requests does not matter. -/
theorem run_getHistoricalBlockResponse (lookup : Lookup) {param : Option BlockParam}
    (hvalid : ∀ p ∈ param, p.isBlockNumber = true) (i : ℕ) : ∃ j,
      (getHistoricalBlockResponse config (growingClient chain others) lookup param).run i =
        .ok (chain.resolve config i param, j) ∧
      (chain.resolve config i param ≠ none → j = i + requestsFor param) := by
  match param with
  | none => exact ⟨_, rfl, fun _ => rfl⟩
  | some .earliest => exact ⟨_, rfl, fun _ => rfl⟩
  | some .latest => exact ⟨_, rfl, fun _ => rfl⟩
  | some .pending => exact ⟨_, rfl, fun _ => rfl⟩
  | some .safe => exact ⟨_, rfl, fun _ => rfl⟩
  | some .finalized => exact ⟨_, rfl, fun _ => rfl⟩
  | some (.hash text) => cases hvalid _ rfl
  | some (.number n) => cases hvalid _ rfl
  | some (.hex text) =>
    have hne : text ≠ EMPTY_HEX := by
      rintro rfl
      cases hvalid _ rfl
    have hrun : (getHistoricalBlockResponse config (growingClient chain others) lookup
        (some (.hex text))).run i =
        if bigIntOfHex text > (chain.known i).latest.number + config.maxBlockRange then
          .ok (none, i + 1)
        else .ok ((chain.known (i + 1)).block? (bigIntOfHex text), i + 2) := by
      simp only [getHistoricalBlockResponse, Bool.not_true, Bool.false_and, Bool.false_eq_true,
        if_false, if_neg hne]
      rw [getBlockWithinRange, StateT.run_bind]
      show (if _ then _ else _ : RequestM _).run (i + 1) = _
      split
      · rfl
      · rfl
    rw [hrun, GrowingChain.resolve]
    split
    · exact ⟨_, rfl, fun h => absurd rfl h⟩
    · exact ⟨_, rfl, fun _ => rfl⟩

private theorem isBlockNumber_latestIfTag {param : Option BlockParam}
    (h : ∀ p ∈ param, p.isBlockNumber = true) : ∀ p ∈ latestIfTag param, p.isBlockNumber = true := by
  rw [latestIfTag]
  split
  · intro p hp
    cases hp
    rfl
  · exact h

private theorem resolve_latestIfTag (i : ℕ) (param : Option BlockParam) :
    chain.resolve config i (latestIfTag param) = chain.resolve config i param := by
  match param with
  | none => rfl
  | some .earliest => rfl
  | some .latest => rfl
  | some .pending => rfl
  | some .safe => rfl
  | some .finalized => rfl
  | some (.hash text) => rfl
  | some (.number n) => rfl
  | some (.hex text) => rfl

private theorem requestsFor_latestIfTag (param : Option BlockParam) :
    requestsFor (latestIfTag param) = requestsFor param := by
  match param with
  | none => rfl
  | some .earliest => rfl
  | some .latest => rfl
  | some .pending => rfl
  | some .safe => rfl
  | some .finalized => rfl
  | some (.hash text) => rfl
  | some (.number n) => rfl
  | some (.hex text) => rfl

end Lookups

section Validation

variable {config : CommonConfig} {chain : GrowingChain} {others : MirrorNodeClient RequestM}
  {address : AddressFilter}

private theorem run_timestampRangeFrom {fromBlock toBlock : Option BlockParam}
    (hvalid : ∀ p ∈ toBlock, p.isBlockNumber = true) (first : MirrorNodeBlock) (i : ℕ) :
    (timestampRangeFrom config (growingClient chain others) fromBlock toBlock address first).run' i =
      if fromBlock = toBlock then .ok (some (first.timestampFrom, first.timestampTo))
      else (chain.resolve config i toBlock).elim (.ok none) fun last =>
        (checkRange config address first last).map fun _ =>
          some (first.timestampFrom, last.timestampTo) := by
  unfold timestampRangeFrom
  split
  · rfl
  · obtain ⟨j, hrun, _⟩ := @run_getHistoricalBlockResponse config chain others .toBlock toBlock
      hvalid i
    rw [StateT.run'_eq, StateT.run_bind, hrun]
    cases chain.resolve config i toBlock with
    | none => rfl
    | some last =>
      simp only [Option.elim_some, bind, Except.bind]
      cases checkRange config address first last <;> rfl

theorem checkRange_eq_ok_iff {first last : MirrorNodeBlock} :
    checkRange config address first last = .ok () ↔ LetThrough config address first last := by
  unfold checkRange
  split
  · next hlong => exact iff_of_false nofun fun h => h.time hlong
  · next hshort =>
    split
    · next hreversed => exact iff_of_false nofun fun h => absurd h.ordered hreversed.not_ge
    · next hordered =>
      split
      · next hlarge =>
        refine iff_of_false nofun fun h => ?_
        rcases h.blocks with hblocks | hsingle
        · exact absurd hblocks hlarge.2.not_ge
        · exact hlarge.1 hsingle
      · next hblocks =>
        refine iff_of_true rfl ⟨⟨not_lt.mp hordered, ?_⟩, hshort⟩
        by_cases hsingle : address.isSingleAddress = true
        · exact .inr hsingle
        · exact .inl (not_lt.mp fun hlarge => hblocks ⟨hsingle, hlarge⟩)

/-- The check is right about a range within the other limits if it is about the time. -/
theorem letThrough_iff_allowed {first last : MirrorNodeBlock}
    (hlimits : InLimits config address first last) :
    (LetThrough config address first last ↔ Allowed config address first last) ↔
      (ExceedsRange last.timestampTo first.timestampFrom ↔
        first.timestampFrom + sevenDays < last.timestampTo) := by
  have hthrough : LetThrough config address first last ↔
      ¬ExceedsRange last.timestampTo first.timestampFrom := ⟨fun h => h.time, fun h => ⟨hlimits, h⟩⟩
  have hallowed : Allowed config address first last ↔
      ¬first.timestampFrom + sevenDays < last.timestampTo :=
    ⟨fun h => not_lt.mpr h.time, fun h => ⟨hlimits, not_lt.mp h⟩⟩
  rw [hthrough, hallowed, not_iff_not]

namespace RangeParams

variable (params : RangeParams)

private theorem isMissing_iff : isMissing params.fromBlock = true ↔ params.fromBlock = none := by
  have hvalid := params.fromValid
  generalize params.fromBlock = param at hvalid
  match param with
  | none => simp [isMissing]
  | some (.number n) => cases hvalid _ rfl
  | some .earliest | some .latest | some .pending | some .safe | some .finalized
  | some (.hex _) | some (.hash _) => simp [isMissing]

private theorem run_requireFromBlock_params :
    (requireFromBlock (growingClient chain others) params.fromBlock params.toBlock).run 0 =
      if params.Refused chain then .error (.jsonRpcError predefined.MISSING_FROM_BLOCK_PARAM)
      else .ok ((), params.fromRequest) := by
  rw [run_requireFromBlock, fromRequest]
  cases htag : blockTagIsLatestOrPending params.toBlock with
  | true =>
    have hrefused : ¬params.Refused chain := fun h => absurd (htag.symm.trans h.2.1) (by decide)
    rw [if_neg hrefused]
    rfl
  | false =>
    have hrefused : params.toBlock.bind (·.toNumber) ≠ some (chain.known 0).latest.number ∧
        isMissing params.fromBlock = true ↔ params.Refused chain := by
      rw [Refused, params.isMissing_iff, htag]
      simp [and_comm]
    rw [if_neg Bool.false_ne_true]
    exact if_congr hrefused rfl rfl

private theorem validatedRange_eq : params.validatedRange config chain others address =
    if params.Refused chain then .error (.jsonRpcError predefined.MISSING_FROM_BLOCK_PARAM)
    else (params.firstBlock config chain).elim (.ok none) fun first =>
      if params.Same then .ok (some (first.timestampFrom, first.timestampTo))
      else (chain.resolve config params.toRequest params.toBlock).elim (.ok none) fun last =>
        (checkRange config address first last).map fun _ =>
          some (first.timestampFrom, last.timestampTo) := by
  rw [validatedRange, validateBlockRangeAndAddTimestampToParams, StateT.run'_eq, StateT.run_bind,
    run_requireFromBlock_params]
  by_cases hrefused : params.Refused chain
  · rw [if_pos hrefused, if_pos hrefused]
    rfl
  · have hbind {α β : Type} (a : α) (f : α → Except RelayError β) :
        (Except.ok a >>= f) = f a := rfl
    obtain ⟨j, hrun, hj⟩ := @run_getHistoricalBlockResponse config chain others .fromBlock _
      (isBlockNumber_latestIfTag params.fromValid) params.fromRequest
    rw [if_neg hrefused, if_neg hrefused, firstBlock]
    rw [resolve_latestIfTag, requestsFor_latestIfTag] at *
    rw [hbind, StateT.run_bind, hrun]
    cases hfirst : chain.resolve config params.fromRequest params.fromBlock with
    | none => rfl
    | some first =>
      rw [hfirst] at hj
      rw [hj nofun]
      have hrange := @run_timestampRangeFrom config chain others address
        (latestIfTag params.fromBlock) _ (isBlockNumber_latestIfTag params.toValid) first
        params.toRequest
      rw [resolve_latestIfTag] at hrange
      exact hrange

end RangeParams

end Validation

section Earliest

variable {known : KnownBlocks} {chain : GrowingChain}

theorem KnownBlocks.number_of_block? {n : ℕ} {b : MirrorNodeBlock} (h : known.block? n = some b) :
    b.number = n := by
  rw [block?] at h
  have hfound := List.find?_some h
  exact of_decide_eq_true hfound

private theorem KnownBlocks.blocks_of_number_latest (h : known.latest.number = 0) :
    known.blocks = [known.latest] := by
  have hsplit := List.dropLast_append_getLast known.nonempty
  have hincreasing := known.increasing
  rw [← hsplit, List.pairwise_append] at hincreasing
  have hnil : known.blocks.dropLast = [] := by
    apply List.eq_nil_iff_forall_not_mem.mpr
    intro b hb
    have hlt := (hincreasing.2.2 b hb _ List.mem_cons_self).1
    rw [latest] at h
    omega
  rw [hnil] at hsplit
  exact hsplit.symm

private theorem GrowingChain.number_latest_of_next {i : ℕ}
    (h : (chain.known (i + 1)).latest.number = 0) :
    (chain.known i).latest.number = 0 := by
  have hblocks := KnownBlocks.blocks_of_number_latest h
  have hprefix := chain.grows i
  rw [hblocks] at hprefix
  have hmem := hprefix.subset (List.getLast_mem (chain.known i).nonempty)
  rw [KnownBlocks.latest, List.mem_singleton.mp hmem, h]

private theorem GrowingChain.block?_of_number_latest {i : ℕ}
    (h : (chain.known i).latest.number = 0) :
    (chain.known (i + 1)).block? 0 = some (chain.known i).latest := by
  have hblocks := KnownBlocks.blocks_of_number_latest h
  obtain ⟨further, hfurther⟩ := chain.grows i
  rw [KnownBlocks.block?, ← hfurther, hblocks]
  exact List.find?_cons_of_pos (decide_eq_true h)

end Earliest

namespace RangeParams

section Cases

variable {config : CommonConfig} {chain : GrowingChain} {others : MirrorNodeClient RequestM}
  {address : AddressFilter} {params : RangeParams} {range : Timestamp × Timestamp}

private theorem allowed_self_iff {block : MirrorNodeBlock} : Allowed config address block block ↔
    block.timestampTo - block.timestampFrom ≤ sevenDays := by
  constructor
  · exact fun h => Nat.sub_le_iff_le_add'.mpr h.time
  · intro h
    exact ⟨⟨le_rfl, .inl (by omega)⟩, Nat.sub_le_iff_le_add'.mp h⟩

theorem LacksLowerBound.refused (h : params.LacksLowerBound chain) : params.Refused chain := by
  obtain ⟨hfrom, htag, hnumber⟩ := h
  refine ⟨hfrom, htag, fun hhead => hnumber ?_⟩
  rw [toNumber]
  cases hto : params.toBlock with
  | none =>
    rw [hto] at hhead
    cases hhead
  | some param =>
    rw [hto, Option.bind_some] at hhead
    have hne : param ≠ .earliest := by
      rintro rfl
      cases hhead
    rw [Option.bind_some, if_neg hne, hhead]

private theorem Refused.lacks_or_earliest (h : params.Refused chain) :
    params.LacksLowerBound chain ∨
    params.toBlock = some .earliest ∧ (chain.known 0).latest.number = 0 := by
  obtain ⟨hfrom, htag, hnumber⟩ := h
  by_cases hhead : params.toNumber = some (chain.known 0).latest.number
  · right
    rw [toNumber] at hhead
    cases hto : params.toBlock with
    | none =>
      rw [hto] at hhead
      cases hhead
    | some param =>
      rw [hto, Option.bind_some] at hhead hnumber
      by_cases hearliest : param = .earliest
      · rw [if_pos hearliest] at hhead
        exact ⟨congrArg some hearliest, (Option.some.inj hhead).symm⟩
      · rw [if_neg hearliest] at hhead
        exact absurd hhead hnumber
  · exact .inl ⟨hfrom, htag, hhead⟩

private theorem Same.not_refused (h : params.Same) : ¬params.Refused chain := by
  rintro ⟨hfrom, htag, _⟩
  rw [Same, hfrom, latestIfTag, latestIfTag, htag, if_neg Bool.false_ne_true] at h
  rw [← h] at htag
  cases htag

private theorem exists_spans_iff_onlyEarliest (hfrom : params.fromBlock = none)
    (hto : params.toBlock = some .earliest) (hhead : (chain.known 0).latest.number = 0) :
    (∃ range, params.Spans config chain address range) ↔ params.OnlyEarliest chain := by
  have hsame : ¬params.Same := by
    rw [Same, hfrom, hto]
    decide
  have hfirst : params.firstBlock config chain = some (chain.known 1).latest := by
    rw [firstBlock, fromRequest, hto, hfrom]
    rfl
  have hlast : params.lastBlock config chain = (chain.known 2).block? 0 := by
    rw [lastBlock, if_neg hsame, toRequest, fromRequest, hto, hfrom]
    rfl
  have hbounded : ¬params.LacksLowerBound chain := by
    rintro ⟨_, _, hnumber⟩
    rw [toNumber, hto, hhead] at hnumber
    exact hnumber rfl
  constructor
  · rintro ⟨range, _, first, last, hfirst', hlast', hallowed, _⟩
    obtain rfl : (chain.known 1).latest = first := Option.some.inj (hfirst.symm.trans hfirst')
    rw [hlast] at hlast'
    have hzero := KnownBlocks.number_of_block? hlast'
    have hnumber : (chain.known 1).latest.number = 0 := Nat.le_zero.mp (hzero ▸ hallowed.ordered)
    rw [GrowingChain.block?_of_number_latest hnumber] at hlast'
    rw [← Option.some.inj hlast'] at hallowed
    exact ⟨hfrom, hto, hnumber, allowed_self_iff.mp hallowed⟩
  · rintro ⟨_, _, hnumber, hshort⟩
    exact ⟨_, hbounded, _, _, hfirst, hlast.trans (GrowingChain.block?_of_number_latest hnumber),
      allowed_self_iff.mpr hshort, rfl⟩

private theorem validatedRange_of_same (hsame : params.Same) :
    params.validatedRange config chain others address = .ok (some range) ↔
      ∃ block, params.firstBlock config chain = some block ∧
        range = (block.timestampFrom, block.timestampTo) := by
  rw [validatedRange_eq, if_neg hsame.not_refused]
  cases params.firstBlock config chain with
  | none => simp
  | some block => simp [hsame, eq_comm]

private theorem validatedRange_of_not_same (hsame : ¬params.Same)
    (hrefused : ¬params.Refused chain) :
    params.validatedRange config chain others address = .ok (some range) ↔
      ∃ first last, params.firstBlock config chain = some first ∧
        params.lastBlock config chain = some last ∧ LetThrough config address first last ∧
        range = (first.timestampFrom, last.timestampTo) := by
  have hlast : params.lastBlock config chain =
      chain.resolve config params.toRequest params.toBlock := if_neg hsame
  rw [validatedRange_eq, if_neg hrefused, hlast]
  cases params.firstBlock config chain with
  | none => simp
  | some first =>
    rw [Option.elim_some, if_neg hsame]
    cases chain.resolve config params.toRequest params.toBlock with
    | none => simp
    | some last =>
      simp only [Option.elim_some, Option.some.injEq, exists_and_left, exists_eq_left',
        ← checkRange_eq_ok_iff]
      cases checkRange config address first last with
      | error e => simp [Except.map]
      | ok _ => simp [Except.map, eq_comm]

/-- Two blocks are judged rightly unless their time is misjudged. -/
theorem checksRange_of_not_same (hsame : ¬params.Same) (hrefused : ¬params.Refused chain) :
    params.ChecksRange config chain others address ↔
      ¬params.MisjudgedTime config chain address := by
  have hspans (range : Timestamp × Timestamp) : params.Spans config chain address range ↔
      ∃ first last, params.firstBlock config chain = some first ∧
        params.lastBlock config chain = some last ∧ Allowed config address first last ∧
        range = (first.timestampFrom, last.timestampTo) :=
    ⟨fun h => h.blocks, fun h => ⟨fun hlacks => hrefused hlacks.refused, h⟩⟩
  constructor
  · rintro h ⟨_, _, first, last, hfirst, hlast, hlimits, hwrong⟩
    apply hwrong
    rw [← letThrough_iff_allowed hlimits]
    have hvalidates := h.validates (first.timestampFrom, last.timestampTo)
    rw [validatedRange_of_not_same hsame hrefused, hspans] at hvalidates
    have hthis {P : MirrorNodeBlock → MirrorNodeBlock → Prop} :
        (∃ first' last', params.firstBlock config chain = some first' ∧
          params.lastBlock config chain = some last' ∧ P first' last' ∧
          (first.timestampFrom, last.timestampTo) = (first'.timestampFrom, last'.timestampTo)) ↔
          P first last := by
      constructor
      · rintro ⟨first', last', hfirst', hlast', hp, _⟩
        rwa [Option.some.inj (hfirst.symm.trans hfirst'),
          Option.some.inj (hlast.symm.trans hlast')]
      · exact fun hp => ⟨first, last, hfirst, hlast, hp, rfl⟩
    rwa [hthis, hthis] at hvalidates
  · intro hright
    refine ⟨fun range => ?_, fun h => absurd h.refused hrefused⟩
    rw [validatedRange_of_not_same hsame hrefused, hspans]
    refine exists_congr fun first => exists_congr fun last => and_congr_right fun hfirst =>
      and_congr_right fun hlast => and_congr_left fun _ => ?_
    by_cases hlimits : InLimits config address first last
    · refine (letThrough_iff_allowed hlimits).mpr (by_contra fun hwrong => hright ?_)
      exact ⟨hsame, hrefused, first, last, hfirst, hlast, hlimits, hwrong⟩
    · exact iff_of_false (fun h => hlimits h.toInLimits) fun h => hlimits h.toInLimits

private theorem validatedRange_of_refused (hrefused : params.Refused chain) :
    params.validatedRange config chain others address =
      .error (.jsonRpcError predefined.MISSING_FROM_BLOCK_PARAM) := by
  rw [validatedRange_eq, if_pos hrefused]

/-- A refused range is refused rightly unless it goes up to the very first block of a chain that has
no other. -/
theorem checksRange_of_refused (hrefused : params.Refused chain) :
    params.ChecksRange config chain others address ↔ ¬params.OnlyEarliest chain := by
  have hthrown := @validatedRange_of_refused config chain others address params hrefused
  have hspans : params.ChecksRange config chain others address ↔
      ¬∃ range, params.Spans config chain address range := by
    constructor
    · intro h ⟨range, hrange⟩
      have hok := (h.validates range).mpr hrange
      rw [hthrown] at hok
      cases hok
    · intro h
      refine ⟨fun range => ?_, fun _ => hthrown⟩
      rw [hthrown]
      exact iff_of_false nofun fun hrange => h ⟨range, hrange⟩
  rw [hspans, not_iff_not]
  rcases hrefused.lacks_or_earliest with hlacks | ⟨hto, hhead⟩
  · refine iff_of_false ?_ ?_
    · intro ⟨range, hrange⟩
      exact hrange.bounded hlacks
    · intro ⟨hfrom, hto, hnumber, _⟩
      apply hlacks.2.2
      rw [toNumber, hto, GrowingChain.number_latest_of_next hnumber]
      rfl
  · exact exists_spans_iff_onlyEarliest hrefused.1 hto hhead

/-- A block that is named twice is not looked at for its own length. -/
theorem checksRange_of_same (hsame : params.Same) :
    params.ChecksRange config chain others address ↔ ¬params.LongBlock config chain := by
  have hlast : params.lastBlock config chain = params.firstBlock config chain := if_pos hsame
  constructor
  · intro h ⟨_, block, hblock, hlong⟩
    have hrange := (h.validates _).mp ((validatedRange_of_same hsame).mpr ⟨block, hblock, rfl⟩)
    obtain ⟨first, last, hfirst, hlast', hallowed, _⟩ := hrange.blocks
    rw [hlast, hfirst] at hlast'
    rw [hfirst] at hblock
    cases hlast'
    cases hblock
    exact absurd (allowed_self_iff.mp hallowed) hlong.not_ge
  · intro hshort
    refine ⟨fun range => ?_, fun h => absurd h.refused hsame.not_refused⟩
    rw [validatedRange_of_same hsame]
    constructor
    · intro ⟨block, hblock, hrange⟩
      refine ⟨fun h => hsame.not_refused h.refused, block, block, hblock, hlast.trans hblock, ?_,
        hrange⟩
      exact allowed_self_iff.mpr (not_lt.mp fun hlong => hshort ⟨hsame, block, hblock, hlong⟩)
    · intro ⟨_, first, last, hfirst, hlast', _, hrange⟩
      rw [hlast, hfirst] at hlast'
      cases hlast'
      exact ⟨first, hfirst, hrange⟩

end Cases

/-- Exactly the allowed ranges are validated unless the range is a single block that lasts for more
than seven days, or goes up to the very first block by its tag where there is no other, or its time
is misjudged as the difference of two doubles. -/
theorem checks_range_iff (config : CommonConfig) (chain : GrowingChain)
    (others : MirrorNodeClient RequestM) (params : RangeParams) (address : AddressFilter) :
    params.ChecksRange config chain others address ↔
      ¬params.LongBlock config chain ∧ ¬params.OnlyEarliest chain ∧
        ¬params.MisjudgedTime config chain address := by
  by_cases hrefused : params.Refused chain
  · have hlong : ¬params.LongBlock config chain := fun h => h.1.not_refused hrefused
    have hjudged : ¬params.MisjudgedTime config chain address := fun h => h.2.1 hrefused
    rw [and_iff_right hlong, and_iff_left hjudged, checksRange_of_refused hrefused]
  · have hearliest : ¬params.OnlyEarliest chain := by
      intro ⟨hfrom, hto, _⟩
      apply hrefused
      rw [Refused, hfrom, hto]
      exact ⟨rfl, rfl, nofun⟩
    rw [and_iff_right hearliest]
    by_cases hsame : params.Same
    · have hjudged : ¬params.MisjudgedTime config chain address := fun h => h.1 hsame
      rw [and_iff_left hjudged, checksRange_of_same hsame]
    · have hlong : ¬params.LongBlock config chain := fun h => hsame h.1
      rw [and_iff_right hlong, checksRange_of_not_same hsame hrefused]

end RangeParams

section Failures

/-- A chain of one block that does not grow. -/
def oneBlock (duration : ℕ) : GrowingChain where
  known _ :=
    { blocks :=
        [{ count := 0, gasUsed := 0, hash := "0x", logsBloom := "0x", number := 0
           previousHash := "0x", size := none, timestampFrom := 1696438000 * 10 ^ 9
           timestampTo := 1696438000 * 10 ^ 9 + duration }]
      nonempty := by simp
      increasing := List.pairwise_singleton _ _
      spans b hb := by
        rw [List.mem_singleton.mp hb]
        exact Nat.le_add_right _ _ }
  grows _ := List.prefix_rfl

def noOthers : MirrorNodeClient RequestM where
  getLatestBlock _ := return none
  getBlock _ _ := return none
  getLogs _ _ := return []

def firstBlockOnly : RangeParams where
  fromBlock := some (.hex "0x0")
  toBlock := some (.hex "0x0")
  fromValid param h := by cases h; decide
  toValid param h := by cases h; decide

private theorem valid_of_omitted :
    ∀ param ∈ (none : Option BlockParam), param.isBlockNumber = true := nofun

def upToEarliest : RangeParams where
  fromBlock := none
  toBlock := some .earliest
  fromValid := valid_of_omitted
  toValid param h := by cases h; decide

/-- Two blocks that last for seven days and a nanosecond together. -/
def sevenDaysAndMore : GrowingChain where
  known _ :=
    { blocks :=
        [{ count := 0, gasUsed := 0, hash := "0x", logsBloom := "0x", number := 0
           previousHash := "0x", size := none, timestampFrom := 1696438000 * 10 ^ 9
           timestampTo := 1696438002 * 10 ^ 9 - 1 },
         { count := 0, gasUsed := 0, hash := "0x", logsBloom := "0x", number := 1
           previousHash := "0x", size := none, timestampFrom := 1696438002 * 10 ^ 9
           timestampTo := 1696438000 * 10 ^ 9 + sevenDays + 1 }]
      nonempty := by simp
      increasing := by simp
      spans := by
        intro b hb
        simp only [List.mem_cons, List.not_mem_nil, or_false] at hb
        rcases hb with rfl | rfl
        · decide
        · decide }
  grows _ := List.prefix_rfl

def bothBlocks : RangeParams where
  fromBlock := some (.hex "0x0")
  toBlock := some (.hex "0x1")
  fromValid param h := by cases h; decide
  toValid param h := by cases h; decide

/-- A block of eight days is validated, the only block of a chain is refused by its tag, and a
nanosecond more than seven days is lost in the rounding. -/
theorem long_block_validated_earliest_refused :
    ¬firstBlockOnly.ChecksRange {} (oneBlock (691200 * 10 ^ 9)) noOthers .none ∧
      ¬upToEarliest.ChecksRange {} (oneBlock (2 * 10 ^ 9)) noOthers .none ∧
      ¬bothBlocks.ChecksRange {} sevenDaysAndMore noOthers .none := by
  refine ⟨?_, ?_, ?_⟩
  · intro h
    have hsame : firstBlockOnly.Same := rfl
    have hrange := (h.validates _).mp ((RangeParams.validatedRange_of_same hsame).mpr ⟨_, rfl, rfl⟩)
    obtain ⟨first, last, hfirst, hlast, hallowed, _⟩ := hrange.blocks
    cases hfirst
    cases hlast
    exact absurd (RangeParams.allowed_self_iff.mp hallowed) (by decide)
  · intro h
    have honly : upToEarliest.OnlyEarliest (oneBlock (2 * 10 ^ 9)) := ⟨rfl, rfl, rfl, by decide⟩
    obtain ⟨range, hrange⟩ := (RangeParams.exists_spans_iff_onlyEarliest rfl rfl rfl).mpr honly
    have hok := (h.validates range).mpr hrange
    rw [RangeParams.validatedRange_eq, if_pos (by decide)] at hok
    cases hok
  · have hsame : ¬bothBlocks.Same := by decide
    have hrefused : ¬bothBlocks.Refused sevenDaysAndMore := nofun
    rw [RangeParams.checksRange_of_not_same hsame hrefused, not_not]
    refine ⟨hsame, hrefused, _, _, rfl, rfl, ⟨by decide, .inl (by decide)⟩, fun h => ?_⟩
    exact absurd (h.mpr (by decide)) (by decide +kernel)

end Failures

end JsonRpcRelay.Common
