import JsonRpcRelay.Mirror.Records
import Mathlib.Data.List.Infix

/-!
# The chain behind the mirror node

A chain is a list of blocks with their logs that grows at its end.  The block with number `n`
is the `n`-th one, the blocks follow each other in time, and a log lies within its block.
-/

namespace JsonRpcRelay.Mirror

structure ChainBlock where
  block : MirrorNodeBlock
  logs : List MirrorNodeLog
  deriving DecidableEq

def ChainBlock.Holds (b : ChainBlock) (log : MirrorNodeLog) : Prop :=
  log.blockNumber = b.block.number ∧ b.block.timestampFrom ≤ log.timestamp ∧
    log.timestamp ≤ b.block.timestampTo

instance (b : ChainBlock) (log : MirrorNodeLog) : Decidable (b.Holds log) :=
  inferInstanceAs (Decidable (_ ∧ _ ∧ _))

structure Chain where
  blocks : List ChainBlock
  nonempty : blocks ≠ []
  numbered : ∀ (n : ℕ) (b : ChainBlock), blocks[n]? = some b → b.block.number = n
  ordered : blocks.Pairwise fun a b : ChainBlock => a.block.timestampTo < b.block.timestampFrom
  spans : ∀ b : ChainBlock, b ∈ blocks → b.block.timestampFrom ≤ b.block.timestampTo
  holds : ∀ b : ChainBlock, b ∈ blocks → ∀ log ∈ b.logs, b.Holds log
  logsOrdered : ∀ b : ChainBlock, b ∈ blocks →
    b.logs.Pairwise fun l l' : MirrorNodeLog => l.timestamp ≤ l'.timestamp

namespace Chain

/-- The chain of the first block. -/
def single (b : ChainBlock) (hnumber : b.block.number = 0)
    (hspan : b.block.timestampFrom ≤ b.block.timestampTo) (hlogs : b.logs = []) : Chain where
  blocks := [b]
  nonempty := by simp
  numbered n c hc := by
    cases n with
    | zero => cases hc; exact hnumber
    | succ n => cases hc
  ordered := List.pairwise_singleton _ _
  spans c hc := by rw [List.mem_singleton.mp hc]; exact hspan
  holds c hc := by rw [List.mem_singleton.mp hc, hlogs]; simp
  logsOrdered c hc := by rw [List.mem_singleton.mp hc, hlogs]; exact List.Pairwise.nil

section Queries

variable (chain : Chain)

/-- The number of the last block. -/
def head : ℕ := chain.blocks.length - 1

def latest : MirrorNodeBlock := (chain.blocks.getLast chain.nonempty).block

def block? (n : ℕ) : Option MirrorNodeBlock := chain.blocks[n]?.map (·.block)

def logsAt (n : ℕ) : List MirrorNodeLog := chain.blocks[n]?.elim [] (·.logs)

def logs : List MirrorNodeLog := chain.blocks.flatMap (·.logs)

/-- The logs within a range of timestamps, oldest first. -/
def logsBetween (start stop : Timestamp) : List MirrorNodeLog :=
  chain.logs.filter fun log => start ≤ log.timestamp ∧ log.timestamp ≤ stop

/-- The blocks behind a number, oldest first. -/
def blocksAfter (n : ℕ) : List MirrorNodeBlock := (chain.blocks.drop (n + 1)).map (·.block)

/-- The blocks behind the number `m` up to `n`. -/
def blocksBetween (m n : ℕ) : List MirrorNodeBlock := (chain.blocksAfter m).take (n - m)

end Queries

section Blocks

variable {chain : Chain} {n : ℕ}

private theorem length_pos (chain : Chain) : 0 < chain.blocks.length :=
  List.length_pos_iff.mpr chain.nonempty

theorem length_eq (chain : Chain) : chain.blocks.length = chain.head + 1 := by
  have := chain.length_pos
  rw [head]
  omega

private theorem getElem?_head (chain : Chain) :
    chain.blocks[chain.head]? = some (chain.blocks.getLast chain.nonempty) := by
  rw [head, ← List.getLast?_eq_getElem?, List.getLast?_eq_some_getLast chain.nonempty]

theorem block?_head (chain : Chain) : chain.block? chain.head = some chain.latest := by
  rw [block?, getElem?_head]
  rfl

@[simp] theorem number_latest (chain : Chain) : chain.latest.number = chain.head :=
  chain.numbered _ _ chain.getElem?_head

theorem number_of_block? {b : MirrorNodeBlock} (h : chain.block? n = some b) : b.number = n := by
  obtain ⟨cb, hcb, rfl⟩ := Option.map_eq_some_iff.mp h
  exact chain.numbered n cb hcb

theorem exists_block?_iff : (∃ b, chain.block? n = some b) ↔ n ≤ chain.head := by
  rw [← Option.isSome_iff_exists, block?, Option.isSome_map, isSome_getElem?, length_eq]
  omega

theorem block?_eq_none_iff : chain.block? n = none ↔ chain.head < n := by
  rw [block?, Option.map_eq_none_iff, List.getElem?_eq_none_iff, length_eq]
  omega

theorem mem_logsAt {log : MirrorNodeLog} :
    log ∈ chain.logsAt n ↔ ∃ b, chain.blocks[n]? = some b ∧ log ∈ b.logs := by
  rw [logsAt]
  cases chain.blocks[n]? with
  | none => simp
  | some b => simp

theorem mem_logs {log : MirrorNodeLog} : log ∈ chain.logs ↔ ∃ n, log ∈ chain.logsAt n := by
  rw [logs, List.mem_flatMap]
  constructor
  · rintro ⟨b, hb, hlog⟩
    obtain ⟨n, hn⟩ := List.getElem?_of_mem hb
    exact ⟨n, mem_logsAt.mpr ⟨b, hn, hlog⟩⟩
  · rintro ⟨n, hlog⟩
    obtain ⟨b, hn, hlog⟩ := mem_logsAt.mp hlog
    exact ⟨b, List.mem_of_getElem? hn, hlog⟩

theorem blockNumber_of_mem_logsAt {log : MirrorNodeLog} (h : log ∈ chain.logsAt n) :
    log.blockNumber = n := by
  obtain ⟨b, hn, hlog⟩ := mem_logsAt.mp h
  rw [(chain.holds b (List.mem_of_getElem? hn) log hlog).1]
  exact chain.numbered n b hn

theorem le_head_of_mem_logsAt {log : MirrorNodeLog} (h : log ∈ chain.logsAt n) :
    n ≤ chain.head := by
  obtain ⟨b, hn, _⟩ := mem_logsAt.mp h
  exact exists_block?_iff.mp ⟨b.block, by rw [block?, hn]; rfl⟩

section Ranges

variable {m : ℕ} {b : MirrorNodeBlock}

private theorem length_blocksAfter (chain : Chain) (n : ℕ) :
    (chain.blocksAfter n).length = chain.head - n := by
  rw [blocksAfter, List.length_map, List.length_drop, length_eq]
  omega

private theorem getElem?_blocksAfter (chain : Chain) (n i : ℕ) :
    (chain.blocksAfter n)[i]? = chain.block? (n + 1 + i) := by
  rw [blocksAfter, List.getElem?_map, List.getElem?_drop, block?]

@[simp] theorem blocksBetween_self (chain : Chain) (n : ℕ) : chain.blocksBetween n n = [] := by
  rw [blocksBetween, Nat.sub_self, List.take_zero]

theorem blocksBetween_append (chain : Chain) {a b c : ℕ} (hab : a ≤ b) (hbc : b ≤ c) :
    chain.blocksBetween a b ++ chain.blocksBetween b c = chain.blocksBetween a c := by
  have hdrop : chain.blocksAfter b = (chain.blocksAfter a).drop (b - a) := by
    rw [blocksAfter, blocksAfter, ← List.map_drop, List.drop_drop]
    congr 2
    omega
  rw [blocksBetween, blocksBetween, blocksBetween, hdrop, ← List.take_add]
  congr 1
  omega

theorem take_blocksAfter_of_getLast? {k : ℕ}
    (h : ((chain.blocksAfter m).take k).getLast? = some b) :
    (chain.blocksAfter m).take k = chain.blocksBetween m b.number ∧ m < b.number ∧
      b.number ≤ chain.head := by
  rw [List.getLast?_eq_getElem?, List.length_take, List.getElem?_take, length_blocksAfter] at h
  split at h
  · rename_i hlt
    rw [getElem?_blocksAfter] at h
    have hnumber := number_of_block? h
    have hhead := exists_block?_iff.mp ⟨b, h⟩
    refine ⟨?_, by omega, by omega⟩
    rw [blocksBetween, List.take_eq_take_iff, length_blocksAfter]
    omega
  · cases h

end Ranges

end Blocks

section Time

variable {chain : Chain} {m n : ℕ} {a b : MirrorNodeBlock}

/-- A later block starts after the end of an earlier one. -/
theorem timestampTo_lt (hmn : m < n) (ha : chain.block? m = some a) (hb : chain.block? n = some b) :
    a.timestampTo < b.timestampFrom := by
  obtain ⟨ca, hca, rfl⟩ := Option.map_eq_some_iff.mp ha
  obtain ⟨cb, hcb, rfl⟩ := Option.map_eq_some_iff.mp hb
  obtain ⟨hm, rfl⟩ := List.getElem?_eq_some_iff.mp hca
  obtain ⟨hn, rfl⟩ := List.getElem?_eq_some_iff.mp hcb
  exact List.pairwise_iff_getElem.mp chain.ordered m n hm hn hmn

theorem timestampFrom_le_to (ha : chain.block? m = some a) : a.timestampFrom ≤ a.timestampTo := by
  obtain ⟨ca, hca, rfl⟩ := Option.map_eq_some_iff.mp ha
  exact chain.spans ca (List.mem_of_getElem? hca)

theorem timestampFrom_mono (hmn : m ≤ n) (ha : chain.block? m = some a)
    (hb : chain.block? n = some b) : a.timestampFrom ≤ b.timestampFrom := by
  rcases hmn.eq_or_lt with rfl | hlt
  · rw [ha] at hb
    rw [Option.some.inj hb]
  · exact (timestampFrom_le_to ha).trans (timestampTo_lt hlt ha hb).le

theorem timestampTo_mono (hmn : m ≤ n) (ha : chain.block? m = some a)
    (hb : chain.block? n = some b) : a.timestampTo ≤ b.timestampTo := by
  rcases hmn.eq_or_lt with rfl | hlt
  · rw [ha] at hb
    rw [Option.some.inj hb]
  · exact (timestampTo_lt hlt ha hb).le.trans (timestampFrom_le_to hb)

private theorem timestamp_of_mem_logsAt {log : MirrorNodeLog} (h : log ∈ chain.logsAt n) :
    ∃ b, chain.block? n = some b ∧ b.timestampFrom ≤ log.timestamp ∧
      log.timestamp ≤ b.timestampTo := by
  obtain ⟨b, hn, hlog⟩ := mem_logsAt.mp h
  exact ⟨b.block, by rw [block?, hn]; rfl, (chain.holds b (List.mem_of_getElem? hn) log hlog).2⟩

/-- The range from the start of one block to the end of another has the logs of the blocks
between them. -/
theorem mem_logsBetween_iff {log : MirrorNodeLog} (ha : chain.block? m = some a)
    (hb : chain.block? n = some b) :
    log ∈ chain.logsBetween a.timestampFrom b.timestampTo ↔
      ∃ k, m ≤ k ∧ k ≤ n ∧ log ∈ chain.logsAt k := by
  rw [logsBetween, List.mem_filter, mem_logs]
  simp only [decide_eq_true_eq]
  constructor
  · rintro ⟨⟨k, hlog⟩, hstart, hstop⟩
    obtain ⟨c, hc, hfrom, hto⟩ := timestamp_of_mem_logsAt hlog
    refine ⟨k, ?_, ?_, hlog⟩
    · by_contra hlt
      have hbefore := timestampTo_lt (Nat.lt_of_not_le hlt) hc ha
      exact (hto.trans_lt hbefore).not_ge hstart
    · by_contra hlt
      have hafter := timestampTo_lt (Nat.lt_of_not_le hlt) hb hc
      exact (hafter.trans_le hfrom).not_ge hstop
  · rintro ⟨k, hmk, hkn, hlog⟩
    obtain ⟨c, hc, hfrom, hto⟩ := timestamp_of_mem_logsAt hlog
    exact ⟨⟨k, hlog⟩, (timestampFrom_mono hmk ha hc).trans hfrom,
      hto.trans (timestampTo_mono hkn hc hb)⟩

/-- Logs that are not later are in no later block. -/
theorem number_le_of_timestamp_le {log log' : MirrorNodeLog} (h : log ∈ chain.logsAt m)
    (h' : log' ∈ chain.logsAt n) (hle : log.timestamp ≤ log'.timestamp) : m ≤ n := by
  obtain ⟨c, hc, hfrom, _⟩ := timestamp_of_mem_logsAt h
  obtain ⟨c', hc', _, hto⟩ := timestamp_of_mem_logsAt h'
  by_contra hlt
  have hbefore := timestampTo_lt (Nat.lt_of_not_le hlt) hc' hc
  exact (hbefore.trans_le (hfrom.trans hle)).not_ge hto

theorem pairwise_logsBetween (start stop : Timestamp) :
    (chain.logsBetween start stop).Pairwise fun l l' => l.timestamp ≤ l'.timestamp := by
  apply List.Pairwise.filter
  apply List.pairwise_flatMap.mpr
  refine ⟨chain.logsOrdered, ?_⟩
  apply chain.ordered.imp_of_mem
  intro c d hc hd hcd l hl l' hl'
  have hbefore := (chain.holds c hc l hl).2.2
  have hafter := (chain.holds d hd l' hl').2.1
  exact hbefore.trans (hcd.le.trans hafter)

end Time

section Growth

/-- The second chain has more blocks at its end. -/
def Extends (s t : Chain) : Prop := s.blocks <+: t.blocks

variable {s t : Chain} {n : ℕ}

@[refl] theorem Extends.refl (s : Chain) : Extends s s := List.prefix_rfl

theorem Extends.trans {u : Chain} (h : Extends s t) (h' : Extends t u) : Extends s u :=
  List.IsPrefix.trans h h'

theorem Extends.head_le (h : Extends s t) : s.head ≤ t.head := by
  have hle := h.length_le
  rw [length_eq, length_eq] at hle
  omega

private theorem Extends.getElem?_eq (h : Extends s t) (hn : n ≤ s.head) :
    t.blocks[n]? = s.blocks[n]? := by
  have hlt : n < s.blocks.length := by
    rw [length_eq]
    omega
  rw [List.getElem?_eq_getElem hlt, List.prefix_iff_getElem?.mp h n hlt]

theorem Extends.block?_eq (h : Extends s t) (hn : n ≤ s.head) : t.block? n = s.block? n := by
  rw [block?, block?, h.getElem?_eq hn]

theorem Extends.blocksBetween_eq {m : ℕ} (h : Extends s t) (hn : n ≤ s.head) :
    t.blocksBetween m n = s.blocksBetween m n := by
  apply List.ext_getElem?
  intro i
  rw [blocksBetween, blocksBetween, List.getElem?_take, List.getElem?_take]
  split
  · rw [getElem?_blocksAfter, getElem?_blocksAfter, h.block?_eq (by omega)]
  · rfl

theorem Extends.logsAt_eq (h : Extends s t) (hn : n ≤ s.head) : t.logsAt n = s.logsAt n := by
  rw [logsAt, logsAt, h.getElem?_eq hn]

/-- The logs up to the end of the chain stay the same. -/
theorem Extends.logsBetween_eq (h : Extends s t) (start : Timestamp) {stop : Timestamp}
    (hstop : stop ≤ s.latest.timestampTo) : t.logsBetween start stop = s.logsBetween start stop := by
  obtain ⟨further, hfurther⟩ := h
  have hordered := t.ordered
  rw [← hfurther, List.pairwise_append] at hordered
  have hlater : ∀ log ∈ further.flatMap (·.logs), stop < log.timestamp := by
    intro log hlog
    obtain ⟨b, hb, hlog⟩ := List.mem_flatMap.mp hlog
    have hmem : b ∈ t.blocks := by
      rw [← hfurther]
      exact List.mem_append_right _ hb
    have hbefore := hordered.2.2 _ (List.getLast_mem s.nonempty) b hb
    exact (hstop.trans_lt hbefore).trans_le (t.holds b hmem log hlog).2.1
  have hnone : (further.flatMap (·.logs)).filter
      (fun log => start ≤ log.timestamp ∧ log.timestamp ≤ stop) = [] := by
    rw [List.filter_eq_nil_iff]
    intro log hlog
    have hlt := hlater log hlog
    simp only [decide_eq_true_eq, not_and, Nat.not_le]
    exact fun _ => hlt
  rw [logsBetween, logsBetween, logs, logs, ← hfurther, List.flatMap_append, List.filter_append,
    hnone, List.append_nil]

/-- A block that follows the chain. -/
def Follows (chain : Chain) (b : ChainBlock) : Prop :=
  b.block.number = chain.blocks.length ∧ chain.latest.timestampTo < b.block.timestampFrom ∧
    b.block.timestampFrom ≤ b.block.timestampTo ∧ (∀ log ∈ b.logs, b.Holds log) ∧
    b.logs.Pairwise fun l l' => l.timestamp ≤ l'.timestamp

instance (chain : Chain) (b : ChainBlock) : Decidable (chain.Follows b) :=
  inferInstanceAs (Decidable (_ ∧ _ ∧ _ ∧ _ ∧ _))

private theorem timestampTo_le_latest (chain : Chain) {b : ChainBlock} (hb : b ∈ chain.blocks) :
    b.block.timestampTo ≤ chain.latest.timestampTo := by
  obtain ⟨n, hn⟩ := List.getElem?_of_mem hb
  have hblock : chain.block? n = some b.block := by rw [block?, hn]; rfl
  exact timestampTo_mono (exists_block?_iff.mp ⟨_, hblock⟩) hblock chain.block?_head

private theorem numbered_append (chain : Chain) (b : ChainBlock)
    (h : b.block.number = chain.blocks.length) (n : ℕ) (c : ChainBlock)
    (hc : (chain.blocks ++ [b])[n]? = some c) : c.block.number = n := by
  rcases Nat.lt_trichotomy n chain.blocks.length with hlt | heq | hgt
  · rw [List.getElem?_append_left hlt] at hc
    exact chain.numbered n c hc
  · subst heq
    rw [List.getElem?_concat_length] at hc
    rw [← Option.some.inj hc, h]
  · rw [List.getElem?_eq_none (by simp; omega)] at hc
    cases hc

/-- The chain with one more block, if the block follows it. -/
def append (chain : Chain) (b : ChainBlock) : Option Chain :=
  if h : chain.Follows b then
    some
      { blocks := chain.blocks ++ [b]
        nonempty := by simp
        numbered := numbered_append chain b h.1
        ordered := by
          apply List.pairwise_append.mpr
          refine ⟨chain.ordered, List.pairwise_singleton _ _, ?_⟩
          intro a ha c hc
          rw [List.mem_singleton.mp hc]
          exact (timestampTo_le_latest chain ha).trans_lt h.2.1
        spans := by
          intro c hc
          rcases List.mem_append.mp hc with hc | hc
          · exact chain.spans c hc
          · rw [List.mem_singleton.mp hc]
            exact h.2.2.1
        holds := by
          intro c hc
          rcases List.mem_append.mp hc with hc | hc
          · exact chain.holds c hc
          · rw [List.mem_singleton.mp hc]
            exact h.2.2.2.1
        logsOrdered := by
          intro c hc
          rcases List.mem_append.mp hc with hc | hc
          · exact chain.logsOrdered c hc
          · rw [List.mem_singleton.mp hc]
            exact h.2.2.2.2 }
  else none

theorem extends_of_append {chain chain' : Chain} {b : ChainBlock}
    (h : chain.append b = some chain') : Extends chain chain' := by
  rw [append] at h
  split at h
  · obtain rfl := Option.some.inj h
    exact List.prefix_append _ _
  · cases h

private theorem exists_append {chain : Chain} {b : ChainBlock} (h : chain.Follows b) :
    ∃ chain', chain.append b = some chain' ∧ chain'.blocks = chain.blocks ++ [b] := by
  unfold append
  rw [dif_pos h]
  exact ⟨_, rfl, rfl⟩

end Growth

section Continuation

/-- A next block that lasts for a given time and has at most one log. -/
def nextBlock (chain : Chain) (hash : String) (duration : ℕ) (log : Option MirrorNodeLog) :
    ChainBlock where
  block :=
    { count := 0, gasUsed := 0, hash, logsBloom := "0x", number := chain.head + 1
      previousHash := chain.latest.hash, size := none
      timestampFrom := chain.latest.timestampTo + 1
      timestampTo := chain.latest.timestampTo + 1 + duration }
  logs := log.toList.map fun log =>
    { log with
      blockNumber := chain.head + 1, timestamp := chain.latest.timestampTo + 1 }

variable (chain : Chain) (hash : String) (duration : ℕ) (log : Option MirrorNodeLog)

theorem logs_nextBlock (log : MirrorNodeLog) : (chain.nextBlock hash duration (some log)).logs =
    [{ log with
        blockNumber := chain.head + 1, timestamp := chain.latest.timestampTo + 1 }] := rfl

private theorem follows_nextBlock : chain.Follows (chain.nextBlock hash duration log) := by
  refine ⟨chain.length_eq.symm, Nat.lt_succ_self _, Nat.le_add_right _ _, ?_, ?_⟩
  · intro l hl
    obtain ⟨l, _, rfl⟩ := List.mem_map.mp hl
    exact ⟨rfl, Nat.le_refl _, Nat.le_add_right _ _⟩
  · cases log with
    | none => exact List.Pairwise.nil
    | some log => exact List.pairwise_singleton _ _

theorem exists_extends_nextBlock : ∃ chain' : Chain, chain.Extends chain' ∧
    chain'.head = chain.head + 1 ∧
    chain'.block? (chain.head + 1) = some (chain.nextBlock hash duration log).block ∧
    chain'.logsAt (chain.head + 1) = (chain.nextBlock hash duration log).logs ∧
    chain'.blocks = chain.blocks ++ [chain.nextBlock hash duration log] := by
  obtain ⟨chain', happend, hblocks⟩ := exists_append (chain.follows_nextBlock hash duration log)
  have hget : chain'.blocks[chain.head + 1]? = some (chain.nextBlock hash duration log) := by
    rw [hblocks, ← chain.length_eq, List.getElem?_concat_length]
  refine ⟨chain', extends_of_append happend, ?_, ?_, ?_, hblocks⟩
  · rw [head, hblocks, List.length_append, chain.length_eq]
    rfl
  · rw [block?, hget]
    rfl
  · rw [logsAt, hget]
    rfl

/-- The chain can grow up to any number. -/
theorem exists_extends_head {n : ℕ} (h : chain.head ≤ n) :
    ∃ chain' : Chain, chain.Extends chain' ∧ chain'.head = n := by
  induction n, h using Nat.le_induction with
  | base => exact ⟨chain, Extends.refl chain, rfl⟩
  | succ n _ ih =>
    obtain ⟨chain', hext, hhead⟩ := ih
    obtain ⟨chain'', hext', hhead', _⟩ := chain'.exists_extends_nextBlock "0x" 0 none
    exact ⟨chain'', hext.trans hext', by rw [hhead', hhead]⟩

/-- The chain can go on up to a block that lasts for a time that its start decides and has at most
one log. -/
theorem exists_extends_to (durationFrom : Timestamp → ℕ) {n : ℕ} (h : chain.head < n) :
    ∃ (chain' : Chain) (b : MirrorNodeBlock), chain.Extends chain' ∧ chain'.head = n ∧
      chain'.block? n = some b ∧ b.timestampTo = b.timestampFrom + durationFrom b.timestampFrom ∧
      ∀ l ∈ log, ∃ l' ∈ chain'.logsAt n, l'.address = l.address ∧ l'.topics = l.topics := by
  obtain ⟨before, hext, hhead⟩ := chain.exists_extends_head (Nat.le_sub_one_of_lt h)
  obtain ⟨chain', hext', hhead', hblock, hlogs, _⟩ :=
    before.exists_extends_nextBlock "0x" (durationFrom (before.latest.timestampTo + 1)) log
  have hn : before.head + 1 = n := by omega
  rw [hn] at hhead' hblock hlogs
  refine ⟨chain', _, hext.trans hext', hhead', hblock, rfl, ?_⟩
  intro l hl
  rw [hlogs, Option.mem_def.mp hl, logs_nextBlock]
  exact ⟨_, List.mem_singleton_self _, rfl, rfl⟩

end Continuation

/-- A chain that has just begun. -/
def genesis : Chain :=
  .single
    { block :=
        { count := 0, gasUsed := 0, hash := "0x", logsBloom := "0x", number := 0
          previousHash := "0x", size := none, timestampFrom := 0, timestampTo := 0 }
      logs := [] }
    rfl (by decide) rfl

end Chain

end JsonRpcRelay.Mirror
