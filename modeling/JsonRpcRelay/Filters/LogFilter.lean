import JsonRpcRelay.Filters.Polling

/-!
# Log filters

A log filter hands on the logs from its `fromBlock` up to its `toBlock`.  A poll with logs goes
on behind the last of them.  A poll without logs asks for the last block and goes on behind that:
a log that appears between the two requests is passed over.  A poll that starts at a block
behind the `toBlock` fails.
-/

namespace JsonRpcRelay.Filters

open constants Mirror Common Framework
open Blocks (Log)

section Condition

/-- The block is not behind the `toBlock`. -/
def LogFilterParams.upTo (params : LogFilterParams) (b : ℕ) : Bool :=
  params.toBlock.blockNumber.all (b ≤ ·)

/-- No log of the filter lies in the blocks from `m` on below `n`. -/
def noLogs (chain : Chain) (params : LogFilterParams) (m n : ℕ) : Bool :=
  chain.logs.all fun log => !(decide (m ≤ log.blockNumber ∧ log.blockNumber < n) &&
    params.upTo log.blockNumber && params.matches log)

/-- The block at which the next poll starts. -/
def logCursor (start : ℕ) : Option ℕ → ℕ
  | none | some 0 => start
  | some (n + 1) => n + 1

/-- When a poll without logs asks for the last block, no log of the filter has appeared behind
the cursor.  A block that is found as the first one of a range is not behind the `toBlock`, and
if it is the last block of the chain, no log of the filter lies before it. -/
def logCondition (l : SessionRecord) (op : FilterOp) (s : FilterState) : Bool :=
  match s.filter, op with
  | some ⟨.log params, lastQueried⟩, .getLatestBlock .cursor =>
      noLogs s.chain params (logCursor l.start lastQueried) (s.chain.head + 1)
  | some ⟨.log params, lastQueried⟩, .getLatestBlock .fromBlock =>
      params.upTo s.chain.head &&
        noLogs s.chain params (logCursor l.start lastQueried) s.chain.head
  | some ⟨.log params, _⟩, .getBlock .fromBlock (.number n) =>
      decide (s.chain.head < n) || params.upTo n
  | _, _ => true

abbrev logContract := sessionContract logCondition

private abbrev soleLogContract := sessionContract (alone logCondition)

private theorem not_matches_of_noLogs {chain : Chain} {params : LogFilterParams} {m n b : ℕ}
    {log : MirrorNodeLog} (h : noLogs chain params m n = true) (hlog : log ∈ chain.logsAt b)
    (hm : m ≤ b) (hn : b < n) (hto : params.upTo b = true) : params.matches log = false := by
  have hall := List.all_eq_true.mp h log (Chain.mem_logs.mpr ⟨b, hlog⟩)
  have hnumber := Chain.blockNumber_of_mem_logsAt hlog
  simpa [hnumber, hm, hn, hto] using hall

end Condition

section Delivery

variable {chain chain' : Chain} {params : LogFilterParams} {limit c c' b : ℕ} {log : MirrorNodeLog}
  {r : Except RelayError Answer × ℕ}

/-- A poll that has gone on from `c` to `c'` has returned the logs of the filter between them.
The last block at the start of the poll is the second part of its result. -/
inductive DeliversLogs (chain : Chain) (params : LogFilterParams) (limit : ℕ) :
    ℕ → Except RelayError Answer × ℕ → ℕ → Prop where
  | logs {c c' h : ℕ} {records : List MirrorNodeLog} (le_head : c' ≤ chain.head + 1)
      (mem_iff : ∀ log, log ∈ records ↔ (∃ b, c ≤ b ∧ b < c' ∧ params.upTo b = true ∧
        log ∈ chain.logsAt b) ∧ params.matches log = true)
      (reaches : ∀ log b, log ∈ chain.logsAt b → params.matches log = true →
        params.upTo b = true → c ≤ b → b ≤ h → b < c') (le : h ≤ chain.head) :
      DeliversLogs chain params limit c (.ok (.logs (records.map Log.ofRecord)), h) c'
  /-- The range has too many blocks or takes too long, and the cursor stays. -/
  | rejected {c h : ℕ} {e : JsonRpcError}
      (he : e = predefined.RANGE_TOO_LARGE limit ∨ ∃ fromBlock fromTimestamp toBlock toTimestamp,
        e = predefined.TIMESTAMP_RANGE_TOO_LARGE fromBlock fromTimestamp toBlock toTimestamp) :
      DeliversLogs chain params limit c (.error (.jsonRpcError e), h) c

theorem DeliversLogs.mono (h : DeliversLogs chain params limit c r c')
    (hext : chain.Extends chain') : DeliversLogs chain' params limit c r c' := by
  cases h with
  | @logs _ h records le_head mem_iff reaches le =>
    refine .logs (le_head.trans (Nat.succ_le_succ hext.head_le)) ?_ ?_ (le.trans hext.head_le)
    · intro log
      rw [mem_iff log]
      apply and_congr_left
      intro _
      apply exists_congr
      intro b
      apply and_congr_right
      intro _
      apply and_congr_right
      intro hb
      rw [hext.logsAt_eq (by omega)]
    · intro log b hlog hmatches hto hcb hbh
      rw [hext.logsAt_eq (by omega)] at hlog
      exact reaches log b hlog hmatches hto hcb hbh
  | rejected he => exact .rejected he

/-- The result has the log. -/
def returnsLog (log : MirrorNodeLog) : Except RelayError Answer → Bool
  | .ok (.logs logs) => Log.ofRecord log ∈ logs
  | _ => false

private theorem DeliversLogs.returnsLog_iff (h : DeliversLogs chain params limit c r c')
    (hlog : log ∈ chain.logsAt b) (hmatches : params.matches log = true)
    (hto : params.upTo b = true) : returnsLog log r.1 = true ↔ c ≤ b ∧ b < c' := by
  cases h with
  | @logs _ h records le_head mem_iff reaches le =>
    simp only [returnsLog, decide_eq_true_eq, List.mem_map]
    constructor
    · rintro ⟨log', hlog', hview⟩
      obtain ⟨⟨b', hc, hc', _, hb'⟩, _⟩ := (mem_iff log').mp hlog'
      have hnumber : log'.blockNumber = log.blockNumber :=
        numberTo0x_inj (congrArg Log.blockNumber hview)
      rw [Chain.blockNumber_of_mem_logsAt hb', Chain.blockNumber_of_mem_logsAt hlog] at hnumber
      omega
    · rintro ⟨hc, hc'⟩
      exact ⟨log, (mem_iff log).mpr ⟨⟨b, hc, hc', hto, hlog⟩, hmatches⟩, rfl⟩
  | rejected he =>
    simp only [returnsLog, Bool.false_eq_true, false_iff]
    omega

theorem DeliversLogs.reaches {answer : Answer} (h : DeliversLogs chain params limit c r c')
    (hok : r.1 = .ok answer) (hlog : log ∈ chain.logsAt b) (hmatches : params.matches log = true)
    (hto : params.upTo b = true) (hc : c ≤ b) (hb : b ≤ r.2) : b < c' := by
  cases h with
  | logs _ _ reaches _ => exact reaches log b hlog hmatches hto hc hb
  | rejected he => cases hok

end Delivery

section Poll

variable {config : FilterConfig} {l : SessionRecord} {s v : FilterState}
  {params : LogFilterParams} {lastQueried : Option ℕ} {c : ℕ} {a b : MirrorNodeBlock}

/-- A log filter that has delivered everything below `c`. -/
structure LogFilterAt (l : SessionRecord) (s : FilterState) (params : LogFilterParams)
    (lastQueried : Option ℕ) (c : ℕ) : Prop where
  stored : l.stored = some ⟨.log params, lastQueried⟩
  cursor : logCursor l.start lastQueried = c
  valid : params.Valid
  /-- The block from which the next poll asks for logs; a tag stands for a later block. -/
  start : (startBlock params lastQueried).blockNumber = some c ∨
    (startBlock params lastQueried).blockNumber = none ∧ c ≤ s.chain.head

theorem LogFilterAt.later (hat : LogFilterAt l s params lastQueried c)
    (hsv : s.chain.Extends v.chain) : LogFilterAt l v params lastQueried c :=
  { hat with start := hat.start.imp_right fun h => ⟨h.1, h.2.trans hsv.head_le⟩ }

/-- The first block of a range: the filter has no logs between the cursor and it. -/
structure StartsAt (chain : Chain) (params : LogFilterParams) (c : ℕ) (a : MirrorNodeBlock) :
    Prop where
  le : c ≤ a.number
  le_head : a.number ≤ chain.head
  upTo : params.upTo a.number = true
  noLogs : noLogs chain params c a.number = true

private theorem noLogs_self (chain : Chain) (params : LogFilterParams) (n : ℕ) :
    noLogs chain params n n = true := by
  rw [noLogs, List.all_eq_true]
  intro log _
  simp only [Bool.not_eq_true', Bool.and_eq_false_iff, decide_eq_false_iff_not]
  omega

private theorem LogFilterAt.startsAt (hat : LogFilterAt l s params lastQueried c) {t : FilterState}
    (hst : s.chain.Extends t.chain)
    (h : FoundAt soleLogContract l .fromBlock (startBlock params lastQueried).orLatest a t) :
    StartsAt t.chain params c a := by
  have hhead := Chain.exists_block?_iff.mp ⟨a, h.block⟩
  rcases hat.start with hn | ⟨hnone, hc⟩
  · obtain ⟨hnumber, hok⟩ := h.named c (by simpa using hn)
    simp only [sessionContract, alone, Bool.and_eq_true, decide_eq_true_eq] at hok
    obtain ⟨hcond, hsync⟩ := hok
    simp only [logCondition, hsync, hat.stored, Bool.or_eq_true, decide_eq_true_eq] at hcond
    rw [hnumber] at hhead
    refine ⟨hnumber.ge, hnumber ▸ hhead, ?_, ?_⟩
    · rw [hnumber]
      exact hcond.resolve_left (by omega)
    · rw [hnumber]
      exact noLogs_self _ _ _
  · obtain ⟨hnumber, hok⟩ := h.latest (by simpa using hnone)
    simp only [sessionContract, alone, Bool.and_eq_true, decide_eq_true_eq] at hok
    obtain ⟨hcond, hsync⟩ := hok
    simp only [logCondition, hsync, hat.stored, hat.cursor, Bool.and_eq_true] at hcond
    rw [← hnumber] at hcond
    exact ⟨hnumber ▸ hc.trans hst.head_le, hhead, hcond.1, hcond.2⟩

private theorem le_of_toBlock {lookup : Lookup} {t u : FilterState} {n : ℕ}
    (htu : t.chain.Extends u.chain) (hn : n ≤ t.chain.head) (hto : params.upTo n = true)
    (h : FoundAt soleLogContract l lookup params.toBlock.orLatest b u) : n ≤ b.number := by
  cases hnumber : params.toBlock.blockNumber with
  | none =>
    rw [(h.latest (by simpa using hnumber)).1]
    exact hn.trans htu.head_le
  | some m =>
    rw [(h.named m (by simpa using hnumber)).1]
    simpa [LogFilterParams.upTo, hnumber] using hto

/-- And conversely. -/
theorem upTo_of_le {lookup : Lookup} {u : FilterState} {n : ℕ}
    (h : FoundAt soleLogContract l lookup params.toBlock.orLatest b u) (hn : n ≤ b.number) :
    params.upTo n = true := by
  cases hnumber : params.toBlock.blockNumber with
  | none => simp [LogFilterParams.upTo, hnumber]
  | some m =>
    rw [(h.named m (by simpa using hnumber)).1] at hn
    simpa [LogFilterParams.upTo, hnumber] using hn

private theorem error_of_checkRange {config : CommonConfig} {address : AddressFilter}
    {e : RelayError} (h : checkRange config address a b = .error e) (hle : a.number ≤ b.number) :
    ∃ e', e = .jsonRpcError e' ∧ (e' = predefined.RANGE_TOO_LARGE config.logsBlockRangeLimit ∨
      ∃ fromBlock fromTimestamp toBlock toTimestamp,
        e' = predefined.TIMESTAMP_RANGE_TOO_LARGE fromBlock fromTimestamp toBlock toTimestamp) := by
  unfold checkRange at h
  split_ifs at h with _ hgt
  · cases h
    exact ⟨_, rfl, .inr ⟨_, _, _, _, rfl⟩⟩
  · omega
  · cases h
    exact ⟨_, rfl, .inl rfl⟩

private theorem failed_delivers {topics : List (ℕ × List String)} {e : RelayError} (h : ℕ)
    (hat : LogFilterAt l s params lastQueried c)
    (htopics : addTopicsToParams params.topics = .ok topics)
    (hfound : Found soleLogContract l config params lastQueried s v (.error e)) :
    DeliversLogs v.chain params config.logsBlockRangeLimit c (.error e, h) c ∧
      c ≤ v.chain.head := by
  cases hfound with
  | rejected hvalidated =>
    cases hvalidated with
    | rejected hfrom hto hcheck =>
      obtain ⟨t, u, hbounds⟩ := boundsFound_of_lookups hfrom hto
      have hstart := hat.startsAt hbounds.before hbounds.fromBlock
      obtain ⟨lookup, hto⟩ := hbounds.toBlock
      have hle := le_of_toBlock hbounds.between hstart.le_head hstart.upTo hto
      obtain ⟨e', rfl, he⟩ := error_of_checkRange hcheck hle
      have htv := Chain.Extends.trans hbounds.between hbounds.after
      exact ⟨.rejected he, hstart.le.trans (hstart.le_head.trans htv.head_le)⟩
  | noTopics hnone _ =>
    rw [htopics] at hnone
    cases hnone

private theorem nothing_delivers {u : FilterState} (hat : LogFilterAt l s params lastQueried c)
    (hsu : s.chain.Extends u.chain)
    (hok : soleLogContract.request l (.getLatestBlock .cursor) u)
    (huv : u.chain.Extends v.chain) :
    DeliversLogs v.chain params config.logsBlockRangeLimit c (.ok (.logs []), s.chain.head)
      (u.chain.head + 1) := by
  simp only [sessionContract, alone, Bool.and_eq_true, decide_eq_true_eq] at hok
  obtain ⟨hcond, hsync⟩ := hok
  simp only [logCondition, hsync, hat.stored, hat.cursor] at hcond
  have hhead := huv.head_le
  have hnone (log : MirrorNodeLog) (b : ℕ) (hc : c ≤ b) (hb : b < u.chain.head + 1)
      (hto : params.upTo b = true) (hlog : log ∈ v.chain.logsAt b) :
      params.matches log = false := by
    rw [huv.logsAt_eq (by omega)] at hlog
    exact not_matches_of_noLogs hcond hlog hc hb hto
  refine @DeliversLogs.logs _ _ _ _ _ _ [] (by omega) ?_ ?_ (hsu.trans huv).head_le
  · intro log
    simp only [List.not_mem_nil, false_iff, not_and]
    rintro ⟨b, hc, hb, hto, hlog⟩
    rw [hnone log b hc hb hto hlog]
    exact Bool.false_ne_true
  · intro log b _ _ _ _ hbh
    exact Nat.lt_succ_of_le (hbh.trans hsu.head_le)

private theorem Queried.number_le {chain : Chain} {selects : MirrorNodeLog → Bool} {m n k : ℕ}
    {records : List MirrorNodeLog} {log last : MirrorNodeLog}
    (h : Queried chain selects m n records) (hlast : records.getLast? = some last)
    (hlog : log ∈ records) (hk : log ∈ chain.logsAt k) : k ≤ last.blockNumber := by
  obtain ⟨_, _, hlastlog⟩ := ((h.mem_iff last).mp (List.mem_of_getLast? hlast)).1.blockNumber
  have hle : log.timestamp ≤ last.timestamp := by
    obtain ⟨init, rfl⟩ := List.getLast?_eq_some_iff.mp hlast
    rcases List.mem_append.mp hlog with hinit | hend
    · exact (List.pairwise_append.mp h.ordered).2.2 log hinit last (by simp)
    · rw [List.mem_singleton.mp hend]
  exact Chain.number_le_of_timestamp_le hk hlastlog hle

/-- A log of the filter from the cursor up to the last block of the range is in the result. -/
theorem StartsAt.mem_records {t u : FilterState} {records : List MirrorNodeLog}
    {log : MirrorNodeLog} {k n : ℕ} (hstart : StartsAt t.chain params c a)
    (htu : t.chain.Extends u.chain)
    (hrecords : Queried u.chain (fun log => params.address.matches log &&
      matchesTopics params.topics log) a.number n records)
    (hlog : log ∈ u.chain.logsAt k) (hmatches : params.matches log = true)
    (hto : params.upTo k = true) (hc : c ≤ k) (hk : k ≤ n) : log ∈ records := by
  apply (hrecords.mem_iff log).mpr
  refine ⟨⟨k, ?_, hk, hlog⟩, hmatches⟩
  by_contra hlt
  have hhead := hstart.le_head
  rw [Chain.Extends.logsAt_eq htu (by omega)] at hlog
  rw [not_matches_of_noLogs hstart.noLogs hlog hc (by omega) hto] at hmatches
  cases hmatches

private theorem logs_deliver {t u : FilterState} {records : List MirrorNodeLog}
    {last : MirrorNodeLog} (hat : LogFilterAt l s params lastQueried c)
    (hbounds : BoundsFound soleLogContract l (startBlock params lastQueried) params.toBlock s v
      a b t u)
    (hrecords : Queried u.chain (fun log => params.address.matches log &&
      matchesTopics params.topics log) a.number b.number records)
    (hlast : records.getLast? = some last) :
    DeliversLogs v.chain params config.logsBlockRangeLimit c
        (.ok (.logs (records.map Log.ofRecord)), s.chain.head) (last.blockNumber + 1) ∧
      last.blockNumber ≤ v.chain.head ∧ c ≤ last.blockNumber := by
  have hst := hbounds.before
  have htu := hbounds.between
  have huv := hbounds.after
  have hstart := hat.startsAt hst hbounds.fromBlock
  obtain ⟨lookup, hto⟩ := hbounds.toBlock
  have hbhead := Chain.exists_block?_iff.mp ⟨b, hto.block⟩
  obtain ⟨hbetween, hselected⟩ := (hrecords.mem_iff last).mp (List.mem_of_getLast? hlast)
  obtain ⟨halast, hlastb, hlastlog⟩ := hbetween.blockNumber
  have hsame : ∀ k ≤ b.number, v.chain.logsAt k = u.chain.logsAt k := fun k hk =>
    Chain.Extends.logsAt_eq huv (by omega)
  refine ⟨.logs ?_ ?_ ?_ ((hst.trans htu).trans huv).head_le, ?_, hstart.le.trans halast⟩
  · have := huv.head_le
    omega
  · intro log
    constructor
    · intro hlog
      obtain ⟨hbetween, hmatches⟩ := (hrecords.mem_iff log).mp hlog
      obtain ⟨hk, hkb, hin⟩ := hbetween.blockNumber
      have hkv : log ∈ v.chain.logsAt log.blockNumber := by
        rwa [hsame _ hkb]
      exact ⟨⟨log.blockNumber, hstart.le.trans hk,
        Nat.lt_succ_of_le (hrecords.number_le hlast hlog hin), upTo_of_le hto hkb, hkv⟩, hmatches⟩
    · rintro ⟨⟨k, hc, hk, hkto, hlog⟩, hmatches⟩
      have hkb : k ≤ b.number := by omega
      rw [hsame k hkb] at hlog
      exact hstart.mem_records htu hrecords hlog hmatches hkto hc hkb
  · intro log k hlog hmatches hkto hc hkh
    have hkb := le_of_toBlock hbounds.between (hkh.trans hst.head_le) hkto hto
    rw [hsame k hkb] at hlog
    have hin := hstart.mem_records htu hrecords hlog hmatches hkto hc hkb
    exact Nat.lt_succ_of_le (hrecords.number_le hlast hin hlog)
  · have := huv.head_le
    omega

private theorem logChanges_deliver {r : Except RelayError (List Log × ℕ)}
    {topics : List (ℕ × List String)} (hat : LogFilterAt l s params lastQueried c)
    (htopics : addTopicsToParams params.topics = .ok topics)
    (h : LogChanges soleLogContract l config params lastQueried s v r) :
    ∃ c', DeliversLogs v.chain params config.logsBlockRangeLimit c
        (r.map fun r => .logs r.1, s.chain.head) c' ∧ c' ≤ v.chain.head + 1 ∧
      (c ≤ s.chain.head + 1 → c ≤ c') ∧
      match r with
      | .ok (_, cursor) => cursor = c' ∧ 0 < c'
      | .error _ => c' = c := by
  cases h with
  | failed h =>
    obtain ⟨hdelivers, hle⟩ := failed_delivers s.chain.head hat htopics h
    exact ⟨c, hdelivers, hle.trans (Nat.le_succ _), fun _ => Nat.le_refl c, rfl⟩
  | @nothing t u hfound htu hok huv =>
    have hsu : s.chain.Extends u.chain := Chain.Extends.trans hfound.rely htu
    refine ⟨u.chain.head + 1, nothing_delivers hat hsu hok huv, ?_, ?_, rfl, Nat.succ_pos _⟩
    · exact Nat.succ_le_succ (Chain.Extends.head_le huv)
    · intro hc
      exact hc.trans (Nat.succ_le_succ hsu.head_le)
  | @logs logs view hfound hlast =>
    cases hfound with
    | missing hmissing => cases hlast
    | @records a b t u records hbounds hle hrecords =>
      rw [List.getLast?_map] at hlast
      obtain ⟨last, hlast', rfl⟩ := Option.map_eq_some_iff.mp hlast
      obtain ⟨hdelivers, hhead, hc⟩ := logs_deliver hat hbounds hrecords hlast'
      refine ⟨last.blockNumber + 1, hdelivers, Nat.succ_le_succ hhead,
        fun _ => hc.trans (Nat.le_succ _), ?_, Nat.succ_pos _⟩
      show bigIntOfHex (numberTo0x last.blockNumber) + 1 = _
      rw [bigIntOfHex_numberTo0x]

private theorem wp_logPoll {topics : List (ℕ × List String)}
    (henabled : config.filterApiEnabled = true)
    (htopics : addTopicsToParams params.topics = .ok topics)
    (hat : LogFilterAt l s params lastQueried c) :
    soleLogContract.wp (getFilterChanges config).run (fun r l' v => ∃ c' h lastQueried',
      l'.heads = l.heads ++ [h] ∧ l'.start = l.start ∧
        DeliversLogs v.chain params config.logsBlockRangeLimit c (r, h) c' ∧
        LogFilterAt l' v params lastQueried' c' ∧ c' ≤ v.chain.head + 1 ∧
        (c ≤ s.chain.head + 1 → c ≤ c')) l s := by
  have hK := growing_session (alone logCondition)
  simp only [getFilterChanges, requireFiltersEnabled, henabled, if_true, pure_bind]
  apply wp_request
  intro t hst hok page r u hact
  cases hact
  refine ⟨Chain.Extends.refl _, ?_⟩
  have hsync : t.filter = some ⟨.log params, lastQueried⟩ := by
    simp only [sessionContract, alone, Bool.and_eq_true, decide_eq_true_eq] at hok
    rw [hok.2, hat.stored]
  have hat' : LogFilterAt { l with heads := l.heads ++ [t.chain.head] } t params lastQueried c :=
    ⟨hat.stored, hat.cursor, hat.valid, (hat.later hst).start⟩
  have hmono : c ≤ s.chain.head + 1 → c ≤ t.chain.head + 1 :=
    fun hc => hc.trans (Nat.succ_le_succ hst.head_le)
  simp only [hsync]
  apply wp_then
  apply wp_map
  apply wp_handleLogFilterChanges hK hat.valid
  intro r v hr w hvw
  obtain ⟨c', hdelivers, hhead, hc, hnext⟩ := logChanges_deliver hat' htopics hr
  have htv : t.chain.Extends v.chain := hr.rely
  rcases r with e | ⟨logs, cursor⟩
  · subst hnext
    intro x hx
    have hvx := hvw.trans hx
    exact ⟨c', t.chain.head, lastQueried, rfl, rfl, hdelivers.mono hvx,
      hat'.later (htv.trans hvx),
      hhead.trans (Nat.succ_le_succ hvx.head_le), fun h => hc (hmono h)⟩
  · obtain ⟨rfl, hpos⟩ := hnext
    apply wp_request
    intro w' hww' _ page' r' u' hact'
    cases hact'
    refine ⟨Chain.Extends.refl _, wp_return fun x hx => ?_⟩
    have hvx := (hvw.trans hww').trans hx
    obtain ⟨k, rfl⟩ : ∃ k, cursor = k + 1 := ⟨cursor - 1, by omega⟩
    refine ⟨k + 1, t.chain.head, some (k + 1), rfl, ?_, hdelivers.mono hvx,
      ⟨rfl, rfl, hat.valid, .inl rfl⟩, hhead.trans (Nat.succ_le_succ hvx.head_le),
      fun h => hc (hmono h)⟩
    simp [SessionRecord.note, hat.stored]

/-- Polls from a cursor within the chain never move it back. -/
def KeepsOn (chain : Chain) (params : LogFilterParams) (limit : ℕ) (c : ℕ)
    (r : Except RelayError Answer × ℕ) (c' : ℕ) : Prop :=
  DeliversLogs chain params limit c r c' ∧ c ≤ c'

private theorem wp_logPolls {topics : List (ℕ × List String)}
    (henabled : config.filterApiEnabled = true)
    (htopics : addTopicsToParams params.topics = .ok topics) {n : ℕ}
    (hat : LogFilterAt l s params lastQueried c) (hc : c ≤ s.chain.head + 1) :
    soleLogContract.wp (polls config n) (fun rs l' v => ∃ hs c', l'.heads = l.heads ++ hs ∧
      l'.start = l.start ∧ rs.length = n ∧ hs.length = n ∧
        Polls (KeepsOn v.chain params config.logsBlockRangeLimit) c (rs.zip hs) c') l s := by
  induction n generalizing l s lastQueried c with
  | zero => exact fun v _ => ⟨[], c, by simp, rfl, rfl, rfl, .nil c⟩
  | succ n ih =>
    apply Protocol.Contract.wp_seq (wp_logPoll henabled htopics hat)
    intro r l' t hst hr
    obtain ⟨c', h, lastQueried', hheads, hstart, hpoll, hat', hle, hmono⟩ :=
      hr t (Chain.Extends.refl _)
    apply Protocol.Contract.wp_seq (ih hat' hle)
    intro rs l'' u htu hrs v huv
    obtain ⟨hs, c'', hheads', hstart', hlength, hlength', hpolls⟩ := hrs v huv
    refine ⟨h :: hs, c'', ?_, hstart'.trans hstart, ?_, ?_, ?_⟩
    · rw [hheads', hheads, List.append_assoc, List.singleton_append]
    · rw [List.length_cons, hlength]
    · rw [List.length_cons, hlength']
    · exact .cons ⟨hpoll.mono (htu.trans huv), hmono hc⟩ hpolls

end Poll

section Creation

variable {condition : SessionRecord → FilterOp → FilterState → Bool} {config : CommonConfig}
  {l : SessionRecord} {s : FilterState}

private theorem named_of_isBlockNumber {param : BlockParam} (h : param.isBlockNumber = true) :
    param.Named ∧ isMissing (some param) = false := by
  cases param with
  | hex text =>
    refine ⟨⟨fun _ => BlockParam.noConfusion, ?_⟩, rfl⟩
    rintro ⟨⟩
    revert h
    decide
  | hash text => cases h
  | number n => cases h
  | _ => exact ⟨⟨fun _ => BlockParam.noConfusion, BlockParam.noConfusion⟩, rfl⟩

private theorem named_numberTo0x (n : ℕ) : (BlockParam.hex (numberTo0x n)).Named := by
  refine ⟨fun _ => BlockParam.noConfusion, fun h => ?_⟩
  have hlist := congrArg String.toList (BlockParam.hex.inj h)
  rw [toList_numberTo0x] at hlist
  exact Nat.toDigits_ne_nil (List.cons.inj (List.cons.inj hlist).2).2

private theorem wp_lookUpBounds {K : FilterContract SessionRecord.note} (hK : Growing K)
    {fromBlock toBlock : BlockParam} (hfrom : fromBlock.Named) (hto : toBlock.Named)
    {post : Except RelayError (Option ℕ × Option ℕ) → SessionRecord → FilterState → Prop}
    (h : ∀ r v, K.rely s v → post (.ok r) l v) :
    K.wp (lookUpBounds config mirrorNodeClient (some fromBlock) (some toBlock) :
      FilterM _).run post l s := by
  unfold lookUpBounds
  rw [latestIfTag_some, latestIfTag_some]
  apply wp_then
  apply wp_getHistoricalBlockResponse hK hfrom.orLatest
  intro r u hr
  apply wp_then
  apply wp_getHistoricalBlockResponse hK hto.orLatest
  intro r' v hr'
  exact wp_return fun w hvw => h _ w (K.trans _ _ _ hr.rely (K.trans _ _ _ hr'.rely hvw))

private theorem wp_validateBlockRange {K : FilterContract SessionRecord.note} (hK : Growing K)
    {fromBlock toBlock : BlockParam} (hfrom : fromBlock.Named) (hto : toBlock.Named)
    (hset : isMissing (some fromBlock) = false)
    {post : Except RelayError Bool → SessionRecord → FilterState → Prop}
    (h : ∀ r v, K.rely s v → post r l v) :
    K.wp (validateBlockRange config mirrorNodeClient (some fromBlock) (some toBlock) :
      FilterM _).run post l s := by
  have hbounds (bounds : Option ℕ × Option ℕ) (u : FilterState) (hsu : K.rely s u) :
      K.wp (if exceeds bounds.1 bounds.2 then
        throw (.jsonRpcError predefined.INVALID_BLOCK_RANGE) else pure true :
        FilterM Bool).run post l u := by
    split
    · exact wp_throw fun v huv => h _ v (K.trans _ _ _ hsu huv)
    · exact wp_return fun v huv => h _ v (K.trans _ _ _ hsu huv)
  unfold validateBlockRange
  apply wp_then
  apply wp_requireFromBlock hK hset
  intro u hsu
  dsimp only
  split
  · exact hbounds _ u hsu
  · apply wp_then
    apply wp_lookUpBounds hK hfrom hto
    exact fun r v huv => hbounds r v (K.trans _ _ _ hsu huv)

/-- The parameters of the filter that is stored. -/
def NewFilterParams.stored (params : NewFilterParams) (fromBlock : BlockParam) : LogFilterParams where
  fromBlock := fromBlock
  toBlock := params.toBlock.getD .latest
  address := params.address
  topics := params.topics

theorem NewFilterParams.named (params : NewFilterParams) :
    ((params.fromBlock.getD .latest).Named ∧
      isMissing (some (params.fromBlock.getD .latest)) = false) ∧
    (params.toBlock.getD .latest).Named := by
  constructor
  · cases h : params.fromBlock with
    | none => exact named_of_isBlockNumber rfl
    | some fromBlock => exact named_of_isBlockNumber (params.fromValid fromBlock h)
  · cases h : params.toBlock with
    | none => exact (named_of_isBlockNumber rfl).1
    | some toBlock => exact (named_of_isBlockNumber (params.toValid toBlock h)).1

/-- The `fromBlock` that is stored names the same block as the one of the request, unless that
is the latest one. -/
structure Resolved (param fromBlock : BlockParam) : Prop where
  named : fromBlock.Named
  isSet : isMissing (some fromBlock) = false
  same : ∀ n, param.blockNumber = some n → fromBlock.blockNumber = some n

private theorem wp_creationBlock (hK : Growing (sessionContract condition)) {param : BlockParam}
    (hparam : param.Named) (hset : isMissing (some param) = false)
    {post : Except RelayError BlockParam → SessionRecord → FilterState → Prop}
    (h : ∀ fromBlock v, Resolved param fromBlock → post (.ok fromBlock) l v) :
    (sessionContract condition).wp (creationBlock param).run post l s := by
  unfold creationBlock
  split
  · rename_i hlatest
    apply wp_map
    apply wp_getLatestBlockNumber hK
    intro t u _ _ _ v _
    refine h _ v ⟨named_numberTo0x _, rfl, fun n hn => ?_⟩
    rw [hlatest] at hn
    cases hn
  · exact wp_return fun v _ => h _ v ⟨hparam, hset, fun n hn => hn⟩

private theorem wp_createFilter {params : LogFilterParams} (hvalid : params.Valid)
    (hnone : l.stored = none) {post : Except RelayError Unit → SessionRecord → FilterState → Prop}
    (h : ∀ l' v, l'.heads = l.heads → LogFilterAt l' v params none l'.start →
      (∀ n, params.fromBlock.blockNumber = some n → l'.start = n) → post (.ok ()) l' v) :
    (sessionContract condition).wp (createFilter (.log params)).run post l s := by
  apply wp_ask
  intro t _ _ page r u hact
  cases hact
  refine ⟨Chain.Extends.refl _, fun v hv => h _ v rfl ?_ ?_⟩
  · refine ⟨rfl, rfl, hvalid, ?_⟩
    have hstart : (l.note (.setFilter ⟨.log params, none⟩) () t
        { t with filter := some ⟨.log params, none⟩ }).start =
        params.fromBlock.blockNumber.getD t.chain.head := by
      simp [SessionRecord.note, hnone, Filter.startAt]
    rw [hstart]
    show params.fromBlock.blockNumber = _ ∨ params.fromBlock.blockNumber = none ∧ _
    cases hn : params.fromBlock.blockNumber with
    | none => exact .inr ⟨rfl, Chain.Extends.head_le hv⟩
    | some n => exact .inl rfl
  · intro n hn
    simp [SessionRecord.note, hnone, Filter.startAt, hn]

theorem wp_newFilter {config : FilterConfig} (params : NewFilterParams) (hnone : l.stored = none) :
    (sessionContract condition).wp (newFilter config params).run (fun r l' v => r = .ok () →
      config.filterApiEnabled = true ∧ l'.heads = l.heads ∧
        (∀ n, (params.fromBlock.getD .latest).blockNumber = some n → l'.start = n) ∧
        ∃ fromBlock, LogFilterAt l' v (params.stored fromBlock) none l'.start) l s := by
  have hK := growing_session condition
  obtain ⟨⟨hfrom, hset⟩, hto⟩ := params.named
  unfold newFilter
  apply wp_rethrow
  unfold requireFiltersEnabled
  split
  · rename_i henabled
    rw [pure_bind]
    apply wp_then
    apply wp_validateBlockRange hK hfrom hto hset
    intro r u hsu
    cases r with
    | error e => exact fun v _ w _ hr => by cases hr
    | ok valid =>
      dsimp only
      split
      · exact wp_throw fun v _ w _ hr => by cases hr
      · apply wp_then
        apply wp_creationBlock hK hfrom hset
        intro fromBlock v hresolved
        have hvalid : (params.stored fromBlock).Valid := ⟨hresolved.named, hto, hresolved.isSet⟩
        apply wp_createFilter hvalid hnone
        intro l' w hheads hat hstart x hwx _
        exact ⟨henabled, hheads, fun n hn => hstart n (hresolved.same n hn), fromBlock,
          hat.later hwx⟩
  · exact wp_throw fun t _ u _ hr => by cases hr

end Creation

section Session

variable {config : FilterConfig} {params : NewFilterParams} {topics : List (ℕ × List String)}
  {n : ℕ} {chain : Chain} {pool : SessionPool} {es : List (PoolEvent Unit ℕ ChainBlock)}
  {rs : List (Except RelayError Answer)}

/-- The first poll may start behind the chain; the others never move the cursor back. -/
inductive SessionPolls (chain : Chain) (params : LogFilterParams) (limit : ℕ) :
    ℕ → List (Except RelayError Answer × ℕ) → Prop where
  | none (c : ℕ) : SessionPolls chain params limit c []
  | some {c c' c'' : ℕ} {r : Except RelayError Answer × ℕ}
      {rs : List (Except RelayError Answer × ℕ)} (first : DeliversLogs chain params limit c r c')
      (others : Polls (KeepsOn chain params limit) c' rs c'') :
      SessionPolls chain params limit c (r :: rs)

private theorem wp_logSession (htopics : addTopicsToParams params.topics = .ok topics)
    (l : SessionRecord) (hnone : l.stored = none) (hheads : l.heads = []) (s : FilterState) :
    soleLogContract.wp (session config (newFilter config params) n) (fun r l' v => ∀ rs,
      r = .ok rs → ∃ fromBlock, rs.length = n ∧ l'.heads.length = n ∧
        (∀ n, (params.fromBlock.getD .latest).blockNumber = some n → l'.start = n) ∧
        SessionPolls v.chain (params.stored fromBlock) config.logsBlockRangeLimit l'.start
          (rs.zip l'.heads)) l s := by
  apply Protocol.Contract.wp_seq (wp_newFilter params hnone)
  intro r l' t hst hr
  cases r with
  | error e => exact fun u _ rs hrs => by cases hrs
  | ok a =>
    obtain ⟨henabled, hheads', hstart, fromBlock, hat⟩ := hr t (Chain.Extends.refl _) rfl
    rw [hheads] at hheads'
    show soleLogContract.wp (Except.ok <$> polls config n) _ l' t
    rw [map_eq_pure_bind]
    cases n with
    | zero =>
      intro v _ rs hrs
      obtain rfl := Except.ok.inj hrs
      exact ⟨fromBlock, rfl, by rw [hheads']; rfl, hstart, .none _⟩
    | succ n =>
      rw [polls, bind_assoc]
      apply Protocol.Contract.wp_seq (wp_logPoll henabled htopics hat)
      intro r l'' u _ hr
      obtain ⟨c', h, lastQueried, hheads'', hstart'', hpoll, hat', hle, _⟩ :=
        hr u (Chain.Extends.refl _)
      rw [bind_assoc]
      apply Protocol.Contract.wp_seq (wp_logPolls henabled htopics hat' hle)
      intro rs l''' v huv hrs w hvw rs' hrs'
      obtain rfl := Except.ok.inj hrs'
      obtain ⟨hs, c'', hlater, hstart''', hlength, hlength', hpolls⟩ := hrs w hvw
      rw [hheads'', hheads', List.nil_append, List.singleton_append] at hlater
      rw [hlater, hstart''', hstart'']
      refine ⟨fromBlock, ?_, ?_, hstart, .some (hpoll.mono (huv.trans hvw)) hpolls⟩
      · rw [List.length_cons, hlength]
      · rw [List.length_cons, hlength']

theorem SessionPolls.of_mem {params : LogFilterParams} {limit c : ℕ}
    {r : Except RelayError Answer × ℕ} {rs : List (Except RelayError Answer × ℕ)}
    (h : SessionPolls chain params limit c rs) (hr : r ∈ rs) :
    ∃ a b, DeliversLogs chain params limit a r b := by
  cases h with
  | none => cases hr
  | some first others =>
    rcases List.mem_cons.mp hr with rfl | hr
    · exact ⟨_, _, first⟩
    · exact others.of_mem (p := fun r => ∃ a b, DeliversLogs chain params limit a r b)
        (fun a _ b h => ⟨a, b, h.1⟩) hr

theorem SessionPolls.countP_eq {params : LogFilterParams} {limit c b : ℕ}
    {rs : List (Except RelayError Answer × ℕ)} {log : MirrorNodeLog}
    (h : SessionPolls chain params limit c rs) (hlog : log ∈ chain.logsAt b)
    (hmatches : params.matches log = true) (hto : params.upTo b = true) (hc : c ≤ b) :
    ∃ c', rs.countP (fun r => returnsLog log r.1) = (if b < c' then 1 else 0) ∧
      ∀ r ∈ rs, ∀ answer, r.1 = .ok answer → b ≤ r.2 → b < c' := by
  cases h with
  | none => exact ⟨0, by simp, by simp⟩
  | @some c₁ c₂ r rs first others =>
    have hmono (a : ℕ) (r : Except RelayError Answer × ℕ) (b : ℕ)
        (h : KeepsOn chain params limit a r b) : a ≤ b := h.2
    have hle := others.le hmono
    have hfirst := first.returnsLog_iff hlog hmatches hto
    have hothers := others.countP_eq (p := fun r => returnsLog log r.1) (b := b) hmono
      fun _ _ _ h => h.1.returnsLog_iff hlog hmatches hto
    refine ⟨c₂, ?_, ?_⟩
    · rw [List.countP_cons, hothers]
      simp only [hfirst]
      split_ifs <;> omega
    · intro r' hr' answer hok hb
      rcases List.mem_cons.mp hr' with rfl | hr'
      · have := first.reaches hok hlog hmatches hto hc hb
        omega
      · -- a poll that began when the log was there leaves the cursor behind it
        let reach (r : Except RelayError Answer × ℕ) : ℕ :=
          if r.1.isOk ∧ b ≤ r.2 then b + 1 else 0
        have hreach := others.reaches reach hmono ?_ hr'
        · exact Nat.lt_of_succ_le (by simpa [reach, hok, hb, Except.isOk, Except.toBool] using hreach)
        · intro a r c' h
          cases hr : r.1 with
          | error e => simp [reach, hr, Except.isOk, Except.toBool]
          | ok answer =>
            by_cases hbr : b ≤ r.2
            · have hlt : a ≤ b → b < c' := fun ha => h.1.reaches hr hlog hmatches hto ha hbr
              have hac := h.2
              simp only [reach, hbr, hr, Except.isOk, Except.toBool, and_self, if_true]
              omega
            · simp [reach, hbr]

/-- Every log of the filter from its start up to its `toBlock` is returned by at most one poll,
and by one if a poll has succeeded that began when the log was there.  A poll fails only if its
range is too large. -/
theorem logs_delivered_once (htopics : addTopicsToParams params.topics = .ok topics)
    (hok : Along sessionProtocol.step logContract.Permits
      (startSession config (newFilter config params) n chain) es)
    (hrun : exec sessionProtocol.step (startSession config (newFilter config params) n chain) es =
      some pool)
    (hdone : pool.prog () = .pure (.ok rs)) :
    (∀ n, (params.fromBlock.getD .latest).blockNumber = some n → (pool.ghost ()).start = n) ∧
      (∀ log b, log ∈ pool.shared.chain.logsAt b → (params.stored .latest).matches log = true →
        (params.stored .latest).upTo b = true → (pool.ghost ()).start ≤ b →
          rs.countP (returnsLog log) ≤ 1 ∧
            ∀ (i : ℕ) (answer : Answer) (h : ℕ), rs[i]? = some (.ok answer) →
              (pool.ghost ()).heads[i]? = some h → b ≤ h → rs.countP (returnsLog log) = 1) ∧
      ∀ e, (Except.error e : Except RelayError Answer) ∈ rs → ∃ e', e = .jsonRpcError e' ∧
        (e' = predefined.RANGE_TOO_LARGE config.logsBlockRangeLimit ∨
          ∃ fromBlock fromTimestamp toBlock toTimestamp,
            e' = predefined.TIMESTAMP_RANGE_TOO_LARGE fromBlock fromTimestamp toBlock
              toTimestamp) := by
  have hsync : Synced (startSession config (newFilter config params) n chain) := rfl
  have hsession := session_run (wp_logSession htopics _ rfl rfl _) hsync hok hrun hdone
  obtain ⟨fromBlock, hlength, hlength', hstart, hpolls⟩ := hsession rs rfl
  have hzip : (rs.zip (pool.ghost ()).heads).map Prod.fst = rs := List.map_fst_zip (by omega)
  refine ⟨hstart, ?_, ?_⟩
  · intro log b hlog hmatches hto hc
    obtain ⟨c, hcount, hreach⟩ := hpolls.countP_eq hlog hmatches hto hc
    have hcount' : rs.countP (returnsLog log) = if b < c then 1 else 0 := by
      rw [← hcount]
      nth_rewrite 1 [← hzip]
      exact List.countP_map
    constructor
    · rw [hcount']
      split_ifs <;> omega
    · intro i answer h hr hh hb
      have hmem : (Except.ok answer, h) ∈ rs.zip (pool.ghost ()).heads :=
        List.mem_of_getElem? (List.getElem?_zip_eq_some.mpr ⟨hr, hh⟩)
      rw [hcount', if_pos (hreach _ hmem answer rfl hb)]
  · intro e he
    rw [← hzip] at he
    obtain ⟨r, hr, hre⟩ := List.mem_map.mp he
    obtain ⟨c, c', hdelivers⟩ := hpolls.of_mem hr
    cases hdelivers with
    | logs _ _ _ _ => cases hre
    | @rejected _ e' he' =>
      cases hre
      exact ⟨e', rfl, he'⟩

/-- A filter from the latest block on, without conditions on address and topics. -/
def allLogs (toBlock : Option BlockParam := none)
    (h : ∀ param ∈ toBlock, param.isBlockNumber := by decide) : NewFilterParams where
  toBlock := toBlock
  fromValid := by simp
  toValid := h

/-- A log between two polls. -/
def logBetweenPolls : List (PoolEvent Unit ℕ ChainBlock) :=
  answered 11 ++ .env (exampleBlock 1 ["0xc1"]) :: answered 9

theorem logs_delivered_once_between : ∃ (pool : SessionPool)
    (rs : List (Except RelayError Answer)) (log : MirrorNodeLog),
    exec sessionProtocol.step (startSession {} (newFilter {} allLogs) 3 exampleChain)
        logBetweenPolls = some pool ∧ pool.prog () = .pure (.ok rs) ∧
      log ∈ pool.shared.chain.logsAt 1 ∧ rs.countP (returnsLog log) = 1 := by
  let run := exec sessionProtocol.step (startSession {} (newFilter {} allLogs) 3 exampleChain)
    logBetweenPolls
  let log : MirrorNodeLog :=
    { address := "0xc1", blockHash := "0xb1", blockNumber := 1, data := "0x", index := 0
      timestamp := 2 * 10 ^ 9, topics := [], transactionHash := "0xt1", transactionIndex := 0 }
  have hended : run.map (fun pool => (pool.prog ()).result) =
      some (some (.ok [.ok (.logs []), .ok (.logs [Log.ofRecord log]), .ok (.logs [])])) := by
    decide +kernel
  have hnoted : run.map (fun pool => ((pool.ghost ()).start, (pool.ghost ()).heads,
      pool.shared.chain.logsAt 1)) = some (0, [0, 1, 1], [log]) := by
    decide +kernel
  obtain ⟨pool, hrun, hresult⟩ := Option.map_eq_some_iff.mp hended
  rw [hrun, Option.map_some, Option.some.injEq] at hnoted
  simp only [Prod.mk.injEq] at hnoted
  obtain ⟨hstart, hheads, hlogs⟩ := hnoted
  have hdone := Prog.eq_pure_of_result hresult
  have hlog : log ∈ pool.shared.chain.logsAt 1 := by rw [hlogs]; exact List.mem_singleton_self _
  obtain ⟨_, honce, _⟩ := logs_delivered_once rfl (by decide +kernel) hrun hdone
  have hcount := (honce log 1 hlog (by decide +kernel) rfl (by rw [hstart]; decide)).2 2
    (.logs []) 1 rfl (by rw [hheads]; rfl) (Nat.le_refl 1)
  exact ⟨pool, _, log, hrun, hdone, hlog, hcount⟩

/-- The log of block 1 appears behind the query of the first poll and before its request for the
last block: no poll returns it, and the second one starts behind it.  The filter up to block 0
fails as soon as there is a block behind that. -/
theorem log_passed_over :
    (∃ (es : List (PoolEvent Unit ℕ ChainBlock)) (pool : SessionPool) (log log' : MirrorNodeLog),
      exec sessionProtocol.step (startSession {} (newFilter {} allLogs) 2 exampleChain) es =
          some pool ∧
        pool.prog () = .pure (.ok [.ok (.logs []), .ok (.logs [Log.ofRecord log'])]) ∧
        (pool.ghost ()).start = 0 ∧ (pool.ghost ()).heads = [0, 2] ∧
        pool.shared.chain.logsAt 1 = [log] ∧ (NewFilterParams.stored allLogs .latest).matches log = true ∧
        Log.ofRecord log ≠ Log.ofRecord log') ∧
    ∃ (es : List (PoolEvent Unit ℕ ChainBlock)) (pool : SessionPool),
      exec sessionProtocol.step
          (startSession {} (newFilter {} (allLogs (some (.hex "0x0")))) 2 exampleChain) es =
          some pool ∧
        pool.prog () = .pure (.ok [.ok (.logs []),
          .error (.jsonRpcError predefined.INVALID_BLOCK_RANGE)]) := by
  let log (n : ℕ) (address : String) : MirrorNodeLog :=
    { address, blockHash := s!"0xb{n}", blockNumber := n, data := "0x", index := 0
      timestamp := 2 * n * 10 ^ 9, topics := [], transactionHash := s!"0xt{n}"
      transactionIndex := 0 }
  constructor
  · let es : List (PoolEvent Unit ℕ ChainBlock) := answered 9 ++
      .env (exampleBlock 1 ["0xc1"]) :: answered 2 ++ .env (exampleBlock 2 ["0xc2"]) :: answered 5
    let run := exec sessionProtocol.step (startSession {} (newFilter {} allLogs) 2 exampleChain) es
    have hended : run.map (fun pool => (pool.prog ()).result) =
        some (some (.ok [.ok (.logs []), .ok (.logs [Log.ofRecord (log 2 "0xc2")])])) := by
      decide +kernel
    have hnoted : run.map (fun pool => ((pool.ghost ()).start, (pool.ghost ()).heads,
        pool.shared.chain.logsAt 1)) = some (0, [0, 2], [log 1 "0xc1"]) := by
      decide +kernel
    obtain ⟨pool, hrun, hresult⟩ := Option.map_eq_some_iff.mp hended
    rw [hrun, Option.map_some, Option.some.injEq] at hnoted
    simp only [Prod.mk.injEq] at hnoted
    obtain ⟨hstart, hheads, hlogs⟩ := hnoted
    exact ⟨es, pool, _, _, hrun, Prog.eq_pure_of_result hresult, hstart, hheads, hlogs,
      by decide +kernel, by decide +kernel⟩
  · let es : List (PoolEvent Unit ℕ ChainBlock) :=
      answered 13 ++ .env (exampleBlock 1) :: answered 5
    have hended : (exec sessionProtocol.step
        (startSession {} (newFilter {} (allLogs (some (.hex "0x0")))) 2 exampleChain) es).map
          (fun pool => (pool.prog ()).result) =
        some (some (.ok [.ok (.logs []),
          .error (.jsonRpcError predefined.INVALID_BLOCK_RANGE)])) := by
      decide +kernel
    obtain ⟨pool, hrun, hresult⟩ := Option.map_eq_some_iff.mp hended
    exact ⟨es, pool, hrun, Prog.eq_pure_of_result hresult⟩

end Session

end JsonRpcRelay.Filters
