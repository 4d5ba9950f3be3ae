import JsonRpcRelay.Filters.BlockFilter
import JsonRpcRelay.Filters.LogFilter

/-!
# Calls on one filter at the same time

A call reads the record of the filter, queries the mirror node, and writes the whole record
back.  As long as each call finds the record that it has read when it writes, a filter that was
uninstalled stays so and the cursor only grows.
-/

namespace JsonRpcRelay.Filters

open constants Mirror Common Framework
open Blocks (Log)

section Calls

inductive FilterCall where
  | getFilterChanges
  | getFilterLogs
  | uninstallFilter
  deriving DecidableEq

inductive CallReply where
  | changes (answer : Answer)
  | logs (logs : List Log)
  | uninstalled (found : Bool)
  deriving DecidableEq

def FilterCall.run (config : FilterConfig) : FilterCall → FilterM CallReply
  | .getFilterChanges => .changes <$> Filters.getFilterChanges config
  | .getFilterLogs => .logs <$> Filters.getFilterLogs config
  | .uninstallFilter => .uninstalled <$> Filters.uninstallFilter config

/-- The record of the filter that a call has read. -/
structure CallRecord where
  read : Option Filter

def CallRecord.note (l : CallRecord) : (op : FilterOp) → op.Reply → FilterState → FilterState →
    CallRecord
  | .getFilter, filter, _, _ => ⟨filter⟩
  | _, _, _, _ => l

abbrev callProtocol := filterProtocol CallRecord.note

abbrev CallPool (ι : Type) :=
  Pool ι FilterOp FilterOp.Reply (Except RelayError CallReply) FilterState CallRecord

def startCalls {ι : Type} (config : FilterConfig) (calls : ι → FilterCall) (s : FilterState) :
    CallPool ι where
  shared := s
  prog i := ((calls i).run config).run
  ghost _ := ⟨none⟩

end Calls

section Contract

/-- A cursor, where none stands before all others. -/
def CursorLe (a b : Option ℕ) : Prop := ∀ m, a = some m → ∃ n, b = some n ∧ m ≤ n

theorem CursorLe.refl (a : Option ℕ) : CursorLe a a := fun m h => ⟨m, h, Nat.le_refl m⟩

theorem CursorLe.trans {a b c : Option ℕ} (h : CursorLe a b) (h' : CursorLe b c) :
    CursorLe a c := by
  intro m hm
  obtain ⟨n, hn, hmn⟩ := h m hm
  obtain ⟨k, hk, hnk⟩ := h' n hn
  exact ⟨k, hk, hmn.trans hnk⟩

/-- The cursor of a filter does not lie behind the block that comes next. -/
structure Filter.Within (filter : Filter) (chain : Chain) : Prop where
  log : ∀ params, filter.params = .log params →
    params.Valid ∧ ∀ n, filter.lastQueried = some n → n ≤ chain.head + 1
  newBlock : ∀ blockAtCreation, filter.params = .newBlock blockAtCreation →
    ∀ n, filter.lastQueried = some n → n ≤ chain.head

theorem Filter.Within.mono {filter : Filter} {chain chain' : Chain} (h : filter.Within chain)
    (hext : chain.Extends chain') : filter.Within chain' where
  log params hparams :=
    ⟨(h.log params hparams).1, fun n hn =>
      ((h.log params hparams).2 n hn).trans (Nat.succ_le_succ hext.head_le)⟩
  newBlock b hparams n hn := (h.newBlock b hparams n hn).trans hext.head_le

/-- What no step does: a filter does not come back, and its cursor does not go back. -/
structure Keeps (s t : FilterState) : Prop where
  chain : s.chain.Extends t.chain
  gone : s.filter = none → t.filter = none
  cursor : ∀ f g, s.filter = some f → t.filter = some g → CursorLe f.lastQueried g.lastQueried
  within : (∀ f, s.filter = some f → f.Within s.chain) →
    ∀ g, t.filter = some g → g.Within t.chain

theorem Keeps.of_same {s t : FilterState} (hchain : s.chain.Extends t.chain)
    (hfilter : t.filter = s.filter) : Keeps s t where
  chain := hchain
  gone h := hfilter.trans h
  cursor f g hf hg := by
    rw [hfilter, hf] at hg
    cases hg
    exact CursorLe.refl _
  within h g hg := (h g (hfilter ▸ hg)).mono hchain

theorem Keeps.trans {s t u : FilterState} (h : Keeps s t) (h' : Keeps t u) : Keeps s u where
  chain := h.chain.trans h'.chain
  gone hs := h'.gone (h.gone hs)
  cursor f g hf hg := by
    cases ht : t.filter with
    | none =>
      rw [h'.gone ht] at hg
      cases hg
    | some k => exact (h.cursor f k hf ht).trans (h'.cursor k g ht hg)
  within hs := h'.within (h.within hs)

/-- A call writes back only while the record is the one that it has read. -/
def callCondition (l : CallRecord) (op : FilterOp) (s : FilterState) : Bool :=
  match op with
  | .setFilter _ => decide (s.filter = l.read)
  | _ => true

def callContract : FilterContract CallRecord.note where
  request l op s := callCondition l op s = true
  env _ _ := True
  rely := Keeps
  refl s := Keeps.of_same (Chain.Extends.refl s.chain) rfl
  trans _ _ _ := Keeps.trans
  env_rely b s t _ h := by
    obtain ⟨chain, hchain, rfl⟩ := Option.map_eq_some_iff.mp h
    exact Keeps.of_same (Chain.extends_of_append hchain) rfl

instance (l : CallRecord) (op : FilterOp) (s : FilterState) :
    Decidable (callContract.request l op s) :=
  inferInstanceAs (Decidable (callCondition l op s = true))

instance (b : ChainBlock) (s : FilterState) : Decidable (callContract.env b s) :=
  inferInstanceAs (Decidable True)

private theorem growing_calls : Growing callContract where
  rely _ _ h := h.chain
  note l op _ _ _ hop := by cases op <;> first | rfl | cases hop

end Contract

section Cursors

variable {config : FilterConfig} {l : CallRecord} {s v : FilterState} {params : LogFilterParams}
  {lastQueried : Option ℕ} {cursor : ℕ}

private theorem cursorLe_some_iff :
    CursorLe lastQueried (some cursor) ↔ ∀ n ∈ lastQueried, n ≤ cursor := by
  constructor
  · intro h n hn
    obtain ⟨m, hm, hnm⟩ := h n hn
    obtain rfl := Option.some.inj hm
    exact hnm
  · exact fun h n hn => ⟨cursor, rfl, h n hn⟩

/-- The logs of a poll are not before the cursor. -/
theorem le_of_startBlock {lookup : Lookup} {a : MirrorNodeBlock}
    (h : FoundAt callContract l lookup (startBlock params lastQueried).orLatest a s) :
    ∀ n ∈ lastQueried, n ≤ a.number := by
  rintro n rfl
  cases n with
  | zero => exact Nat.zero_le _
  | succ n => exact (h.named (n + 1) rfl).1.ge

private theorem LogChanges.cursorLe {logs : List Log}
    (h : LogChanges callContract l config params lastQueried s v (.ok (logs, cursor)))
    (hwithin : ∀ n ∈ lastQueried, n ≤ s.chain.head + 1) :
    CursorLe lastQueried (some cursor) ∧ cursor ≤ v.chain.head + 1 := by
  rw [cursorLe_some_iff]
  cases h with
  | @nothing t u hfound htu hok huv =>
    have hsu : s.chain.Extends u.chain := Chain.Extends.trans hfound.rely.chain htu.chain
    constructor
    · exact fun n hn => (hwithin n hn).trans (Nat.succ_le_succ hsu.head_le)
    · exact Nat.succ_le_succ huv.chain.head_le
  | logs hfound hlast =>
    cases hfound with
    | missing hmissing => cases hlast
    | @records a b t u records hbounds hle hrecords =>
      rw [List.getLast?_map] at hlast
      obtain ⟨last, hmem, rfl⟩ := Option.map_eq_some_iff.mp hlast
      obtain ⟨hbetween, _⟩ := (hrecords.mem_iff last).mp (List.mem_of_getLast? hmem)
      obtain ⟨ha, hb, hlog⟩ := hbetween.blockNumber
      have hhead := Chain.le_head_of_mem_logsAt hlog
      have hnumber : bigIntOfHex (Log.ofRecord last).blockNumber = last.blockNumber :=
        bigIntOfHex_numberTo0x _
      rw [hnumber]
      constructor
      · intro n hn
        have hn := le_of_startBlock hbounds.fromBlock n hn
        omega
      · exact Nat.succ_le_succ (hhead.trans hbounds.after.chain.head_le)

private theorem le_blockCursor (blockAtCreation : String) :
    ∀ n ∈ lastQueried, n ≤ blockCursor blockAtCreation lastQueried := by
  rintro n rfl
  cases n with
  | zero => exact Nat.zero_le _
  | succ n => exact Nat.le_refl _

private theorem BlockChanges.cursorLe {blockAtCreation : String} {hashes : List String}
    (h : BlockChanges callContract l (blockCursor blockAtCreation lastQueried) s v
      (.ok (hashes, cursor)))
    (hwithin : ∀ n ∈ lastQueried, n ≤ s.chain.head) :
    CursorLe lastQueried (some cursor) ∧ cursor ≤ v.chain.head := by
  rw [cursorLe_some_iff]
  cases h with
  | nothing hst hnil htu hok huv =>
    have hsu := (hst.chain.trans htu.chain).head_le
    exact ⟨fun n hn => (hwithin n hn).trans hsu, huv.chain.head_le⟩
  | page hst hlast htv =>
    obtain ⟨_, hlt, hle⟩ := Chain.take_blocksAfter_of_getLast? hlast
    constructor
    · exact fun n hn => (le_blockCursor blockAtCreation n hn).trans hlt.le
    · exact hle.trans htv.chain.head_le

end Cursors

section Verified

variable {config : FilterConfig} {l : CallRecord} {s : FilterState} {f g : Filter}

def FilterState.Sound (s : FilterState) : Prop := ∀ f, s.filter = some f → f.Within s.chain

/-- The write of a call that finds the record that it has read. -/
theorem keeps_setFilter (hread : s.filter = some f)
    (hcursor : CursorLe f.lastQueried g.lastQueried) (hwithin : g.Within s.chain) :
    Keeps s { s with filter := some g } where
  chain := Chain.Extends.refl s.chain
  gone h := by rw [hread] at h; cases h
  cursor f' g' hf' hg' := by
    rw [hread] at hf'
    cases hf'
    cases hg'
    exact hcursor
  within _ g' hg' := by
    cases hg'
    exact hwithin

private theorem keeps_deleteFilter (s : FilterState) : Keeps s { s with filter := none } where
  chain := Chain.Extends.refl s.chain
  gone _ := rfl
  cursor f g _ hg := by cases hg
  within _ g hg := by cases hg

private theorem wp_getFilter {α : Type} {next : Option Filter → FilterM α}
    {post : Except RelayError α → CallRecord → FilterState → Prop} (hs : s.Sound)
    (h : ∀ t, Keeps s t → t.Sound → callContract.wp (next t.filter).run post ⟨t.filter⟩ t) :
    callContract.wp (request .getFilter >>= next).run post l s := by
  apply wp_request
  intro t hst _ c r u hact
  cases hact
  exact ⟨Keeps.of_same (Chain.Extends.refl _) rfl, h t hst (hst.within hs)⟩

private theorem wp_setFilter {α : Type} {next : Unit → FilterM α}
    {post : Except RelayError α → CallRecord → FilterState → Prop}
    (hwrite : ∀ t, Keeps s t → CursorLe f.lastQueried g.lastQueried ∧ g.Within t.chain)
    (h : ∀ t, callContract.wp (next ()).run post ⟨some f⟩ t) :
    callContract.wp (request (.setFilter g) >>= next).run post ⟨some f⟩ s := by
  apply wp_request
  intro t hst hok c r u hact
  cases hact
  obtain ⟨hcursor, hwithin⟩ := hwrite t hst
  exact ⟨keeps_setFilter (of_decide_eq_true hok) hcursor hwithin, h _⟩

private theorem wp_handleChanges (hwithin : f.Within s.chain)
    {post : Except RelayError (Answer × ℕ) → CallRecord → FilterState → Prop}
    (herror : ∀ e v, post (.error e) l v)
    (hok : ∀ answer cursor v, CursorLe f.lastQueried (some cursor) →
      Filter.Within ⟨f.params, some cursor⟩ v.chain → post (.ok (answer, cursor)) l v) :
    callContract.wp (handleChanges config f).run post l s := by
  obtain ⟨params, lastQueried⟩ := f
  cases params with
  | log params =>
    obtain ⟨hvalid, hle⟩ := hwithin.log params rfl
    apply wp_map
    apply wp_handleLogFilterChanges growing_calls hvalid
    intro r v hr u hvu
    match r with
    | .error e => exact herror e u
    | .ok (logs, cursor) =>
      obtain ⟨hcursor, hhead⟩ := hr.cursorLe hle
      have hnext : Filter.Within ⟨.log params, some cursor⟩ v.chain := by
        constructor
        · rintro _ ⟨⟩
          exact ⟨hvalid, fun n hn => by obtain rfl := Option.some.inj hn; exact hhead⟩
        · rintro _ ⟨⟩
      exact hok _ cursor u hcursor (hnext.mono hvu.chain)
  | newBlock blockAtCreation =>
    apply wp_map
    apply wp_handleNewBlockFilterChanges growing_calls
    intro r v hr u hvu
    match r with
    | .error e => exact herror e u
    | .ok (hashes, cursor) =>
      obtain ⟨hcursor, hhead⟩ := hr.cursorLe (hwithin.newBlock _ rfl)
      have hnext : Filter.Within ⟨.newBlock blockAtCreation, some cursor⟩ v.chain := by
        constructor
        · rintro _ ⟨⟩
        · rintro _ ⟨⟩ n hn
          obtain rfl := Option.some.inj hn
          exact hhead
      exact hok _ cursor u hcursor (hnext.mono hvu.chain)

private theorem wp_getFilterChanges (hs : s.Sound) :
    callContract.wp (getFilterChanges config).run (fun _ _ _ => True) l s := by
  unfold getFilterChanges requireFiltersEnabled
  split
  · rw [pure_bind]
    apply wp_getFilter hs
    intro t _ ht
    split
    · exact wp_throw fun _ _ => trivial
    · rename_i filter hfilter
      rw [hfilter]
      apply wp_then
      apply wp_handleChanges (ht filter hfilter)
      · exact fun e v w hvw => trivial
      · intro answer cursor v hcursor hwithin
        apply wp_setFilter
        · exact fun w hvw => ⟨hcursor, hwithin.mono hvw.chain⟩
        · exact fun w => wp_return fun _ _ => trivial
  · exact wp_throw fun _ _ => trivial

private theorem wp_getFilterLogs (hs : s.Sound) :
    callContract.wp (getFilterLogs config).run (fun _ _ _ => True) l s := by
  unfold getFilterLogs requireFiltersEnabled
  split
  · rw [pure_bind]
    apply wp_getFilter hs
    intro t _ ht
    match hfilter : t.filter with
    | none => exact wp_throw fun _ _ => trivial
    | some ⟨.newBlock blockAtCreation, lastQueried⟩ => exact wp_throw fun _ _ => trivial
    | some ⟨.log params, lastQueried⟩ =>
      obtain ⟨hvalid, _⟩ := (ht _ hfilter).log params rfl
      apply wp_then
      apply wp_search growing_calls hvalid.fromBlock hvalid.toBlock hvalid.isSet
      intro r v hr
      cases r with
      | error e => exact fun _ _ => trivial
      | ok logs =>
        apply wp_setFilter
        · intro w hvw
          exact ⟨CursorLe.refl _, (ht _ hfilter).mono (hr.rely.chain.trans hvw.chain)⟩
        · exact fun w => wp_return fun _ _ => trivial
  · exact wp_throw fun _ _ => trivial

private theorem wp_uninstallFilter (hs : s.Sound) :
    callContract.wp (uninstallFilter config).run
      (fun r _ v => r = .ok true → v.filter = none) l s := by
  unfold uninstallFilter requireFiltersEnabled
  split
  · rw [pure_bind]
    apply wp_getFilter hs
    intro t _ _
    split
    · exact wp_return fun v _ hr => by cases hr
    · apply wp_request
      intro u _ _ c r v hact
      cases hact
      exact ⟨keeps_deleteFilter u, wp_return fun w hw _ => hw.gone rfl⟩
  · exact wp_throw fun v _ hr => by cases hr

private theorem wp_filterCall (call : FilterCall) (hs : s.Sound) :
    callContract.wp (call.run config).run
      (fun r _ v => r = .ok (.uninstalled true) → v.filter = none) l s := by
  cases call with
  | getFilterChanges =>
    apply wp_map
    apply Protocol.Contract.wp_mono (wp_getFilterChanges hs)
    intro r _ _ _ _ _ hr
    cases r <;> cases hr
  | getFilterLogs =>
    apply wp_map
    apply Protocol.Contract.wp_mono (wp_getFilterLogs hs)
    intro r _ _ _ _ _ hr
    cases r <;> cases hr
  | uninstallFilter =>
    apply wp_map
    apply Protocol.Contract.wp_mono (wp_uninstallFilter hs)
    intro r _ v hnone u hvu hr
    match r with
    | .error e => cases hr
    | .ok found =>
      cases hr
      exact hvu.gone (hnone rfl)

end Verified

section Creation

inductive Creation where
  | newFilter (params : NewFilterParams)
  | newBlockFilter

def Creation.run (config : FilterConfig) : Creation → FilterM Unit
  | .newFilter params => Filters.newFilter config params
  | .newBlockFilter => Filters.newBlockFilter config

variable {config : FilterConfig} {l : SessionRecord} {s : FilterState}
  {condition : SessionRecord → FilterOp → FilterState → Bool}

private theorem wp_creation (creation : Creation) (hnone : l.stored = none) :
    (sessionContract condition).wp (creation.run config).run (fun r l' v => r = .ok () →
      ∀ f ∈ l'.stored, f.Within v.chain) l s := by
  cases creation with
  | newFilter params =>
    apply Protocol.Contract.wp_mono (wp_newFilter params hnone)
    intro r l' v hr hdone f hf
    obtain ⟨_, _, _, fromBlock, hat⟩ := hr hdone
    obtain rfl := Option.some.inj (hat.stored.symm.trans hf)
    constructor
    · rintro _ ⟨⟩
      exact ⟨hat.valid, fun n hn => by cases hn⟩
    · rintro _ ⟨⟩
  | newBlockFilter =>
    apply Protocol.Contract.wp_mono (wp_newBlockFilter hnone)
    intro r l' v hr hdone f hf
    obtain ⟨_, _, hat⟩ := hr hdone
    obtain ⟨lastQueried, hstored, hcursor⟩ := hat.stored
    obtain rfl := Option.some.inj (hstored.symm.trans hf)
    constructor
    · rintro _ ⟨⟩
    · rintro _ ⟨⟩ n hn
      have hle := le_blockCursor (numberTo0x l'.start) n hn
      rw [hcursor] at hle
      exact hle.trans hat.le_head

private theorem sound_of_created {creation : Creation} {chain : Chain} {created : SessionPool}
    {es : List (PoolEvent Unit ℕ ChainBlock)}
    (hrun : exec sessionProtocol.step (startSession config (creation.run config) 0 chain) es =
      some created)
    (hdone : created.prog () = .pure (.ok [])) : created.shared.Sound := by
  have hsync : Synced (startSession config (creation.run config) 0 chain) := rfl
  have hok : Along sessionProtocol.step (fun _ _ => True)
      (startSession config (creation.run config) 0 chain) es := along_true _ _
  have hsynced : Synced created :=
    run_invariant (fun _ _ _ h _ hstep => synced_step h hstep) hsync hok hrun
  have hsession : (sessionContract (alone fun _ _ _ => true)).wp
      (session config (creation.run config) 0)
      (fun r l v => r = .ok [] → ∀ f ∈ l.stored, f.Within v.chain)
      { stored := none, start := 0, heads := [] } { chain, filter := none } := by
    apply Protocol.Contract.wp_seq (wp_creation creation rfl)
    intro r l v _ hr
    cases r with
    | error e => exact fun w _ h => by cases h
    | ok a => exact fun w hw _ => hr w hw rfl
  have hpermits : Along sessionProtocol.step (sessionContract fun _ _ _ => true).Permits
      (startSession config (creation.run config) 0 chain) es := by
    apply hok.mono
    intro pool e _
    cases e with
    | run i c => exact fun _ _ _ => rfl
    | env b => trivial
  intro f hf
  apply session_run hsession hsync hpermits hrun hdone rfl f
  rw [← hsynced]
  exact hf

end Creation

section Updates

variable {ι : Type} [DecidableEq ι] {config : FilterConfig} {calls : ι → FilterCall}
  {creation : Creation} {chain : Chain} {created : SessionPool}
  {es₀ : List (PoolEvent Unit ℕ ChainBlock)} {pool pool' : CallPool ι}
  {es es' : List (PoolEvent ι ℕ ChainBlock)}

/-- If no call writes back a record that has changed since it was read, a filter that was
uninstalled is not found again, and its cursor never goes back. -/
theorem filter_updates_in_order
    (hcreated : exec sessionProtocol.step (startSession config (creation.run config) 0 chain) es₀ =
      some created)
    (hdone : created.prog () = .pure (.ok []))
    (hok : Along callProtocol.step callContract.Permits (startCalls config calls created.shared)
      es)
    (hrun : exec callProtocol.step (startCalls config calls created.shared) es = some pool)
    (hok' : Along callProtocol.step callContract.Permits pool es')
    (hrun' : exec callProtocol.step pool es' = some pool') :
    ((∃ i, pool.prog i = .pure (.ok (.uninstalled true))) → pool'.shared.filter = none) ∧
      ∀ f g, pool.shared.filter = some f → pool'.shared.filter = some g →
        CursorLe f.lastQueried g.lastQueried := by
  have hsound := sound_of_created hcreated hdone
  have hstart : callContract.Verified
      (fun _ r _ v => r = .ok (.uninstalled true) → v.filter = none)
      (startCalls config calls created.shared) := fun i => wp_filterCall (calls i) hsound
  obtain ⟨hverified, _⟩ := callContract.verified_run hstart hok hrun
  obtain ⟨_, hkeeps⟩ := callContract.verified_run hverified hok' hrun'
  constructor
  · rintro ⟨i, hi⟩
    exact hkeeps.gone (Protocol.Contract.post_of_done hverified hi rfl)
  · exact hkeeps.cursor

def pollAndUninstall : Bool → FilterCall
  | true => .getFilterChanges
  | false => .uninstallFilter

/-- The state behind the creation of a block filter at block 0. -/
def newBlockFilterState : FilterState where
  chain := exampleChain
  filter := some ⟨.newBlock "0x0", none⟩

private theorem newBlockFilterState_created : ∃ created,
    exec sessionProtocol.step (startSession {} (Creation.newBlockFilter.run {}) 0 exampleChain)
        (answered 2) = some created ∧ created.prog () = .pure (.ok []) ∧
      created.shared = newBlockFilterState := by
  exact ⟨_, rfl, rfl, rfl⟩

/-- The next `n` requests of a call. -/
def requests (i : Bool) (n : ℕ) : List (PoolEvent Bool ℕ ChainBlock) := List.replicate n (.run i 0)

theorem filter_updates_in_order_pair : ∃ (pool pool' : CallPool Bool),
    exec callProtocol.step (startCalls {} pollAndUninstall newBlockFilterState)
        (requests true 4 ++ requests false 2) = some pool ∧
      exec callProtocol.step pool [.env (exampleBlock 1)] = some pool' ∧
      pool.prog false = .pure (.ok (.uninstalled true)) ∧ pool'.shared.filter = none := by
  obtain ⟨created, hcreated, hdone, hshared⟩ := newBlockFilterState_created
  let es := requests true 4 ++ requests false 2
  have hended : (exec callProtocol.step (startCalls {} pollAndUninstall newBlockFilterState) es).map
      (fun pool => (pool.prog false).result) = some (some (.ok (.uninstalled true))) := by
    decide +kernel
  obtain ⟨pool, hrun, hresult⟩ := Option.map_eq_some_iff.mp hended
  have huninstalled := Prog.eq_pure_of_result hresult
  have hgrown : (exec callProtocol.step (startCalls {} pollAndUninstall newBlockFilterState) es).bind
      (fun pool => exec callProtocol.step pool [.env (exampleBlock 1)]) |>.isSome := by
    decide +kernel
  rw [hrun, Option.bind_some] at hgrown
  obtain ⟨pool', hrun'⟩ := Option.isSome_iff_exists.mp hgrown
  refine ⟨pool, pool', hrun, hrun', huninstalled, ?_⟩
  have hok' : Along callProtocol.step callContract.Permits pool [.env (exampleBlock 1)] :=
    ⟨trivial, fun _ _ => trivial⟩
  have hok : Along callProtocol.step callContract.Permits
      (startCalls {} pollAndUninstall newBlockFilterState) es := by
    decide +kernel
  rw [← hshared] at hok hrun
  exact (filter_updates_in_order hcreated hdone hok hrun hok' hrun').1 ⟨false, huninstalled⟩

/-- A poll has read the record before it is deleted and stores it again.  Of two polls, the one
that has found less writes last. -/
theorem stale_record_written_back :
    (∃ (es es' : List (PoolEvent Bool ℕ ChainBlock)) (pool pool' : CallPool Bool) (f : Filter),
      exec callProtocol.step (startCalls {} pollAndUninstall newBlockFilterState) es =
          some pool ∧
        pool.prog false = .pure (.ok (.uninstalled true)) ∧
        exec callProtocol.step pool es' = some pool' ∧ pool'.shared.filter = some f) ∧
    ∃ (es es' : List (PoolEvent Bool ℕ ChainBlock)) (pool pool' : CallPool Bool) (f g : Filter),
      exec callProtocol.step (startCalls {} (fun _ => .getFilterChanges) newBlockFilterState) es =
          some pool ∧
        exec callProtocol.step pool es' = some pool' ∧ pool.shared.filter = some f ∧
        pool'.shared.filter = some g ∧ f.lastQueried = some 1 ∧ g.lastQueried = some 0 := by
  constructor
  · let start := startCalls {} pollAndUninstall newBlockFilterState
    let es := requests true 1 ++ requests false 2
    have hended : (exec callProtocol.step start es).map
        (fun pool => (pool.prog false).result) = some (some (.ok (.uninstalled true))) := by
      decide +kernel
    have hstored : ((exec callProtocol.step start es).bind fun pool =>
        exec callProtocol.step pool (requests true 3)).map (fun pool => pool.shared.filter) =
        some (some ⟨.newBlock "0x0", some 0⟩) := by
      decide +kernel
    obtain ⟨pool, hrun, hresult⟩ := Option.map_eq_some_iff.mp hended
    rw [hrun, Option.bind_some] at hstored
    obtain ⟨pool', hrun', hfilter⟩ := Option.map_eq_some_iff.mp hstored
    exact ⟨es, requests true 3, pool, pool', _, hrun, Prog.eq_pure_of_result hresult, hrun',
      hfilter⟩
  · let start := startCalls {} (fun _ : Bool => .getFilterChanges) newBlockFilterState
    let es := requests true 3 ++ .env (exampleBlock 1) :: requests false 3
    have hfirst : (exec callProtocol.step start es).map (fun pool => pool.shared.filter) =
        some (some ⟨.newBlock "0x0", some 1⟩) := by
      decide +kernel
    have hsecond : ((exec callProtocol.step start es).bind fun pool =>
        exec callProtocol.step pool (requests true 1)).map (fun pool => pool.shared.filter) =
        some (some ⟨.newBlock "0x0", some 0⟩) := by
      decide +kernel
    obtain ⟨pool, hrun, hfilter⟩ := Option.map_eq_some_iff.mp hfirst
    rw [hrun, Option.bind_some] at hsecond
    obtain ⟨pool', hrun', hfilter'⟩ := Option.map_eq_some_iff.mp hsecond
    exact ⟨es, requests true 1, pool, pool', _, _, hrun, hrun', hfilter, hfilter', rfl, rfl⟩

end Updates

end JsonRpcRelay.Filters
