import JsonRpcRelay.Filters.FilterService

/-!
# What the queries of a call find

The chain may grow before each request of a call.  The rules below follow a call from request
to request and say what its lookups and its log query have found, and in which states.  They
hold under any contract that lets the chain only grow.
-/

namespace JsonRpcRelay.Filters

open constants Mirror Common Framework
open Blocks (Log)

variable {L α β : Type}
  {note : L → (op : FilterOp) → op.Reply → FilterState → FilterState → L}

abbrev FilterContract (note : L → (op : FilterOp) → op.Reply → FilterState → FilterState → L) :=
  (filterProtocol note).Contract

def FilterOp.isQuery : FilterOp → Bool
  | .getFilter | .setFilter _ | .deleteFilter => false
  | _ => true

/-- The chain only grows, and queries leave no note. -/
structure Growing (K : FilterContract note) : Prop where
  rely : ∀ s t, K.rely s t → s.chain.Extends t.chain
  note : ∀ l op reply s t, op.isQuery = true → note l op reply s t = l

section Rules

variable {K : FilterContract note} {l : L} {s : FilterState}
  {post : Except RelayError α → L → FilterState → Prop}

theorem wp_return {a : α} (h : ∀ t, K.rely s t → post (.ok a) l t) :
    K.wp (pure a : FilterM α).run post l s := h

theorem wp_throw {e : RelayError} (h : ∀ t, K.rely s t → post (.error e) l t) :
    K.wp (throw e : FilterM α).run post l s := h

/-- What a part returns is passed on, and what it throws ends the whole. -/
theorem wp_then {x : FilterM α} {f : α → FilterM β}
    {post : Except RelayError β → L → FilterState → Prop}
    (h : K.wp x.run (fun r l t => match r with
      | .ok a => K.wp (f a).run post l t
      | .error e => ∀ u, K.rely t u → post (.error e) l u) l s) :
    K.wp (x >>= f).run post l s := by
  rw [ExceptT.run_bind]
  apply Protocol.Contract.wp_bind
  apply Protocol.Contract.wp_mono h
  intro r l t hr
  cases r with
  | ok a => exact hr
  | error e => exact hr

theorem wp_map {x : FilterM α} {f : α → β} {post : Except RelayError β → L → FilterState → Prop}
    (h : K.wp x.run (fun r l t => ∀ u, K.rely t u → post (r.map f) l u) l s) :
    K.wp (f <$> x).run post l s := by
  apply Protocol.Contract.wp_run_map
  apply Protocol.Contract.wp_mono h
  exact fun r l t hr => hr t (K.refl t)

theorem wp_rethrow {x : FilterM α} {f : RelayError → RelayError}
    (h : K.wp x.run (fun r l t => ∀ u, K.rely t u → post (r.mapError f) l u) l s) :
    K.wp (tryCatch x fun e => throw (f e)).run post l s := by
  apply Protocol.Contract.wp_run_tryCatch h
  · exact fun a l' t _ hpost => hpost t (K.refl t)
  · exact fun e l' t _ hpost => wp_throw hpost

theorem wp_request {op : FilterOp} {f : op.Reply → FilterM β}
    {post : Except RelayError β → L → FilterState → Prop}
    (h : ∀ t, K.rely s t → K.request l op t → ∀ c r u, FilterState.act op c t = some (r, u) →
      K.rely t u ∧ K.wp (f r).run post (note l op r t u) u) :
    K.wp (request op >>= f).run post l s := h

private theorem act_query {op : FilterOp} (hop : op.isQuery = true) {c : ℕ}
    {r : op.Reply} {t u : FilterState} (h : FilterState.act op c t = some (r, u)) : u = t := by
  cases op with
  | getFilter => cases hop
  | setFilter filter => cases hop
  | deleteFilter => cases hop
  | getLatestBlock lookup => cases h; rfl
  | getBlock lookup id => cases h; rfl
  | getBlocks gt => cases h; rfl
  | getLogs address params => cases h; rfl

theorem wp_ask {op : FilterOp} {post : Except RelayError op.Reply → L → FilterState → Prop}
    (h : ∀ t, K.rely s t → K.request l op t → ∀ c r u, FilterState.act op c t = some (r, u) →
      K.rely t u ∧ ∀ v, K.rely u v → post (.ok r) (note l op r t u) v) :
    K.wp (request op).run post l s := h

private theorem wp_query (hK : Growing K) {op : FilterOp} (hop : op.isQuery = true)
    {post : Except RelayError op.Reply → L → FilterState → Prop}
    (h : ∀ t, K.rely s t → K.request l op t → ∀ c r, FilterState.act op c t = some (r, t) →
      ∀ u, K.rely t u → post (.ok r) l u) :
    K.wp (request op).run post l s := by
  intro t hst hok c r u hr
  obtain rfl := act_query hop hr
  refine ⟨K.refl u, ?_⟩
  rw [show (filterProtocol note).note l op r u u = l from hK.note l op r u u hop]
  exact h u hst hok c r hr

private theorem wp_mapM {α β : Type} {f : α → FilterM β} {R : α → β → Prop} {xs : List α}
    (h : ∀ x ∈ xs, ∀ u, K.rely s u → ∀ {post : Except RelayError β → L → FilterState → Prop},
      (∀ b v, R x b → K.rely u v → post (.ok b) l v) → K.wp (f x).run post l u)
    {post : Except RelayError (List β) → L → FilterState → Prop}
    (hpost : ∀ bs v, List.Forall₂ R xs bs → K.rely s v → post (.ok bs) l v) :
    K.wp (xs.mapM f).run post l s := by
  induction xs generalizing s post with
  | nil => exact wp_return fun v hv => hpost [] v .nil hv
  | cons x xs ih =>
    rw [List.mapM_cons]
    apply wp_then
    apply h x List.mem_cons_self s (K.refl s)
    intro b u hb hsu
    apply wp_then
    apply ih
    · exact fun y hy v huv => h y (List.mem_cons_of_mem x hy) v (K.trans _ _ _ hsu huv)
    · intro bs v hbs huv
      exact wp_return fun w hvw =>
        hpost (b :: bs) w (.cons hb hbs) (K.trans _ _ _ hsu (K.trans _ _ _ huv hvw))

end Rules

section Lookups

variable {K : FilterContract note} {l : L} {s : FilterState}

/-- What a lookup between the states `s` and `v` has found. -/
inductive LookedUp (K : FilterContract note) (l : L) (lookup : Lookup) (s v : FilterState) :
    BlockParam → Option MirrorNodeBlock → Prop where
  | latest {param : BlockParam} {t : FilterState} (htag : blockTagIsLatestOrPending param = true)
      (hst : K.rely s t) (hok : K.request l (.getLatestBlock lookup) t) (htv : K.rely t v) :
      LookedUp K l lookup s v param (some t.chain.latest)
  | block {param : BlockParam} {n : ℕ} {t : FilterState} (hn : param.blockNumber = some n)
      (hst : K.rely s t) (hok : K.request l (.getBlock lookup (.number n)) t)
      (htv : K.rely t v) : LookedUp K l lookup s v param (t.chain.block? n)
  | beyond {param : BlockParam} {n : ℕ} {t : FilterState} (hn : param.blockNumber = some n)
      (hst : K.rely s t) (hlt : t.chain.head < n) (htv : K.rely t v) :
      LookedUp K l lookup s v param none

variable (hK : Growing K) {config : CommonConfig} {lookup : Lookup}

include hK

private theorem wp_getLatestBlock
    {post : Except RelayError (Option (List MirrorNodeBlock)) → L → FilterState → Prop}
    (h : ∀ t u, K.rely s t → K.request l (.getLatestBlock lookup) t → K.rely t u →
      post (.ok (some [t.chain.latest])) l u) :
    K.wp (mirrorNodeClient.getLatestBlock lookup).run post l s := by
  apply wp_query hK rfl
  intro t hst hok c r hr u htu
  cases hr
  exact h t u hst hok htu

private theorem wp_getBlock {id : BlockId}
    {post : Except RelayError (Option MirrorNodeBlock) → L → FilterState → Prop}
    (h : ∀ t u, K.rely s t → K.request l (.getBlock lookup id) t → K.rely t u →
      post (.ok (findBlock t.chain id)) l u) :
    K.wp (mirrorNodeClient.getBlock lookup id).run post l s := by
  apply wp_query hK rfl
  intro t hst hok c r hr u htu
  cases hr
  exact h t u hst hok htu

private theorem wp_latestBlock
    {post : Except RelayError (Option MirrorNodeBlock) → L → FilterState → Prop}
    (h : ∀ t u, K.rely s t → K.request l (.getLatestBlock lookup) t → K.rely t u →
      post (.ok (some t.chain.latest)) l u) :
    K.wp (latestBlock mirrorNodeClient lookup).run post l s := by
  apply wp_then
  apply wp_getLatestBlock hK
  intro t u hst hok htu
  exact wp_return fun v huv => h t v hst hok (K.trans _ _ _ htu huv)

theorem wp_getLatestBlockNumber {post : Except RelayError String → L → FilterState → Prop}
    (h : ∀ t u, K.rely s t → K.request l (.getLatestBlock lookup) t → K.rely t u →
      post (.ok (numberTo0x t.chain.head)) l u) :
    K.wp (getLatestBlockNumber mirrorNodeClient lookup).run post l s := by
  apply wp_then
  apply wp_getLatestBlock hK
  intro t u hst hok htu
  refine wp_return fun v huv => ?_
  rw [Chain.number_latest]
  exact h t v hst hok (K.trans _ _ _ htu huv)

private theorem wp_getBlockWithinRange {n : ℕ}
    {post : Except RelayError (Option MirrorNodeBlock) → L → FilterState → Prop}
    (hfound : ∀ t u, K.rely s t → K.request l (.getBlock lookup (.number n)) t → K.rely t u →
      post (.ok (t.chain.block? n)) l u)
    (hbeyond : ∀ t u, K.rely s t → t.chain.head < n → K.rely t u → post (.ok none) l u) :
    K.wp (getBlockWithinRange config mirrorNodeClient lookup n).run post l s := by
  apply wp_then
  apply wp_latestBlock hK
  intro t u hst _ htu
  show K.wp (if t.chain.latest.number + config.maxBlockRange < n then _ else _ :
    FilterM (Option MirrorNodeBlock)).run post l u
  split
  · rename_i hlt
    refine wp_return fun v huv => hbeyond t v hst ?_ (K.trans _ _ _ htu huv)
    rw [Chain.number_latest] at hlt
    omega
  · apply wp_getBlock hK
    intro v w huv hok hvw
    exact hfound v w (K.trans _ _ _ hst (K.trans _ _ _ htu huv)) hok hvw

theorem wp_getHistoricalBlockResponse {param : BlockParam} (hparam : param.Named)
    {post : Except RelayError (Option MirrorNodeBlock) → L → FilterState → Prop}
    (h : ∀ r u, LookedUp K l lookup s u param r → post (.ok r) l u) :
    K.wp (getHistoricalBlockResponse config mirrorNodeClient lookup (some param)).run post l s := by
  have hlatest (htag : blockTagIsLatestOrPending param = true) :
      K.wp (latestBlock mirrorNodeClient lookup).run post l s := by
    apply wp_latestBlock hK
    exact fun t u hst hok htu => h _ u (.latest htag hst hok htu)
  cases param with
  | earliest =>
    apply wp_getBlock hK
    exact fun t u hst hok htu => h _ u (.block rfl hst hok htu)
  | latest => exact hlatest rfl
  | pending => exact hlatest rfl
  | safe => exact hlatest rfl
  | finalized => exact hlatest rfl
  | hex text =>
    have htext : text ≠ EMPTY_HEX := fun htext => hparam.2 (by rw [htext])
    show K.wp (if text = EMPTY_HEX then _ else _ : FilterM (Option MirrorNodeBlock)).run post l s
    rw [if_neg htext]
    apply wp_getBlockWithinRange hK
    · exact fun t u hst hok htu => h _ u (.block rfl hst hok htu)
    · exact fun t u hst hlt htu => h _ u (.beyond rfl hst hlt htu)
  | hash text => exact absurd rfl (hparam.1 text)
  | number n =>
    apply wp_getBlock hK
    exact fun t u hst hok htu => h _ u (.block rfl hst hok htu)

end Lookups

section Ranges

variable {K : FilterContract note} {l : L} {s u v : FilterState} {config : CommonConfig}
  {fromBlock toBlock : BlockParam} {address : AddressFilter}

/-- A block that was found is on the chain, and under which condition it was asked for. -/
structure FoundAt (K : FilterContract note) (l : L) (lookup : Lookup) (param : BlockParam)
    (b : MirrorNodeBlock) (t : FilterState) : Prop where
  block : t.chain.block? b.number = some b
  named : ∀ n, param.blockNumber = some n →
    b.number = n ∧ K.request l (.getBlock lookup (.number n)) t
  latest : param.blockNumber = none →
    b.number = t.chain.head ∧ K.request l (.getLatestBlock lookup) t

theorem LookedUp.found {lookup : Lookup} {b : MirrorNodeBlock}
    (h : LookedUp K l lookup s v fromBlock (some b)) :
    ∃ t, K.rely s t ∧ K.rely t v ∧ FoundAt K l lookup fromBlock b t := by
  generalize hr : some b = r at h
  cases h with
  | @latest t htag hst hok htv =>
    cases hr
    refine ⟨t, hst, htv, ?_, ?_, fun _ => ⟨t.chain.number_latest, hok⟩⟩
    · rw [Chain.number_latest]
      exact t.chain.block?_head
    · intro n hn
      cases fromBlock <;> cases htag <;> cases hn
  | @block n t hn hst hok htv =>
    obtain rfl := Chain.number_of_block? hr.symm
    refine ⟨t, hst, htv, hr.symm, ?_, ?_⟩
    · intro m hm
      obtain rfl := Option.some.inj (hn.symm.trans hm)
      exact ⟨rfl, hok⟩
    · intro hnone
      rw [hn] at hnone
      cases hnone
  | beyond hn hst hlt htv => cases hr

/-- A block that was not found was not there yet. -/
theorem LookedUp.missing {lookup : Lookup} (h : LookedUp K l lookup s v fromBlock none) :
    ∃ t n, K.rely s t ∧ K.rely t v ∧ fromBlock.blockNumber = some n ∧ t.chain.head < n := by
  generalize hr : none = r at h
  cases h with
  | latest htag hst hok htv => cases hr
  | @block n t hn hst hok htv =>
    exact ⟨t, n, hst, htv, hn, Chain.block?_eq_none_iff.mp hr.symm⟩
  | @beyond n t hn hst hlt htv => exact ⟨t, n, hst, htv, hn, hlt⟩

/-- The outcome of the validation of a range. -/
inductive Validated (K : FilterContract note) (l : L) (config : CommonConfig)
    (fromBlock toBlock : BlockParam) (address : AddressFilter) (s v : FilterState) :
    Except RelayError (Option (Timestamp × Timestamp)) → Prop where
  | fromMissing (h : LookedUp K l .fromBlock s v fromBlock.orLatest none) :
      Validated K l config fromBlock toBlock address s v (.ok none)
  | single {b : MirrorNodeBlock} (heq : fromBlock.orLatest = toBlock.orLatest)
      (h : LookedUp K l .fromBlock s v fromBlock.orLatest (some b)) :
      Validated K l config fromBlock toBlock address s v
        (.ok (some (b.timestampFrom, b.timestampTo)))
  | toMissing {u : FilterState} {a : MirrorNodeBlock}
      (hfrom : LookedUp K l .fromBlock s u fromBlock.orLatest (some a))
      (hto : LookedUp K l .toBlock u v toBlock.orLatest none) :
      Validated K l config fromBlock toBlock address s v (.ok none)
  | rejected {u : FilterState} {a b : MirrorNodeBlock} {e : RelayError}
      (hfrom : LookedUp K l .fromBlock s u fromBlock.orLatest (some a))
      (hto : LookedUp K l .toBlock u v toBlock.orLatest (some b))
      (hcheck : checkRange config address a b = .error e) :
      Validated K l config fromBlock toBlock address s v (.error e)
  | range {u : FilterState} {a b : MirrorNodeBlock}
      (hfrom : LookedUp K l .fromBlock s u fromBlock.orLatest (some a))
      (hto : LookedUp K l .toBlock u v toBlock.orLatest (some b))
      (hcheck : checkRange config address a b = .ok ()) :
      Validated K l config fromBlock toBlock address s v
        (.ok (some (a.timestampFrom, b.timestampTo)))

theorem LookedUp.stable {lookup : Lookup} {r : Option MirrorNodeBlock}
    (h : LookedUp K l lookup s u fromBlock r) (huv : K.rely u v) :
    LookedUp K l lookup s v fromBlock r := by
  cases h with
  | latest htag hst hok htu => exact .latest htag hst hok (K.trans _ _ _ htu huv)
  | block hn hst hok htu => exact .block hn hst hok (K.trans _ _ _ htu huv)
  | beyond hn hst hlt htu => exact .beyond hn hst hlt (K.trans _ _ _ htu huv)

theorem LookedUp.earlier {lookup : Lookup} {r : Option MirrorNodeBlock} (hsu : K.rely s u)
    (h : LookedUp K l lookup u v fromBlock r) : LookedUp K l lookup s v fromBlock r := by
  cases h with
  | latest htag hst hok htu => exact .latest htag (K.trans _ _ _ hsu hst) hok htu
  | block hn hst hok htu => exact .block hn (K.trans _ _ _ hsu hst) hok htu
  | beyond hn hst hlt htu => exact .beyond hn (K.trans _ _ _ hsu hst) hlt htu

theorem LookedUp.rely {lookup : Lookup} {r : Option MirrorNodeBlock}
    (h : LookedUp K l lookup s v fromBlock r) : K.rely s v := by
  cases h with
  | latest _ hst _ htv => exact K.trans _ _ _ hst htv
  | block _ hst _ htv => exact K.trans _ _ _ hst htv
  | beyond _ hst _ htv => exact K.trans _ _ _ hst htv

theorem Validated.rely
    {r : Except RelayError (Option (Timestamp × Timestamp))}
    (h : Validated K l config fromBlock toBlock address s v r) : K.rely s v := by
  cases h with
  | fromMissing h => exact h.rely
  | single _ h => exact h.rely
  | toMissing hfrom hto => exact K.trans _ _ _ hfrom.rely hto.rely
  | rejected hfrom hto _ => exact K.trans _ _ _ hfrom.rely hto.rely
  | range hfrom hto _ => exact K.trans _ _ _ hfrom.rely hto.rely

variable (hK : Growing K)

include hK

theorem wp_requireFromBlock {fromParam toParam : Option BlockParam}
    (hfrom : isMissing fromParam = false)
    {post : Except RelayError Unit → L → FilterState → Prop}
    (h : ∀ u, K.rely s u → post (.ok ()) l u) :
    K.wp (requireFromBlock mirrorNodeClient fromParam toParam : FilterM Unit).run post l s := by
  unfold requireFromBlock
  split
  · exact wp_return h
  · apply wp_then
    apply wp_getLatestBlockNumber hK
    intro t u hst _ htu
    rw [hfrom]
    simp only [Bool.false_eq_true, and_false, if_false]
    exact wp_return fun v huv => h v (K.trans _ _ _ hst (K.trans _ _ _ htu huv))

private theorem wp_timestampRangeFrom {b : MirrorNodeBlock} (hto : toBlock.Named)
    (hb : LookedUp K l .fromBlock s u fromBlock.orLatest (some b))
    {post : Except RelayError (Option (Timestamp × Timestamp)) → L → FilterState → Prop}
    (h : ∀ r v, Validated K l config fromBlock toBlock address s v r → post r l v) :
    K.wp (timestampRangeFrom config mirrorNodeClient (some fromBlock.orLatest)
      (some toBlock.orLatest) address b : FilterM _).run post l u := by
  unfold timestampRangeFrom
  split
  · rename_i heq
    exact wp_return fun v huv => h _ v (.single (Option.some.inj heq) (hb.stable huv))
  · apply wp_then
    apply wp_getHistoricalBlockResponse hK hto.orLatest
    intro r v hr
    cases r with
    | none => exact wp_return fun w hvw => h _ w (.toMissing hb (hr.stable hvw))
    | some c =>
      cases hcheck : checkRange config address b c with
      | error e =>
        simp only [hcheck]
        exact wp_throw fun w hvw => h _ w (.rejected hb (hr.stable hvw) hcheck)
      | ok _ =>
        simp only [hcheck]
        exact wp_return fun w hvw => h _ w (.range hb (hr.stable hvw) hcheck)

private theorem wp_validateBlockRangeAndAddTimestampToParams (hfrom : fromBlock.Named)
    (hto : toBlock.Named) (hset : isMissing (some fromBlock) = false)
    {post : Except RelayError (Option (Timestamp × Timestamp)) → L → FilterState → Prop}
    (h : ∀ r v, Validated K l config fromBlock toBlock address s v r → post r l v) :
    K.wp (validateBlockRangeAndAddTimestampToParams config mirrorNodeClient (some fromBlock)
      (some toBlock) address : FilterM _).run post l s := by
  unfold validateBlockRangeAndAddTimestampToParams
  apply wp_then
  apply wp_requireFromBlock hK hset
  intro u hsu
  rw [latestIfTag_some, latestIfTag_some]
  apply wp_then
  apply wp_getHistoricalBlockResponse hK hfrom.orLatest
  intro r v hr
  replace hr := hr.earlier hsu
  cases r with
  | none => exact wp_return fun w hvw => h _ w (.fromMissing (hr.stable hvw))
  | some b => exact wp_timestampRangeFrom hK hto hr h

end Ranges

section Bounds

variable {K : FilterContract note} {l : L} {s t v : FilterState} {config : CommonConfig}
  {fromBlock toBlock : BlockParam} {address : AddressFilter} {a b : MirrorNodeBlock}

/-- The two blocks of a range, found in the states `t` and `u` one after the other. -/
structure BoundsFound (K : FilterContract note) (l : L) (fromBlock toBlock : BlockParam)
    (s v : FilterState) (a b : MirrorNodeBlock) (t u : FilterState) : Prop where
  before : K.rely s t
  between : K.rely t u
  after : K.rely u v
  fromBlock : FoundAt K l .fromBlock fromBlock.orLatest a t
  toBlock : ∃ lookup, FoundAt K l lookup toBlock.orLatest b u

theorem boundsFound_of_lookups {u : FilterState}
    (hfrom : LookedUp K l .fromBlock s u fromBlock.orLatest (some a))
    (hto : LookedUp K l .toBlock u v toBlock.orLatest (some b)) :
    ∃ t w, BoundsFound K l fromBlock toBlock s v a b t w := by
  obtain ⟨t, hst, htu, ha⟩ := hfrom.found
  obtain ⟨w, huw, hwv, hb⟩ := hto.found
  exact ⟨t, w, hst, K.trans _ _ _ htu huw, hwv, ha, _, hb⟩

private theorem le_of_checkRange (h : checkRange config address a b = .ok ()) :
    a.number ≤ b.number := by
  unfold checkRange at h
  split_ifs at h
  omega

/-- A range that was validated lies between two blocks of the chain. -/
theorem Validated.bounds {range : Timestamp × Timestamp}
    (h : Validated K l config fromBlock toBlock address s v (.ok (some range))) :
    ∃ a b t u, BoundsFound K l fromBlock toBlock s v a b t u ∧ a.number ≤ b.number ∧
      range = (a.timestampFrom, b.timestampTo) := by
  cases h with
  | @single b heq h =>
    obtain ⟨t, hst, htv, hb⟩ := h.found
    exact ⟨b, b, t, t, ⟨hst, K.refl t, htv, hb, .fromBlock, heq ▸ hb⟩, Nat.le_refl _, rfl⟩
  | @range u a b hfrom hto hcheck =>
    obtain ⟨t, w, hbounds⟩ := boundsFound_of_lookups hfrom hto
    exact ⟨a, b, t, w, hbounds, le_of_checkRange hcheck, rfl⟩

end Bounds

section Records

variable {K : FilterContract note} {l : L} {s t : FilterState} {config : CommonConfig}
  {address : AddressFilter} {topics : Option (List TopicFilter)} {m n : ℕ} {a b : MirrorNodeBlock}

/-- The records of the blocks `m` to `n` that an address and topics select, in the order of
their timestamps. -/
structure Queried (chain : Chain) (selects : MirrorNodeLog → Bool) (m n : ℕ)
    (records : List MirrorNodeLog) : Prop where
  mem_iff : ∀ log, log ∈ records ↔ LogBetween chain m n log ∧ selects log = true
  ordered : records.Pairwise fun l l' => l.timestamp ≤ l'.timestamp

theorem Queried.empty {chain : Chain} {selects : MirrorNodeLog → Bool}
    (h : ∀ log, selects log = false) : Queried chain selects m n [] :=
  ⟨fun log => by simp [h log], List.Pairwise.nil⟩

/-- The answers of several queries, put into one order. -/
theorem queried_mergeSort {chain : Chain} {addresses : List String}
    {selects : String → MirrorNodeLog → Bool} {results : List (List MirrorNodeLog)}
    (h : List.Forall₂ (fun address => Queried chain (selects address) m n) addresses results) :
    Queried chain (fun log => addresses.any (selects · log)) m n
      (results.flatten.mergeSort fun a b => a.timestamp ≤ b.timestamp) := by
  constructor
  · intro log
    rw [List.mem_mergeSort]
    induction h with
    | nil => simp
    | cons hhead _ ih => simp [ih, hhead.mem_iff, and_or_left]
  · have hsorted : (results.flatten.mergeSort fun a b => a.timestamp ≤ b.timestamp).Pairwise
        fun a b => decide (a.timestamp ≤ b.timestamp) = true := by
      apply List.pairwise_mergeSort
      · intro a b c hab hbc
        exact decide_eq_true ((of_decide_eq_true hab).trans (of_decide_eq_true hbc))
      · intro a b
        rw [Bool.or_eq_true, decide_eq_true_eq, decide_eq_true_eq]
        exact Nat.le_total _ _
    exact hsorted.imp of_decide_eq_true

variable (hK : Growing K)

include hK

private theorem wp_getLogs {address : Option String} {params : LogParams}
    {post : Except RelayError (List MirrorNodeLog) → L → FilterState → Prop}
    (h : ∀ t u, K.rely s t → K.rely t u → post (.ok (queryChain t.chain address params)) l u) :
    K.wp (mirrorNodeClient.getLogs address params).run post l s := by
  apply wp_query hK rfl
  intro t hst _ c r hr u htu
  cases hr
  exact h t u hst htu

private theorem wp_getLogs_range (hts : K.rely t s) (ha : t.chain.block? m = some a)
    (hb : t.chain.block? n = some b) {address : Option String} {topics : List (ℕ × List String)}
    {post : Except RelayError (List MirrorNodeLog) → L → FilterState → Prop}
    (h : ∀ records u, Queried t.chain (fun log => address.all (emittedAt · log) &&
        LogParams.selects ⟨a.timestampFrom, b.timestampTo, topics⟩ log) m n records →
      K.rely s u → post (.ok records) l u) :
    K.wp (mirrorNodeClient.getLogs address ⟨a.timestampFrom, b.timestampTo, topics⟩).run
      post l s := by
  apply wp_getLogs hK
  intro u v hsu huv
  have hext := hK.rely _ _ (K.trans _ _ _ hts hsu)
  have hm := Chain.exists_block?_iff.mp ⟨a, ha⟩
  have hn := Chain.exists_block?_iff.mp ⟨b, hb⟩
  apply h _ v _ (K.trans _ _ _ hsu huv)
  constructor
  · intro log
    rw [mem_queryChain ((hext.block?_eq hm).trans ha) ((hext.block?_eq hn).trans hb),
      logBetween_iff_of_extends hext hn, Bool.and_eq_true]
  · exact pairwise_queryChain _ _

variable {params : List (ℕ × List String)}

private theorem wp_getContractResultsLogsByAddress (hts : K.rely t s)
    (ha : t.chain.block? m = some a)
    (hb : t.chain.block? n = some b) (hparams : addTopicsToParams topics = .ok params)
    {address : String} {post : Except RelayError (List MirrorNodeLog) → L → FilterState → Prop}
    (h : ∀ records u, Queried t.chain (fun log =>
        decide (address ≠ ZERO_ADDRESS_HEX ∧ emittedAt address log) && matchesTopics topics log)
        m n records → K.rely s u → post (.ok records) l u) :
    K.wp (getContractResultsLogsByAddress mirrorNodeClient
      ⟨a.timestampFrom, b.timestampTo, params⟩ address).run post l s := by
  unfold getContractResultsLogsByAddress
  split
  · rename_i hzero
    exact wp_return fun u hsu => h [] u (.empty fun log => by simp [hzero]) hsu
  · rename_i hne
    apply wp_getLogs_range hK hts ha hb
    intro records u hrecords hsu
    apply h records u _ hsu
    simpa [hne, selects_of_addTopicsToParams hparams] using hrecords

private theorem wp_getLogsByAddress (hts : K.rely t s) (ha : t.chain.block? m = some a)
    (hb : t.chain.block? n = some b) (hparams : addTopicsToParams topics = .ok params)
    {addresses : List String}
    {post : Except RelayError (List MirrorNodeLog) → L → FilterState → Prop}
    (h : ∀ records u, Queried t.chain (fun log =>
        (AddressFilter.many addresses).matches log && matchesTopics topics log) m n records →
      K.rely s u → post (.ok records) l u) :
    K.wp (getLogsByAddress mirrorNodeClient addresses
      ⟨a.timestampFrom, b.timestampTo, params⟩).run post l s := by
  apply wp_then
  apply wp_mapM (R := fun address => Queried t.chain (fun log =>
    decide (address ≠ ZERO_ADDRESS_HEX ∧ emittedAt address log) && matchesTopics topics log) m n)
  · intro address _ u hsu post hpost
    exact wp_getContractResultsLogsByAddress hK (K.trans _ _ _ hts hsu) ha hb hparams hpost
  · intro results u hresults hsu
    refine wp_return fun v huv => h _ v ?_ (K.trans _ _ _ hsu huv)
    have hsorted := queried_mergeSort hresults
    rw [show (fun log => addresses.any fun address =>
        decide (address ≠ ZERO_ADDRESS_HEX ∧ emittedAt address log) && matchesTopics topics log) =
        fun log => (AddressFilter.many addresses).matches log && matchesTopics topics log from
      funext fun log => List.and_any_distrib_right.symm] at hsorted
    exact hsorted

private theorem wp_getLogRecords (hts : K.rely t s) (ha : t.chain.block? m = some a)
    (hb : t.chain.block? n = some b) (hparams : addTopicsToParams topics = .ok params)
    {post : Except RelayError (List MirrorNodeLog) → L → FilterState → Prop}
    (h : ∀ records u, Queried t.chain (fun log => address.matches log && matchesTopics topics log)
      m n records → K.rely s u → post (.ok records) l u) :
    K.wp (getLogRecords mirrorNodeClient address
      ⟨a.timestampFrom, b.timestampTo, params⟩).run post l s := by
  have hall (hmatches : ∀ log, address.matches log = true) :
      K.wp (mirrorNodeClient.getLogs none ⟨a.timestampFrom, b.timestampTo, params⟩).run
        post l s := by
    apply wp_getLogs_range hK hts ha hb
    intro records u hrecords
    apply h records u
    simpa [hmatches, selects_of_addTopicsToParams hparams] using hrecords
  cases address with
  | none => exact hall fun _ => rfl
  | one address =>
    show K.wp (if address = "" then _ else _ : FilterM _).run post l s
    split
    · rename_i hempty
      exact hall fun log => by simp [AddressFilter.matches, hempty]
    · rename_i hne
      apply wp_getLogsByAddress hK hts ha hb hparams
      intro records u hrecords
      apply h records u
      simpa [AddressFilter.matches, hne] using hrecords
  | many addresses => exact wp_getLogsByAddress hK hts ha hb hparams h

end Records

section Search

variable {K : FilterContract note} {l : L} {s v : FilterState} {config : CommonConfig}
  {fromBlock toBlock : BlockParam} {address : AddressFilter} {topics : Option (List TopicFilter)}

/-- The outcome of `getLogs` for a range. -/
inductive Searched (K : FilterContract note) (l : L) (config : CommonConfig)
    (fromBlock toBlock : BlockParam) (address : AddressFilter)
    (topics : Option (List TopicFilter)) (s v : FilterState) :
    Except RelayError (List Log) → Prop where
  | missing (h : Validated K l config fromBlock toBlock address s v (.ok none)) :
      Searched K l config fromBlock toBlock address topics s v (.ok [])
  | rejected {e : RelayError} (h : Validated K l config fromBlock toBlock address s v (.error e)) :
      Searched K l config fromBlock toBlock address topics s v (.error (unwrapError e))
  | noTopics {e : RelayError} (h : addTopicsToParams topics = .error e) (hsv : K.rely s v) :
      Searched K l config fromBlock toBlock address topics s v (.error (unwrapError e))
  | records {a b : MirrorNodeBlock} {t u : FilterState} {records : List MirrorNodeLog}
      (hbounds : BoundsFound K l fromBlock toBlock s v a b t u) (hle : a.number ≤ b.number)
      (hrecords : Queried u.chain (fun log => address.matches log && matchesTopics topics log)
        a.number b.number records) :
      Searched K l config fromBlock toBlock address topics s v (.ok (records.map Log.ofRecord))

theorem Validated.stable {u : FilterState} {r : Except RelayError (Option (Timestamp × Timestamp))}
    (h : Validated K l config fromBlock toBlock address s u r) (huv : K.rely u v) :
    Validated K l config fromBlock toBlock address s v r := by
  cases h with
  | fromMissing h => exact .fromMissing (h.stable huv)
  | single heq h => exact .single heq (h.stable huv)
  | toMissing hfrom hto => exact .toMissing hfrom (hto.stable huv)
  | rejected hfrom hto hcheck => exact .rejected hfrom (hto.stable huv) hcheck
  | range hfrom hto hcheck => exact .range hfrom (hto.stable huv) hcheck

theorem BoundsFound.stable {a b : MirrorNodeBlock} {t u w : FilterState}
    (h : BoundsFound K l fromBlock toBlock s v a b t u) (hvw : K.rely v w) :
    BoundsFound K l fromBlock toBlock s w a b t u :=
  { h with after := K.trans _ _ _ h.after hvw }

theorem BoundsFound.rely {a b : MirrorNodeBlock} {t u : FilterState}
    (h : BoundsFound K l fromBlock toBlock s v a b t u) : K.rely s v :=
  K.trans _ _ _ h.before (K.trans _ _ _ h.between h.after)

theorem Searched.rely {r : Except RelayError (List Log)}
    (h : Searched K l config fromBlock toBlock address topics s v r) : K.rely s v := by
  cases h with
  | missing h => exact h.rely
  | rejected h => exact h.rely
  | noTopics _ hsv => exact hsv
  | records hbounds _ _ => exact hbounds.rely

theorem Searched.stable {u : FilterState} {r : Except RelayError (List Log)}
    (h : Searched K l config fromBlock toBlock address topics s u r) (huv : K.rely u v) :
    Searched K l config fromBlock toBlock address topics s v r := by
  cases h with
  | missing h => exact .missing (h.stable huv)
  | rejected h => exact .rejected (h.stable huv)
  | noTopics h hsv => exact .noTopics h (K.trans _ _ _ hsv huv)
  | records hbounds hle hrecords => exact .records (hbounds.stable huv) hle hrecords

variable (hK : Growing K)

include hK

private theorem wp_queryLogs (config : CommonConfig) {a b : MirrorNodeBlock} {t u w : FilterState}
    (hbounds : BoundsFound K l fromBlock toBlock s w a b t u) (hle : a.number ≤ b.number)
    {post : Except RelayError (List Log) → L → FilterState → Prop}
    (h : ∀ r v, Searched K l config fromBlock toBlock address topics s v (r.mapError unwrapError) →
      post r l v) :
    K.wp (queryLogs mirrorNodeClient address topics (a.timestampFrom, b.timestampTo)).run
      post l w := by
  unfold queryLogs
  cases hparams : addTopicsToParams topics with
  | error e =>
    exact wp_throw fun v hwv => h (.error e) v (.noTopics hparams (K.trans _ _ _ hbounds.rely hwv))
  | ok params =>
    have ha := ((hK.rely _ _ hbounds.between).block?_eq
      (Chain.exists_block?_iff.mp ⟨a, hbounds.fromBlock.block⟩)).trans hbounds.fromBlock.block
    obtain ⟨lookup, hb⟩ := hbounds.toBlock
    apply wp_then
    apply wp_getLogRecords hK hbounds.after ha hb.block hparams
    intro records v hrecords hwv
    exact wp_return fun v' hv => h (.ok _) v'
      (.records (hbounds.stable (K.trans _ _ _ hwv hv)) hle hrecords)

theorem wp_search (hfrom : fromBlock.Named) (hto : toBlock.Named)
    (hset : isMissing (some fromBlock) = false)
    {post : Except RelayError (List Log) → L → FilterState → Prop}
    (h : ∀ r v, Searched K l config fromBlock toBlock address topics s v r → post r l v) :
    K.wp (Common.getLogs config mirrorNodeClient none (some fromBlock) (some toBlock) address
      topics).run post l s := by
  apply wp_rethrow
  apply wp_then
  apply wp_validateBlockRangeAndAddTimestampToParams hK hfrom hto hset
  intro r v hr
  match r with
  | .error e => exact fun w hvw w' hw => h _ w' (.rejected (hr.stable (K.trans _ _ _ hvw hw)))
  | .ok none =>
    exact wp_return fun w hvw w' hw => h _ w' (.missing (hr.stable (K.trans _ _ _ hvw hw)))
  | .ok (some range) =>
    obtain ⟨a, b, t, u, hbounds, hle, rfl⟩ := hr.bounds
    apply wp_queryLogs hK config hbounds hle
    exact fun r w hr w' hw => h _ w' (hr.stable hw)

end Search

section Changes

variable {K : FilterContract note} {l : L} {s v : FilterState} {config : FilterConfig}
  {params : LogFilterParams} {lastQueried : Option ℕ} {blockAtCreation : String}

/-- The parameters of a filter as it was created. -/
structure LogFilterParams.Valid (params : LogFilterParams) : Prop where
  fromBlock : params.fromBlock.Named
  toBlock : params.toBlock.Named
  isSet : isMissing (some params.fromBlock) = false

/-- What the filter matches. -/
def LogFilterParams.matches (params : LogFilterParams) (log : MirrorNodeLog) : Bool :=
  params.address.matches log && matchesTopics params.topics log

private theorem named_startBlock (h : params.Valid) : (startBlock params lastQueried).Named := by
  match lastQueried with
  | none => exact h.fromBlock
  | some 0 => exact h.fromBlock
  | some (n + 1) => exact ⟨fun _ => by simp [startBlock], by simp [startBlock]⟩

private theorem isMissing_startBlock (h : params.Valid) :
    isMissing (some (startBlock params lastQueried)) = false := by
  match lastQueried with
  | none => exact h.isSet
  | some 0 => exact h.isSet
  | some (n + 1) => rfl

/-- The logs that a poll has found, from the cursor on. -/
abbrev Found (K : FilterContract note) (l : L) (config : FilterConfig) (params : LogFilterParams)
    (lastQueried : Option ℕ) (s v : FilterState) (r : Except RelayError (List Log)) : Prop :=
  Searched K l config.toCommonConfig (startBlock params lastQueried) params.toBlock params.address
    params.topics s v r

/-- The outcome of `handleLogFilterChanges`. -/
inductive LogChanges (K : FilterContract note) (l : L) (config : FilterConfig)
    (params : LogFilterParams) (lastQueried : Option ℕ) (s v : FilterState) :
    Except RelayError (List Log × ℕ) → Prop where
  | failed {e : RelayError} (h : Found K l config params lastQueried s v (.error e)) :
      LogChanges K l config params lastQueried s v (.error e)
  | nothing {t u : FilterState} (h : Found K l config params lastQueried s t (.ok []))
      (htu : K.rely t u) (hok : K.request l (.getLatestBlock .cursor) u) (huv : K.rely u v) :
      LogChanges K l config params lastQueried s v (.ok ([], u.chain.head + 1))
  | logs {logs : List Log} {last : Log} (h : Found K l config params lastQueried s v (.ok logs))
      (hlast : logs.getLast? = some last) :
      LogChanges K l config params lastQueried s v
        (.ok (logs, bigIntOfHex last.blockNumber + 1))

/-- The outcome of `handleNewBlockFilterChanges`. -/
inductive BlockChanges (K : FilterContract note) (l : L) (cursor : ℕ) (s v : FilterState) :
    Except RelayError (List String × ℕ) → Prop where
  | nothing {t u : FilterState} (hst : K.rely s t) (hnil : t.chain.blocksAfter cursor = [])
      (htu : K.rely t u) (hok : K.request l (.getLatestBlock .cursor) u) (huv : K.rely u v) :
      BlockChanges K l cursor s v (.ok ([], u.chain.head))
  | page {t : FilterState} {page : ℕ} {last : MirrorNodeBlock} (hst : K.rely s t)
      (hlast : ((t.chain.blocksAfter cursor).take (page + 1)).getLast? = some last)
      (htv : K.rely t v) :
      BlockChanges K l cursor s v (.ok
        (((t.chain.blocksAfter cursor).take (page + 1)).map fun block => toHash32 block.hash,
          last.number))

theorem LogChanges.rely {r : Except RelayError (List Log × ℕ)}
    (h : LogChanges K l config params lastQueried s v r) : K.rely s v := by
  cases h with
  | failed h => exact h.rely
  | nothing h htu _ huv => exact K.trans _ _ _ h.rely (K.trans _ _ _ htu huv)
  | logs h _ => exact h.rely

theorem BlockChanges.rely {cursor : ℕ} {r : Except RelayError (List String × ℕ)}
    (h : BlockChanges K l cursor s v r) : K.rely s v := by
  cases h with
  | nothing hst _ htu _ huv => exact K.trans _ _ _ hst (K.trans _ _ _ htu huv)
  | page hst _ htv => exact K.trans _ _ _ hst htv

variable (hK : Growing K)

include hK

theorem wp_handleLogFilterChanges (hvalid : params.Valid)
    {post : Except RelayError (List Log × ℕ) → L → FilterState → Prop}
    (h : ∀ r v, LogChanges K l config params lastQueried s v r → post r l v) :
    K.wp (handleLogFilterChanges config params lastQueried).run post l s := by
  apply wp_then
  apply wp_search hK (named_startBlock hvalid) hvalid.toBlock (isMissing_startBlock hvalid)
  intro r u hr
  cases r with
  | error e => exact fun v huv => h _ v (.failed (hr.stable huv))
  | ok logs =>
    apply wp_then
    unfold nextLogCursor
    split
    · rename_i last hlast
      exact wp_return fun v huv => wp_return fun w hvw =>
        h _ w (.logs (hr.stable (K.trans _ _ _ huv hvw)) hlast)
    · rename_i hnone
      obtain rfl := List.getLast?_eq_none_iff.mp hnone
      apply wp_map
      apply wp_getLatestBlockNumber hK
      intro t v hut hok htv w hvw
      refine wp_return fun w' hw => ?_
      simp only [bigIntOfHex_numberTo0x]
      exact h _ w' (.nothing hr hut hok (K.trans _ _ _ htv (K.trans _ _ _ hvw hw)))

theorem wp_handleNewBlockFilterChanges
    {post : Except RelayError (List String × ℕ) → L → FilterState → Prop}
    (h : ∀ r v, BlockChanges K l (blockCursor blockAtCreation lastQueried) s v r → post r l v) :
    K.wp (handleNewBlockFilterChanges blockAtCreation lastQueried).run post l s := by
  apply wp_then
  apply wp_query hK rfl
  intro t hst _ page r hr u htu
  cases hr
  apply wp_then
  unfold nextBlockCursor
  split
  · rename_i last hlast
    exact wp_return fun v huv => wp_return fun w hvw =>
      h _ w (.page hst hlast (K.trans _ _ _ htu (K.trans _ _ _ huv hvw)))
  · rename_i hnone
    have hnil : t.chain.blocksAfter (blockCursor blockAtCreation lastQueried) = [] := by
      simpa using hnone
    apply wp_map
    apply wp_getLatestBlockNumber hK
    intro t' v hut hok htv w hvw
    refine wp_return fun w' hw => ?_
    rw [bigIntOfHex_numberTo0x, Option.getD_some, hnil]
    exact h _ w' (.nothing hst hnil (K.trans _ _ _ htu hut) hok
      (K.trans _ _ _ htv (K.trans _ _ _ hvw hw)))

end Changes

end JsonRpcRelay.Filters
