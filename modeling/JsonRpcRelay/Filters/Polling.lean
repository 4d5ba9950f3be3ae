import JsonRpcRelay.Filters.Queries
import JsonRpcRelay.Framework.Cursor

/-!
# Polling a filter

A caller creates a filter and polls it again and again, while the chain grows.  The record of
the caller notes what was stored last, where the delivery has to begin, and how far the chain
reached at the start of each poll.
-/

namespace JsonRpcRelay.Filters

open constants Mirror Common Framework
open Blocks (Log)

section Session

structure SessionRecord where
  /-- The filter as the caller has written it last. -/
  stored : Option Filter
  /-- The block of the `fromBlock` or the `blockAtCreation`, or the last block when the filter
  was stored. -/
  start : ℕ
  /-- The last block at the start of each poll. -/
  heads : List ℕ

def Filter.startAt (filter : Filter) (head : ℕ) : ℕ :=
  match filter.params with
  | .log params => params.fromBlock.blockNumber.getD head
  | .newBlock blockAtCreation => bigIntOfHex blockAtCreation

def SessionRecord.note (l : SessionRecord) : (op : FilterOp) → op.Reply → FilterState →
    FilterState → SessionRecord
  | .getFilter, _, s, _ => { l with heads := l.heads ++ [s.chain.head] }
  | .setFilter filter, _, s, _ =>
      { l with
        stored := some filter
        start := if l.stored = none then filter.startAt s.chain.head else l.start }
  | .deleteFilter, _, _, _ => { l with stored := none }
  | _, _, _, _ => l

def polls (config : FilterConfig) :
    ℕ → Prog FilterOp FilterOp.Reply (List (Except RelayError Answer))
  | 0 => return []
  | n + 1 => do
      let result ← (getFilterChanges config).run
      let results ← polls config n
      return result :: results

/-- The results of the polls, or the error of the creation. -/
abbrev SessionResult := Except RelayError (List (Except RelayError Answer))

def session (config : FilterConfig) (create : FilterM Unit) (n : ℕ) :
    Prog FilterOp FilterOp.Reply SessionResult := do
  match ← create.run with
  | .error e => return .error e
  | .ok () => Except.ok <$> polls config n

abbrev sessionProtocol := filterProtocol SessionRecord.note

abbrev SessionPool := Pool Unit FilterOp FilterOp.Reply SessionResult FilterState SessionRecord

/-- A caller with a new filter id. -/
def startSession (config : FilterConfig) (create : FilterM Unit) (n : ℕ) (chain : Chain) :
    SessionPool where
  shared := { chain, filter := none }
  prog _ := session config create n
  ghost _ := { stored := none, start := 0, heads := [] }

/-- The chain grows, and the requests of the caller meet a condition. -/
def sessionContract (condition : SessionRecord → FilterOp → FilterState → Bool) :
    FilterContract SessionRecord.note where
  request l op s := condition l op s = true
  env _ _ := True
  rely s t := s.chain.Extends t.chain
  refl s := Chain.Extends.refl s.chain
  trans _ _ _ h h' := h.trans h'
  env_rely b s t _ h := by
    obtain ⟨chain, hchain, rfl⟩ := Option.map_eq_some_iff.mp h
    exact Chain.extends_of_append hchain

instance (condition : SessionRecord → FilterOp → FilterState → Bool) (l : SessionRecord)
    (op : FilterOp) (s : FilterState) :
    Decidable ((sessionContract condition).request l op s) :=
  inferInstanceAs (Decidable (condition l op s = true))

instance (condition : SessionRecord → FilterOp → FilterState → Bool) (b : ChainBlock)
    (s : FilterState) : Decidable ((sessionContract condition).env b s) :=
  inferInstanceAs (Decidable True)

/-- The condition together with what a single caller finds anyway: the record that it stored. -/
def alone (condition : SessionRecord → FilterOp → FilterState → Bool) (l : SessionRecord)
    (op : FilterOp) (s : FilterState) : Bool :=
  condition l op s && decide (s.filter = l.stored)

theorem growing_session (condition : SessionRecord → FilterOp → FilterState → Bool) :
    Growing (sessionContract condition) where
  rely _ _ h := h
  note l op _ _ _ hop := by cases op <;> first | rfl | cases hop

/-- What is stored is what the caller has stored. -/
def Synced (pool : SessionPool) : Prop := pool.shared.filter = (pool.ghost ()).stored

private theorem stored_note {l : SessionRecord} {op : FilterOp} {c : ℕ} {r : op.Reply}
    {s t : FilterState} (h : s.filter = l.stored) (hact : FilterState.act op c s = some (r, t)) :
    t.filter = (l.note op r s t).stored := by
  cases op with
  | deleteFilter => cases hact; rfl
  | setFilter filter => cases hact; rfl
  | getFilter => cases hact; exact h
  | getLatestBlock lookup => cases hact; exact h
  | getBlock lookup id => cases hact; exact h
  | getBlocks gt => cases hact; exact h
  | getLogs address params => cases hact; exact h

theorem synced_step {pool pool' : SessionPool} {e : PoolEvent Unit ℕ ChainBlock}
    (h : Synced pool) (hstep : sessionProtocol.step pool e = some pool') : Synced pool' := by
  cases e with
  | env b =>
    obtain ⟨s, hs, rfl⟩ := Option.map_eq_some_iff.mp hstep
    obtain ⟨chain, _, rfl⟩ := Option.map_eq_some_iff.mp hs
    exact h
  | run i c =>
    cases hp : pool.prog i with
    | pure a => simp [Protocol.step, hp] at hstep
    | request op next =>
      simp only [Protocol.step, hp] at hstep
      obtain ⟨⟨r, t⟩, hact, rfl⟩ := Option.map_eq_some_iff.mp hstep
      simp only [Synced, Function.update_self]
      exact stored_note h hact

/-- A session that is verified with its own record in view meets its postcondition. -/
theorem session_run {condition : SessionRecord → FilterOp → FilterState → Bool}
    {post : SessionResult → SessionRecord → FilterState → Prop} {pool pool' : SessionPool}
    {es : List (PoolEvent Unit ℕ ChainBlock)} {r : SessionResult}
    (h : (sessionContract (alone condition)).wp (pool.prog ()) post (pool.ghost ()) pool.shared)
    (hsync : Synced pool)
    (hok : Along sessionProtocol.step (sessionContract condition).Permits pool es)
    (hrun : exec sessionProtocol.step pool es = some pool') (hdone : pool'.prog () = .pure r) :
    post r (pool'.ghost ()) pool'.shared := by
  have hsynced := hok.and_invariant (fun _ _ _ hs _ hstep => synced_step hs hstep) hsync
  have halone : Along sessionProtocol.step (sessionContract (alone condition)).Permits pool es := by
    apply hsynced.mono
    rintro pool e ⟨hperm, hs⟩
    cases e with
    | env b => trivial
    | run i c =>
      intro op next hp
      show alone condition _ op _ = true
      rw [alone, Bool.and_eq_true, decide_eq_true_eq]
      exact ⟨hperm op next hp, hs⟩
  have hstart : (sessionContract (alone condition)).Verified (fun _ : Unit => post) pool :=
    fun _ => h
  exact Protocol.Contract.post_of_done (Protocol.Contract.verified_run hstart halone hrun).1 hdone

end Session

section Example

/-- A block of one second with a log for each of the given addresses. -/
def exampleBlock (n : ℕ) (addresses : List String := []) : ChainBlock where
  block :=
    { count := addresses.length, gasUsed := 0, hash := s!"0xb{n}", logsBloom := "0x", number := n
      previousHash := "0x", size := none, timestampFrom := 2 * n * 10 ^ 9
      timestampTo := (2 * n + 1) * 10 ^ 9 }
  logs := addresses.zipIdx.map fun (address, i) =>
    { address, blockHash := s!"0xb{n}", blockNumber := n, data := "0x", index := i
      timestamp := 2 * n * 10 ^ 9 + i, topics := [], transactionHash := s!"0xt{n}"
      transactionIndex := i }

def exampleChain : Chain := .single (exampleBlock 0) rfl (by decide) rfl

/-- The next request of the caller is answered, the block list in pages of one block. -/
def answered (n : ℕ) : List (PoolEvent Unit ℕ ChainBlock) := List.replicate n (.run () 0)

end Example

end JsonRpcRelay.Filters
