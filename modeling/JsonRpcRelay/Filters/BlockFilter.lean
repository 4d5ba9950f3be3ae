import JsonRpcRelay.Filters.Polling

/-!
# Block filters

A block filter hands on the blocks behind its creation.  A poll that finds no block asks for the
number of the last block and goes on from there: a block that appears between the two requests
is passed over.
-/

namespace JsonRpcRelay.Filters

open constants Mirror Common Framework

section Delivery

/-- The hashes of the blocks behind `m` up to `n`. -/
def blockHashes (chain : Chain) (m n : ℕ) : List String :=
  (chain.blocksBetween m n).map fun block => toHash32 block.hash

private theorem blockHashes_self (chain : Chain) (n : ℕ) : blockHashes chain n n = [] := by
  rw [blockHashes, Chain.blocksBetween_self, List.map_nil]

private theorem blockHashes_append (chain : Chain) {a b c : ℕ} (hab : a ≤ b) (hbc : b ≤ c) :
    blockHashes chain a b ++ blockHashes chain b c = blockHashes chain a c := by
  rw [blockHashes, blockHashes, blockHashes, ← List.map_append, chain.blocksBetween_append hab hbc]

/-- A poll that has moved the cursor from `c` to `c'` and returned the blocks between them, and
one block at least if the last block at its start, the second part of `r`, was behind `c`. -/
structure DeliversBlocks (chain : Chain) (c : ℕ) (r : Except RelayError Answer × ℕ) (c' : ℕ) :
    Prop where
  le : c ≤ c'
  le_head : c' ≤ chain.head
  result : r.1 = .ok (.hashes (blockHashes chain c c'))
  moves : min r.2 (c + 1) ≤ c'

theorem DeliversBlocks.mono {chain chain' : Chain} {c c' : ℕ} {r : Except RelayError Answer × ℕ}
    (h : DeliversBlocks chain c r c') (hext : chain.Extends chain') :
    DeliversBlocks chain' c r c' where
  le := h.le
  le_head := h.le_head.trans hext.head_le
  result := by
    rw [h.result, blockHashes, blockHashes, hext.blocksBetween_eq h.le_head]
  moves := h.moves

end Delivery

section Contract

/-- No block has appeared behind the cursor when a poll without result asks for the last one. -/
def blockCondition (_ : SessionRecord) (op : FilterOp) (s : FilterState) : Bool :=
  match op, s.filter with
  | .getLatestBlock .cursor, some ⟨.newBlock blockAtCreation, lastQueried⟩ =>
      s.chain.head ≤ blockCursor blockAtCreation lastQueried
  | _, _ => true

abbrev blockContract := sessionContract blockCondition

private abbrev soleBlockContract := sessionContract (alone blockCondition)

/-- A block filter that has delivered everything up to `c`. -/
structure BlockFilterAt (l : SessionRecord) (s : FilterState) (blockAtCreation : String) (c : ℕ) :
    Prop where
  stored : ∃ lastQueried, l.stored = some ⟨.newBlock blockAtCreation, lastQueried⟩ ∧
    blockCursor blockAtCreation lastQueried = c
  created : bigIntOfHex blockAtCreation ≤ c
  le_head : c ≤ s.chain.head

private theorem blockCursor_some {blockAtCreation : String} {c : ℕ}
    (h : bigIntOfHex blockAtCreation ≤ c) : blockCursor blockAtCreation (some c) = c := by
  cases c with
  | zero => exact Nat.le_zero.mp h
  | succ c => rfl

variable {config : FilterConfig} {l : SessionRecord} {s : FilterState} {blockAtCreation : String}
  {c : ℕ}

private theorem blockChanges_delivered {v : FilterState} {r : Except RelayError (List String × ℕ)}
    (h : BlockChanges soleBlockContract l c s v r) (hat : BlockFilterAt l s blockAtCreation c) :
    ∃ c', r = .ok (blockHashes v.chain c c', c') ∧
      DeliversBlocks v.chain c (.ok (.hashes (blockHashes v.chain c c')), s.chain.head) c' := by
  obtain ⟨lastQueried, hstored, hcursor⟩ := hat.stored
  cases h with
  | @nothing t u hst hnil htu hok huv =>
    simp only [sessionContract, alone, Bool.and_eq_true, decide_eq_true_eq] at hok
    obtain ⟨hcond, hsync⟩ := hok
    rw [hstored] at hsync
    simp only [blockCondition, hsync, hcursor, decide_eq_true_eq] at hcond
    have hsu := (Chain.Extends.trans hst htu).head_le
    have hhead : u.chain.head = c := Nat.le_antisymm hcond (hat.le_head.trans hsu)
    refine ⟨c, by rw [blockHashes_self, hhead], Nat.le_refl c, ?_, rfl, ?_⟩
    · exact hhead ▸ huv.head_le
    · have := hat.le_head
      omega
  | @page t page last hst hlast htv =>
    obtain ⟨hpage, hlt, hle⟩ := Chain.take_blocksAfter_of_getLast? hlast
    have hhashes : ((t.chain.blocksAfter c).take (page + 1)).map (fun b => toHash32 b.hash) =
        blockHashes v.chain c last.number := by
      rw [hpage, blockHashes, htv.blocksBetween_eq hle]
    refine ⟨last.number, by rw [hhashes], hlt.le, hle.trans htv.head_le, rfl, ?_⟩
    show min s.chain.head (c + 1) ≤ last.number
    omega

private theorem wp_blockPoll (henabled : config.filterApiEnabled = true)
    (hat : BlockFilterAt l s blockAtCreation c) :
    soleBlockContract.wp (getFilterChanges config).run (fun r l' v => ∃ c' h,
      l'.heads = l.heads ++ [h] ∧ l'.start = l.start ∧ s.chain.head ≤ h ∧ h ≤ v.chain.head ∧
        DeliversBlocks v.chain c (r, h) c' ∧ BlockFilterAt l' v blockAtCreation c') l s := by
  have hK := growing_session (alone blockCondition)
  obtain ⟨lastQueried, hstored, hcursor⟩ := hat.stored
  simp only [getFilterChanges, requireFiltersEnabled, henabled, if_true, pure_bind]
  apply wp_request
  intro t hst hok page r u hact
  cases hact
  refine ⟨Chain.Extends.refl _, ?_⟩
  have hsync : t.filter = some ⟨.newBlock blockAtCreation, lastQueried⟩ := by
    simp only [sessionContract, alone, Bool.and_eq_true, decide_eq_true_eq] at hok
    rw [hok.2, hstored]
  simp only [hsync]
  have hat' : BlockFilterAt { l with heads := l.heads ++ [t.chain.head] } t blockAtCreation c :=
    ⟨hat.stored, hat.created, hat.le_head.trans hst.head_le⟩
  apply wp_then
  apply wp_map
  apply wp_handleNewBlockFilterChanges hK
  intro r v hr w hvw
  rw [hcursor] at hr
  obtain ⟨c', rfl, hdelivers⟩ := blockChanges_delivered hr hat'
  apply wp_request
  intro w' hww' _ page' r' u' hact'
  cases hact'
  refine ⟨Chain.Extends.refl _, wp_return fun x hx => ?_⟩
  have hvx : v.chain.Extends x.chain := (hvw.trans hww').trans hx
  have hcreated := hat.created.trans hdelivers.le
  have htv : t.chain.Extends v.chain := hr.rely
  have htx := htv.trans hvx
  refine ⟨c', t.chain.head, rfl, ?_, hst.head_le, htx.head_le, hdelivers.mono hvx,
    ⟨some c', rfl, blockCursor_some hcreated⟩, hcreated, (hdelivers.mono hvx).le_head⟩
  simp [SessionRecord.note, hstored]

private theorem wp_blockPolls (henabled : config.filterApiEnabled = true) {n : ℕ}
    (hat : BlockFilterAt l s blockAtCreation c) :
    soleBlockContract.wp (polls config n) (fun rs l' v => ∃ hs c', l'.heads = l.heads ++ hs ∧
      l'.start = l.start ∧ rs.length = n ∧ hs.length = n ∧ (s.chain.head :: hs).Pairwise (· ≤ ·) ∧
        Polls (DeliversBlocks v.chain) c (rs.zip hs) c') l s := by
  induction n generalizing l s c with
  | zero => exact fun v _ => ⟨[], c, by simp, rfl, rfl, rfl, by simp, .nil c⟩
  | succ n ih =>
    apply Protocol.Contract.wp_seq (wp_blockPoll henabled hat)
    intro r l' t hst hr
    obtain ⟨c', h, hheads, hstart, hle, hle', hpoll, hat'⟩ := hr t (Chain.Extends.refl _)
    apply Protocol.Contract.wp_seq (ih hat')
    intro rs l'' u htu hrs v huv
    obtain ⟨hs, c'', hheads', hstart', hlength, hlength', hordered, hpolls⟩ :=
      hrs v huv
    refine ⟨h :: hs, c'', ?_, hstart'.trans hstart, ?_, ?_, ?_, ?_⟩
    · rw [hheads', hheads, List.append_assoc, List.singleton_append]
    · rw [List.length_cons, hlength]
    · rw [List.length_cons, hlength']
    · obtain ⟨hlater, hordered⟩ := List.pairwise_cons.mp hordered
      apply List.pairwise_cons_cons_iff_of_trans.mpr
      exact ⟨hle, List.pairwise_cons.mpr ⟨fun x hx => hle'.trans (hlater x hx), hordered⟩⟩
    · exact .cons (hpoll.mono (htu.trans huv)) hpolls

theorem wp_newBlockFilter {condition : SessionRecord → FilterOp → FilterState → Bool}
    (hnone : l.stored = none) :
    (sessionContract condition).wp (newBlockFilter config).run (fun r l' v => r = .ok () →
      config.filterApiEnabled = true ∧ l'.heads = l.heads ∧
        BlockFilterAt l' v (numberTo0x l'.start) l'.start) l s := by
  have hK := growing_session condition
  unfold newBlockFilter requireFiltersEnabled
  split
  · rename_i henabled
    rw [pure_bind]
    apply wp_then
    apply wp_getLatestBlockNumber hK
    intro t u _ _ htu
    apply wp_ask
    intro v huv _ page r w hact
    cases hact
    refine ⟨Chain.Extends.refl _, fun x hx _ => ⟨henabled, rfl, ?_⟩⟩
    have hstart : (l.note (.setFilter ⟨.newBlock (numberTo0x t.chain.head), none⟩) () v
        { v with filter := some ⟨.newBlock (numberTo0x t.chain.head), none⟩ }).start =
        t.chain.head := by
      simp [SessionRecord.note, hnone, Filter.startAt]
    rw [hstart]
    refine ⟨⟨none, rfl, bigIntOfHex_numberTo0x _⟩, (bigIntOfHex_numberTo0x _).le, ?_⟩
    exact ((htu.trans huv).trans hx).head_le
  · exact wp_throw fun t _ hr => by cases hr

end Contract

section Delivery

variable {config : FilterConfig} {n : ℕ} {chain : Chain} {pool : SessionPool}
  {es : List (PoolEvent Unit ℕ ChainBlock)} {rs : List (Except RelayError Answer)}

private theorem wp_blockSession (l : SessionRecord) (hnone : l.stored = none)
    (hheads : l.heads = []) (s : FilterState) :
    soleBlockContract.wp (session config (newBlockFilter config) n) (fun r l' v => ∀ rs,
      r = .ok rs → ∃ c, rs.length = n ∧ l'.heads.length = n ∧ l'.heads.Pairwise (· ≤ ·) ∧
        Polls (DeliversBlocks v.chain) l'.start (rs.zip l'.heads) c) l s := by
  apply Protocol.Contract.wp_seq (wp_newBlockFilter hnone)
  intro r l' t hst hr
  cases r with
  | error e => exact fun u _ rs hrs => by cases hrs
  | ok a =>
    obtain ⟨henabled, hheads', hat⟩ := hr t (Chain.Extends.refl _) rfl
    show soleBlockContract.wp (Except.ok <$> polls config n) _ l' t
    rw [map_eq_pure_bind]
    apply Protocol.Contract.wp_seq (wp_blockPolls henabled hat)
    intro rs l'' u _ hrs v huv rs' hrs'
    obtain rfl := Except.ok.inj hrs'
    obtain ⟨hs, c, hheads'', hstart, hlength, hlength', hordered, hpolls⟩ := hrs v huv
    rw [hheads', hheads, List.nil_append] at hheads''
    rw [hheads'', hstart]
    exact ⟨c, hlength, hlength', hordered.of_cons, hpolls⟩

/-- The hashes of a result. -/
def hashesOf : Except RelayError Answer → List String
  | .ok (.hashes hashes) => hashes
  | _ => []

/-- The hashes that the polls of a session return, and how far they get: behind the block that
was the last one when a poll began, or one block further with each poll from that one on. -/
theorem blocks_delivered_once
    (hok : Along sessionProtocol.step blockContract.Permits
      (startSession config (newBlockFilter config) n chain) es)
    (hrun : exec sessionProtocol.step (startSession config (newBlockFilter config) n chain) es =
      some pool)
    (hdone : pool.prog () = .pure (.ok rs)) :
    ∃ answers : List (List String), rs = answers.map (fun hashes => .ok (.hashes hashes)) ∧
      ∃ c, answers.flatten = blockHashes pool.shared.chain (pool.ghost ()).start c ∧
        ∀ i h, (pool.ghost ()).heads[i]? = some h →
          min h ((pool.ghost ()).start + (n - i)) ≤ c := by
  have hsync : Synced (startSession config (newBlockFilter config) n chain) := rfl
  have hsession := session_run (wp_blockSession _ rfl rfl _) hsync hok hrun hdone
  obtain ⟨c, hlength, hlength', hordered, hpolls⟩ := hsession rs rfl
  have hzip : (rs.zip (pool.ghost ()).heads).map Prod.fst = rs :=
    List.map_fst_zip (by omega)
  have hmono (a : ℕ) (r : Except RelayError Answer × ℕ) (b : ℕ)
      (h : DeliversBlocks pool.shared.chain a r b) : a ≤ b := h.le
  refine ⟨rs.map hashesOf, ?_, c, ?_, ?_⟩
  · rw [List.map_map]
    nth_rewrite 1 [← List.map_id rs]
    apply List.map_congr_left
    intro r hr
    rw [← hzip] at hr
    obtain ⟨r', hr', rfl⟩ := List.mem_map.mp hr
    apply hpolls.of_mem (p := fun r' => id r'.1 = _) _ hr'
    intro a r' b h
    rw [h.result]
    rfl
  · rw [← List.flatMap_def, ← hzip, List.flatMap_map]
    refine hpolls.flatMap_eq hmono ?_ (blockHashes_self _) fun a b c => blockHashes_append _
    intro a r b h
    rw [h.result]
    rfl
  · intro i h hi
    have hlt : i < (pool.ghost ()).heads.length := (List.getElem?_eq_some_iff.mp hi).1
    have hcount : (rs.zip (pool.ghost ()).heads).length = n := by
      rw [List.length_zip]
      omega
    have hreach := hpolls.reaches_stepwise Prod.snd (n := h) (i := i) hmono
      (fun _ _ _ h => h.moves) ?_ (by omega)
    · rwa [hcount] at hreach
    · intro k r hik hk
      have hsnd : (pool.ghost ()).heads[k]? = some r.2 := (List.getElem?_zip_eq_some.mp hk).2
      obtain ⟨hklt, hk⟩ := List.getElem?_eq_some_iff.mp hsnd
      obtain ⟨_, hi⟩ := List.getElem?_eq_some_iff.mp hi
      rw [← hk, ← hi]
      rcases hik.eq_or_lt with rfl | hlt
      · exact Nat.le_refl _
      · exact List.pairwise_iff_getElem.mp hordered i k _ hklt hlt

/-- A block between two polls and two blocks behind each other before a third one. -/
def threeBlocks : List (PoolEvent Unit ℕ ChainBlock) :=
  answered 6 ++ .env (exampleBlock 1) :: answered 3 ++
    .env (exampleBlock 2) :: .env (exampleBlock 3) :: answered 6

theorem blocks_delivered_once_three : ∃ (pool : SessionPool) (answers : List (List String)),
    exec sessionProtocol.step (startSession {} (newBlockFilter {}) 4 exampleChain) threeBlocks =
        some pool ∧
      pool.prog () = .pure (.ok (answers.map fun hashes => .ok (.hashes hashes))) ∧
      ∃ c, answers.flatten = blockHashes pool.shared.chain (pool.ghost ()).start c := by
  have hended : (exec sessionProtocol.step (startSession {} (newBlockFilter {}) 4 exampleChain)
      threeBlocks).map (fun pool => (pool.prog ()).result) =
      some (some (.ok [.ok (.hashes []), .ok (.hashes ["0xb1"]), .ok (.hashes ["0xb2"]),
        .ok (.hashes ["0xb3"])])) := by decide +kernel
  obtain ⟨pool, hrun, hresult⟩ := Option.map_eq_some_iff.mp hended
  have hdone := Prog.eq_pure_of_result hresult
  obtain ⟨answers, hanswers, c, hflatten, _⟩ :=
    blocks_delivered_once (by decide +kernel) hrun hdone
  rw [hanswers] at hdone
  exact ⟨pool, answers, hrun, hdone, c, hflatten⟩

/-- Block 1 appears behind the query of the first poll and before its request for the last
block: the polls go on to block 2 without it. -/
theorem block_passed_over : ∃ (es : List (PoolEvent Unit ℕ ChainBlock)) (pool : SessionPool),
    exec sessionProtocol.step (startSession {} (newBlockFilter {}) 2 exampleChain) es =
        some pool ∧
      pool.prog () = .pure (.ok [.ok (.hashes []), .ok (.hashes ["0xb2"])]) ∧
      (pool.ghost ()).start = 0 ∧ (pool.ghost ()).heads = [0, 2] ∧
      blockHashes pool.shared.chain 0 2 = ["0xb1", "0xb2"] := by
  let es : List (PoolEvent Unit ℕ ChainBlock) :=
    answered 4 ++ .env (exampleBlock 1) :: answered 2 ++ .env (exampleBlock 2) :: answered 3
  let run := exec sessionProtocol.step (startSession {} (newBlockFilter {}) 2 exampleChain) es
  have hended : run.map (fun pool => (pool.prog ()).result) =
      some (some (.ok [.ok (.hashes []), .ok (.hashes ["0xb2"])])) := by decide +kernel
  have hnoted : run.map (fun pool => ((pool.ghost ()).start, (pool.ghost ()).heads,
      blockHashes pool.shared.chain 0 2)) = some (0, [0, 2], ["0xb1", "0xb2"]) := by
    decide +kernel
  obtain ⟨pool, hrun, hresult⟩ := Option.map_eq_some_iff.mp hended
  rw [hrun, Option.map_some, Option.some.injEq] at hnoted
  simp only [Prod.mk.injEq] at hnoted
  obtain ⟨hstart, hheads, hhashes⟩ := hnoted
  exact ⟨es, pool, hrun, Prog.eq_pure_of_result hresult, hstart, hheads, hhashes⟩

end Delivery

end JsonRpcRelay.Filters
