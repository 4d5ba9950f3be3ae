import JsonRpcRelay.Account.ParsedAmounts
import JsonRpcRelay.Mirror.Pagination

/-!
# Balances of recent blocks

The balances of the last fifteen minutes are not yet imported.  They are worked out backwards: from
the live balance and the transactions since the block, page by page.
-/

namespace JsonRpcRelay.Account

open constants Js Mirror Common Contract

section Links

def ACCOUNTS_PREFIX : List Char := "/accounts/".toList

/-- `url.match` of an expression that starts with `\/accounts\/` and captures the rest. -/
def matchAccount (capture : List Char → Option (List Char)) (url : String) : Option String :=
  (url.toList.tails.findSome? fun text =>
    if ACCOUNTS_PREFIX.isPrefixOf text then capture (text.drop ACCOUNTS_PREFIX.length)
    else none).map String.ofList

/-- `(0x[a-fA-F0-9]{40})`. -/
def captureAddress (text : List Char) : Option (List Char) :=
  let digits := (text.drop 2).take 40
  if "0x".toList.isPrefixOf text ∧ digits.length = 40 ∧ digits.all isHexDigit then
    some (text.take 42)
  else none

/-- `([\d\.]+)`. -/
def captureId (text : List Char) : Option (List Char) :=
  let id := text.takeWhile fun c => c.isDigit ∨ c = '.'
  if id = [] then none else some id

/-- Without an account the text is that of `null`. -/
def extractAccountIdFromUrl (url : String) : String :=
  let substringStartIndex := (url.toList.tails.findIdx? (ACCOUNTS_PREFIX.isPrefixOf ·)).elim 9
    (· + ACCOUNTS_PREFIX.length)
  let accountId :=
    if startsWith (substringFrom url substringStartIndex) EMPTY_HEX then
      matchAccount captureAddress url
    else matchAccount captureId url
  accountId.getD "null"

/-- The value of the first `timestamp` parameter behind the question mark. -/
def timestampParam (url : String) : Option String :=
  let params := (((url.toList.splitOn '?')[1]?).getD []).splitOn '&'
  let param := params.find? ("timestamp=".toList.isPrefixOf ·)
  param.map fun param => String.ofList (param.drop "timestamp=".length)

/-- The path of the first further page. -/
def accountPath (url : String) : String :=
  "accounts/" ++ extractAccountIdFromUrl url ++ "?limit=" ++ toString MIRROR_NODE_QUERY_LIMIT ++
    ((timestampParam url).filter (· ≠ "")).elim "" ("&timestamp=" ++ ·)

end Links

section Histories

variable (page : String → Option (Page AccountTransaction))

def getAccountPaginated (url : String) : Except RelayError (List AccountTransaction) :=
  (answerPages page (getPaginatedResults MAX_MIRROR_NODE_PAGINATION (accountPath url)) 0).1

/-- The transactions on a number of pages behind a link, if there is one. -/
def furtherTransactions (count : ℕ) (next : Option NextPage) : List AccountTransaction :=
  next.elim [] fun next => (pagesFrom page count (accountPath next.url)).flatMap resultsOf

/-- An account with its transactions on any number of pages.  A link to further pages has the time
that all their transactions are before. -/
structure AccountHistory (s : Network) (account : String) where
  mirrorAccount : MirrorAccount
  found : s.accounts.accountWithTransactions account = some mirrorAccount
  furtherPages : ℕ
  complete : ∀ next ∈ mirrorAccount.next, HasAtMost page (accountPath next.url) furtherPages
  marked : ∀ next ∈ mirrorAccount.next, ∃ marker, next.timeMarker = some marker ∧
    ∀ transaction ∈ furtherTransactions page furtherPages mirrorAccount.next,
      transaction.consensusTimestamp < marker

/-- What transactions have added to an account, approvals aside. -/
def netTransfers (account : String) (transactions : List AccountTransaction) : ℤ :=
  (transactions.flatMap fun transaction => (transaction.transfers.filter fun transfer =>
    transfer.account = account ∧ ¬transfer.isApproval).map (·.amount)).sum

/-- How a block is named by its number, its hash or the tag of the first one. -/
inductive Names (chain : Chain) (block : MirrorNodeBlock) : BlockParam → Prop where
  | number {text : String} (valid : BlockParam.isBlockNumberText text = true)
      (found : chain.block? (bigIntOfHex text) = some block) : Names chain block (.hex text)
  | hash {text : String} (valid : isBlockHash text = true)
      (found : findBlock chain (.hash text) = some block) : Names chain block (.hash text)
  | earliest (found : chain.block? 0 = some block) : Names chain block .earliest

/-- A block of the last fifteen minutes that is not taken for the latest one. -/
structure RecentBlock (s : Network) where
  param : BlockParam
  block : MirrorNodeBlock
  named : Names s.chain block param
  recent : ¬Imported s.chain block.timestampFrom
  outside : block.number + 1 < s.known

variable {page} {s : Network} {account : String}

namespace AccountHistory

variable (history : AccountHistory page s account)

/-- All transactions of the account. -/
def transactions : List AccountTransaction :=
  history.mirrorAccount.transactions ++
    furtherTransactions page history.furtherPages history.mirrorAccount.next

/-- The live balance less what the transactions after a time have added. -/
def balanceAt (timestamp : Timestamp) : ℤ :=
  history.mirrorAccount.balance.getD 0 - netTransfers history.mirrorAccount.account
    (history.transactions.filter fun transaction => timestamp < transaction.consensusTimestamp)

/-- What the transactions of the very time have added. -/
def addedAt (timestamp : Timestamp) : ℤ :=
  netTransfers history.mirrorAccount.account
    (history.transactions.filter fun transaction => transaction.consensusTimestamp = timestamp)

/-- The further pages are before a time, or there are fewer than may be asked for. -/
def PagesWithin (timestamp : Timestamp) : Prop :=
  ∀ next ∈ history.mirrorAccount.next, ∀ marker ∈ next.timeMarker, timestamp ≤ marker →
    (pagesFrom page MAX_MIRROR_NODE_PAGINATION (accountPath next.url)).length <
      MAX_MIRROR_NODE_PAGINATION

/-- The amounts from a time on are numbers, and a double can hold the live balance, the totals of
the amounts and the difference. -/
def FitsDoubles (json : JSONBigInt) (timestamp : Timestamp) : Prop :=
  json.FitsDoubles (history.mirrorAccount.balance.getD 0)
    (selectedAmounts history.mirrorAccount.account history.transactions timestamp)

/-- The balance as of a block is that at its end. -/
def EndOfBlockBalance (config : CommonConfig) (json : JSONBigInt) (recent : RecentBlock s) :
    Prop :=
  json.getBalance (s.clientWith (getAccountPaginated page)) config (chainClient s.chain) account
    recent.param = .ok (weibarsTo0x (history.balanceAt recent.block.timestampTo))

end AccountHistory

end Histories

section Sums

variable {account : String} {transactions : List AccountTransaction} {timestamp : Timestamp}

@[simp] theorem netTransfers_nil : netTransfers account [] = 0 := rfl

private theorem netTransfers_append (first second : List AccountTransaction) :
    netTransfers account (first ++ second) =
      netTransfers account first + netTransfers account second := by
  simp [netTransfers]

private theorem netTransfers_cons (transaction : AccountTransaction)
    (rest : List AccountTransaction) :
    netTransfers account (transaction :: rest) =
      netTransfers account [transaction] + netTransfers account rest :=
  netTransfers_append [transaction] rest

private theorem netTransfers_from (account : String) (transactions : List AccountTransaction)
    (timestamp : Timestamp) :
    netTransfers account (transactions.filter fun t => t.consensusTimestamp ≥ timestamp) =
      netTransfers account (transactions.filter fun t => timestamp < t.consensusTimestamp) +
        netTransfers account (transactions.filter fun t => t.consensusTimestamp = timestamp) := by
  induction transactions with
  | nil => rfl
  | cons t ts ih =>
    rcases lt_trichotomy t.consensusTimestamp timestamp with hlt | heq | hgt
    · simp [hlt.not_ge, hlt.not_gt, hlt.ne, ih]
    · simp only [heq, List.filter_cons, ge_iff_le, le_refl, decide_true, if_true, lt_irrefl,
        decide_false, Bool.false_eq_true, if_false]
      rw [netTransfers_cons, ih, netTransfers_cons t (ts.filter _)]
      omega
    · simp only [hgt, hgt.le, hgt.ne', List.filter_cons, ge_iff_le, decide_true, if_true,
        decide_false, Bool.false_eq_true, if_false]
      rw [netTransfers_cons, ih, netTransfers_cons t (ts.filter _)]
      omega

private theorem getBalanceAtBlockTimestamp_eq :
    getBalanceAtBlockTimestamp account transactions timestamp =
    netTransfers account (transactions.filter fun t => t.consensusTimestamp ≥ timestamp) := by
  rw [getBalanceAtBlockTimestamp, netTransfers, ← List.sum_eq_foldl, List.map_flatMap]

end Sums

section Answers

variable {config : CommonConfig} {s : Network} {account : String}
variable {page : String → Option (Page AccountTransaction)}

private theorem weibarsTo0x_injective : Function.Injective weibarsTo0x := by
  intro m n h
  have hmul : m * TINYBAR_TO_WEIBAR_COEF = n * TINYBAR_TO_WEIBAR_COEF := numberTo0x_injective h
  exact Int.eq_of_mul_eq_mul_right (by decide) hmul

private theorem getBalanceWith_of_recent (recent : RecentBlock s)
    (paged : String → Except RelayError (List AccountTransaction))
    (balanceOf : Timestamp → MirrorNodeBlock → Except RelayError String) :
    getBalanceWith config (chainClient s.chain) (s.clientWith paged) balanceOf account
      recent.param = caught (balanceOf s.chain.latest.timestampTo recent.block) := by
  obtain ⟨param, block, hnamed, _, houtside⟩ := recent
  have hfar : isClose s (some block.number) = false := by simpa [isClose] using houtside
  have hbalance {n : Option ℕ} (htag : blockTagIsLatestOrPending (some param) = false)
      (hcurrent : currentBlockNumber (chainClient s.chain) param = .ok n)
      (hclose : isClose s n = false) (hblock : blockOf s.chain (some param) = some block) :
      getBalanceWith config (chainClient s.chain) (s.clientWith paged) balanceOf account param =
        caught (balanceOf s.chain.latest.timestampTo block) := by
    rw [getBalanceWith_chain balanceOf htag hcurrent (.inr hblock),
      if_neg (Bool.eq_false_iff.mp hclose)]
  cases hnamed with
  | number hvalid hfound =>
    rw [Chain.number_of_block? hfound] at hfar
    exact hbalance rfl (currentBlockNumber_number s.chain hvalid) hfar (blockOf_number hvalid hfound)
  | hash hvalid hfound =>
    exact hbalance rfl (currentBlockNumber_hash hvalid hfound) hfar hfound
  | earliest hfound => exact hbalance rfl rfl rfl hfound

/-- The transactions behind the first page that are asked for. -/
def fetchedTransactions (page : String → Option (Page AccountTransaction)) (timestamp : Timestamp) :
    Option NextPage → Except RelayError (List AccountTransaction)
  | none => .ok []
  | some next =>
      if next.timeMarker.any (· ≥ timestamp) then getAccountPaginated page next.url else .ok []

private theorem balanceOfBlock_of_recent (history : AccountHistory page s account)
    (recent : RecentBlock s) :
    balanceOfBlock (s.clientWith (getAccountPaginated page)) account s.chain.latest.timestampTo
        recent.block =
      (fetchedTransactions page recent.block.timestampTo history.mirrorAccount.next).map fun paged =>
        weibarsTo0x (history.mirrorAccount.balance.getD 0 - getBalanceAtBlockTimestamp
          history.mirrorAccount.account (history.mirrorAccount.transactions ++ paged)
          recent.block.timestampTo) := by
  have hrecent : ¬(s.chain.latest.timestampTo.seconds : ℤ) - recent.block.timestampFrom.seconds >
    BALANCES_UPDATE_INTERVAL := recent.recent
  have hget : (s.clientWith (getAccountPaginated page)).getAccountWithTransactions account =
      .ok (some history.mirrorAccount) := congrArg Except.ok history.found
  rw [balanceOfBlock, getBalanceAtBlockNumber, if_neg hrecent, hget]
  simp only [balanceBeforeTransactions, bind, Except.bind]
  cases history.mirrorAccount.next with
  | none => rfl
  | some next =>
    have hpaged : (s.clientWith (getAccountPaginated page)).getAccountPaginated next.url =
        getAccountPaginated page next.url := rfl
    simp only [getPagedTransactions, fetchedTransactions, hpaged]
    by_cases hmarker : next.timeMarker.any (· ≥ recent.block.timestampTo) = true
    · simp only [hmarker, if_true]
      cases getAccountPaginated page next.url <;> rfl
    · simp only [hmarker]
      rfl

private theorem getAccountPaginated_eq (url : String) : getAccountPaginated page url =
    if (pagesFrom page MAX_MIRROR_NODE_PAGINATION (accountPath url)).length <
        MAX_MIRROR_NODE_PAGINATION then
      .ok ((pagesFrom page MAX_MIRROR_NODE_PAGINATION (accountPath url)).flatMap resultsOf)
    else .error (.jsonRpcError (predefined.PAGINATION_MAX MAX_MIRROR_NODE_PAGINATION)) := by
  rw [getAccountPaginated, answerPages_getPaginatedResults (by decide)]
  split
  · rfl
  · rfl

namespace AccountHistory

variable (history : AccountHistory page s account) {timestamp : Timestamp}

private theorem fetched_of_within (hwithin : history.PagesWithin timestamp) :
    ∃ paged, fetchedTransactions page timestamp history.mirrorAccount.next = .ok paged ∧
      (paged.filter fun t => t.consensusTimestamp ≥ timestamp) =
        (furtherTransactions page history.furtherPages history.mirrorAccount.next).filter
          fun t => t.consensusTimestamp ≥ timestamp := by
  have hmarked := history.marked
  have hcomplete := history.complete
  unfold PagesWithin at hwithin
  cases hnext : history.mirrorAccount.next with
  | none => exact ⟨[], rfl, rfl⟩
  | some next =>
    rw [hnext] at hmarked hcomplete hwithin
    obtain ⟨marker, hmarker, hbefore⟩ := hmarked next rfl
    simp only [fetchedTransactions, hmarker, Option.any_some, decide_eq_true_eq]
    by_cases hle : timestamp ≤ marker
    · have hlt := hwithin next rfl marker hmarker hle
      rw [if_pos hle, getAccountPaginated_eq, if_pos hlt,
        (hasAtMost_of_lt hlt).eq_pagesFrom (hcomplete next rfl)]
      exact ⟨_, rfl, rfl⟩
    · rw [if_neg hle]
      refine ⟨[], rfl, ?_⟩
      rw [List.filter_nil, eq_comm, List.filter_eq_nil_iff]
      intro t ht
      have hlt := (hbefore t ht).trans (not_le.mp hle)
      simpa using hlt

private theorem fetched_of_not_within (hwithin : ¬history.PagesWithin timestamp) :
    ∃ e, fetchedTransactions page timestamp history.mirrorAccount.next = .error e := by
  simp only [PagesWithin, not_forall] at hwithin
  obtain ⟨next, hnext, marker, hmarker, hle, hlt⟩ := hwithin
  rw [Option.mem_def] at hnext hmarker
  rw [hnext, fetchedTransactions, hmarker, Option.any_some, if_pos (decide_eq_true hle),
    getAccountPaginated_eq, if_neg hlt]
  exact ⟨_, rfl⟩

/-- The answers about the account for the block. -/
def recentAccount (recent : RecentBlock s) {paged : List AccountTransaction}
    (hfetched : fetchedTransactions page recent.block.timestampTo history.mirrorAccount.next =
      .ok paged) :
    RecentAccount (s.clientWith (getAccountPaginated page)) account recent.block
      s.chain.latest.timestampTo where
  mirrorAccount := history.mirrorAccount
  paged := paged
  recent := recent.recent
  found := congrArg Except.ok history.found
  pages := by
    rw [← hfetched]
    cases history.mirrorAccount.next with
    | none => rfl
    | some next => rfl

private theorem getBalance_of_within (json : JSONBigInt) (recent : RecentBlock s)
    (hwithin : history.PagesWithin recent.block.timestampTo)
    (hfits : history.FitsDoubles json recent.block.timestampTo) :
    json.getBalance (s.clientWith (getAccountPaginated page)) config (chainClient s.chain) account
      recent.param = .ok (weibarsTo0x (history.balanceAt recent.block.timestampTo -
        history.addedAt recent.block.timestampTo)) := by
  obtain ⟨paged, hfetched, hfilter⟩ := history.fetched_of_within hwithin
  have hselected : (history.transactions.filter fun t =>
      t.consensusTimestamp ≥ recent.block.timestampTo) =
      (history.mirrorAccount.transactions ++ paged).filter fun t =>
        t.consensusTimestamp ≥ recent.block.timestampTo := by
    rw [transactions, List.filter_append, List.filter_append, hfilter]
  have hfits : (history.recentAccount recent hfetched).FitsDoubles json := by
    rw [FitsDoubles, selectedAmounts, hselected] at hfits
    exact hfits
  rw [JSONBigInt.getBalance, getBalanceWith_of_recent,
    RecentAccount.balanceOfBlock_of_fitsDoubles json _ hfits, balanceOfBlock_of_recent history,
    hfetched, caught_eq_ok_iff, Except.map]
  congr 2
  rw [getBalanceAtBlockTimestamp_eq, ← hselected, netTransfers_from, balanceAt, addedAt, sub_sub]

private theorem getBalance_of_not_within (json : JSONBigInt) (recent : RecentBlock s)
    (hwithin : ¬history.PagesWithin recent.block.timestampTo) :
    ∃ e, json.getBalance (s.clientWith (getAccountPaginated page)) config (chainClient s.chain)
      account recent.param = .error e := by
  obtain ⟨e, hfetched⟩ := history.fetched_of_not_within hwithin
  have hrecent : ¬(s.chain.latest.timestampTo.seconds : ℤ) - recent.block.timestampFrom.seconds >
    BALANCES_UPDATE_INTERVAL := recent.recent
  have hget : (s.clientWith (getAccountPaginated page)).getAccountWithTransactions account =
      .ok (some history.mirrorAccount) := congrArg Except.ok history.found
  have hbefore : json.balanceBeforeTransactions (s.clientWith (getAccountPaginated page))
      history.mirrorAccount recent.block = .error e := by
    rw [JSONBigInt.balanceBeforeTransactions]
    cases hnext : history.mirrorAccount.next with
    | none =>
      rw [hnext] at hfetched
      cases hfetched
    | some next =>
      rw [hnext] at hfetched
      exact congrArg (· >>= _) hfetched
  rw [JSONBigInt.getBalance, getBalanceWith_of_recent, JSONBigInt.balanceOfBlock,
    JSONBigInt.getBalanceAtBlockNumber, if_neg hrecent, hget]
  simp only [bind, Except.bind, hbefore]
  exact ⟨_, rfl⟩

/-- The balance as of a block of the last fifteen minutes is never that at its end if the further
pages are too many.  Where every value fits into a double, it is that at its end exactly if they
are not and the transactions at the very end have added nothing in sum. -/
theorem recent_balance_iff (config : CommonConfig) (json : JSONBigInt) (recent : RecentBlock s) :
    (history.EndOfBlockBalance config json recent →
      history.PagesWithin recent.block.timestampTo) ∧
    (history.FitsDoubles json recent.block.timestampTo →
      (history.EndOfBlockBalance config json recent ↔
        history.addedAt recent.block.timestampTo = 0 ∧
          history.PagesWithin recent.block.timestampTo)) := by
  by_cases hwithin : history.PagesWithin recent.block.timestampTo
  · refine ⟨fun _ => hwithin, fun hfits => ?_⟩
    rw [EndOfBlockBalance, history.getBalance_of_within json recent hwithin hfits, Except.ok.injEq,
      weibarsTo0x_injective.eq_iff, sub_eq_self]
    exact (and_iff_left hwithin).symm
  · obtain ⟨e, he⟩ := @getBalance_of_not_within config s account page history json recent hwithin
    rw [EndOfBlockBalance, he]
    exact ⟨nofun, fun _ => iff_of_false nofun fun h => hwithin h.2⟩

end AccountHistory

end Answers

section Boundary

/-- The account has sent 8 tinybars in the third block and received 20 in the second, of which a
further page tells. -/
def pagedReceiver : MirrorAccount :=
  { receiver with
    transactions := [⟨"0.0.1001-1696438004-0", (twoSeconds 2).block.timestampTo,
      [⟨"0.0.98", 8, false⟩, ⟨"0.0.1001", -8, false⟩]⟩]
    next := some ⟨"/api/v1/accounts/0.0.1001?limit=100&timestamp=lt:1696438005.999999999",
      some (twoSeconds 2).block.timestampTo⟩ }

def secondPage (url : String) : Option (Page AccountTransaction) :=
  if url = "accounts/0.0.1001?limit=100&timestamp=lt:1696438005.999999999" then
    some ⟨some [⟨"0.0.98-1696438002-0", (twoSeconds 1).block.timestampTo,
      [⟨"0.0.98", -20, false⟩, ⟨"0.0.1001", 20, false⟩]⟩], none⟩
  else none

def pagedNetwork : Network where
  chain := sixSeconds
  accounts :=
    { account := fun _ => some receiver
      accountWithTransactions := fun _ => some pagedReceiver
      page := fun _ => []
      balances := fun _ _ => none
      ethereumTransactions := fun _ _ _ => none
      transactionResult := fun _ => none
      pendingCount := fun _ => 0 }
  cachedBlockNumber := none
  cached_le := noCachedNumber_le

def pagedHistory : AccountHistory secondPage pagedNetwork receiver.evmAddress where
  mirrorAccount := pagedReceiver
  found := rfl
  furtherPages := 1
  complete next hnext := by
    cases hnext
    unfold HasAtMost
    decide
  marked next hnext := by
    cases hnext
    exact ⟨_, rfl, by decide⟩

def pagedFirst : RecentBlock pagedNetwork where
  param := .hex "0x0"
  block := (twoSeconds 0).block
  named := .number (by decide) rfl
  recent := by decide
  outside := by decide

/-- The balance at the end of the first block is less by what both pages tell. -/
theorem recent_balance_iff_twoPages :
    pagedHistory.FitsDoubles sixteenDigits pagedFirst.block.timestampTo ∧
      pagedHistory.EndOfBlockBalance {} sixteenDigits pagedFirst ∧
      pagedHistory.balanceAt pagedFirst.block.timestampTo = 88 := by
  have hfits : pagedHistory.FitsDoubles sixteenDigits pagedFirst.block.timestampTo := by
    have hamounts : selectedAmounts pagedHistory.mirrorAccount.account pagedHistory.transactions
        pagedFirst.block.timestampTo = [-8, 20] := by decide
    rw [AccountHistory.FitsDoubles, hamounts]
    exact sixteenDigits.fitsDoubles_of_small (by decide) (by decide)
  have hwithin : pagedHistory.PagesWithin pagedFirst.block.timestampTo := by
    intro next hnext marker _ _
    cases hnext
    decide
  exact ⟨hfits, ((pagedHistory.recent_balance_iff {} sixteenDigits pagedFirst).2 hfits).mpr
    ⟨by decide, hwithin⟩, by decide⟩

def receiverHistory : AccountHistory (fun _ => none) receiverNetwork receiver.evmAddress where
  mirrorAccount := receiver
  found := rfl
  furtherPages := 0
  complete next hnext := by cases hnext
  marked next hnext := by cases hnext

def firstOfThree : RecentBlock receiverNetwork where
  param := .hex "0x0"
  block := (twoSeconds 0).block
  named := .number (by decide) rfl
  recent := by decide
  outside := by decide

/-- The transaction belongs to the block, and yet it is taken off. -/
theorem boundary_transaction_subtracted :
    ¬receiverHistory.EndOfBlockBalance {} sixteenDigits firstOfThree := by
  have hwithin : receiverHistory.PagesWithin firstOfThree.block.timestampTo := by
    intro next hnext
    cases hnext
  have hfits : receiverHistory.FitsDoubles sixteenDigits firstOfThree.block.timestampTo := by
    have hamounts : selectedAmounts receiverHistory.mirrorAccount.account
        receiverHistory.transactions firstOfThree.block.timestampTo = [40] := by decide
    rw [AccountHistory.FitsDoubles, hamounts]
    exact sixteenDigits.fitsDoubles_of_small (by decide) (by decide)
  have hbalance := @AccountHistory.getBalance_of_within {} _ _ _ receiverHistory sixteenDigits
    firstOfThree hwithin hfits
  intro h
  rw [AccountHistory.EndOfBlockBalance, hbalance, Except.ok.injEq] at h
  exact absurd (weibarsTo0x_injective h) (by decide)

end Boundary

end JsonRpcRelay.Account
