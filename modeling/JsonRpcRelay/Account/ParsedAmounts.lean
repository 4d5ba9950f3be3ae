import JsonRpcRelay.Account.SameBlock
import JsonRpcRelay.Framework.Binary64

/-!
# Balances with parsed amounts

The mirror node client parses the integers of many digits into `BigNumber` objects and the others
into numbers.  The balance of a recent block is worked out with `+` and `-` on both kinds.
-/

namespace JsonRpcRelay.Account

open constants Js Mirror Common Contract Framework

section Values

/-- A parsed integer.  A number has few enough digits to be exact. -/
inductive JsonInteger where
  | number (n : ℤ)
  | bigNumber (n : ℤ)
  deriving DecidableEq

namespace JsonInteger

/-- `valueOf` of a `BigNumber` object is its text. -/
def toNumber : JsonInteger → Double
  | .number n => .integer n
  | .bigNumber n => .ofText (integerText n)

def text : JsonInteger → List Char
  | .number n => (Double.integer n).text
  | .bigNumber n => integerText n

def toBigInt : JsonInteger → ℤ
  | .number n | .bigNumber n => n

end JsonInteger

/-- The parser of the responses: an integer of more than fifteen digits becomes a `BigNumber`
object, a smaller one a number. -/
structure JSONBigInt where
  parse : ℤ → JsonInteger
  parse_eq : ∀ n, parse n = .number n ∨ parse n = .bigNumber n
  parse_long : ∀ n : ℤ, 10 ^ 15 ≤ n.natAbs → parse n = .bigNumber n
  parse_short : ∀ n : ℤ, n.natAbs < 10 ^ 14 → parse n = .number n

/-- A running total. -/
inductive Total where
  | number (x : Double)
  | string (text : List Char)
  deriving DecidableEq

namespace Total

/-- `total + amount`, which joins texts unless both are numbers. -/
def add : Total → JsonInteger → Total
  | .number x, .number n => .number (x.add (.integer n))
  | .number x, .bigNumber n => .string (x.text ++ integerText n)
  | .string text, amount => .string (text ++ amount.text)

def toNumber : Total → Double
  | .number x => x
  | .string text => .ofText text

end Total

/-- `amounts.reduce((total, amount) => total + amount, 0)`. -/
def sumAmounts (amounts : List JsonInteger) : Total := amounts.foldl .add (.number (.integer 0))

/-- `BigInt(x)`. -/
def bigIntOfNumber {m : Type → Type} [Monad m] [MonadExceptOf RelayError m] : Double → m ℤ
  | .integer n => return n
  | x => throw (.error ("The number " ++ String.ofList x.text ++
      " cannot be converted to a BigInt because it is not an integer"))

end Values

section Service

/-- The amounts of the transfers to and from the account, from a time on. -/
def selectedAmounts (account : String) (transactions : List AccountTransaction)
    (blockTimestamp : Timestamp) : List ℤ :=
  ((transactions.filter fun t => t.consensusTimestamp ≥ blockTimestamp).flatMap fun t =>
    t.transfers.filter fun transfer => transfer.account = account ∧ ¬transfer.isApproval).map
      (·.amount)

namespace JSONBigInt

variable {m : Type → Type} [Monad m] [MonadExceptOf RelayError m]
variable (json : JSONBigInt) (client : AccountClient m)

def getBalanceAtBlockTimestamp (account : String) (transactions : List AccountTransaction)
    (blockTimestamp : Timestamp) : Total :=
  sumAmounts ((selectedAmounts account transactions blockTimestamp).map json.parse)

/-- A missing balance counts as zero. -/
def currentBalance (mirrorAccount : MirrorAccount) : JsonInteger :=
  (mirrorAccount.balance.map json.parse).getD (.number 0)

def balanceBeforeTransactions (mirrorAccount : MirrorAccount) (block : MirrorNodeBlock) : m ℤ := do
  let paged ← match mirrorAccount.next with
    | some nextPage => getPagedTransactions client nextPage block
    | none => pure []
  let balanceFromTxs := json.getBalanceAtBlockTimestamp mirrorAccount.account
    (mirrorAccount.transactions ++ paged) block.timestampTo
  let tinybars ← bigIntOfNumber ((json.currentBalance mirrorAccount).toNumber.sub
    balanceFromTxs.toNumber)
  return tinybars * TINYBAR_TO_WEIBAR_COEF

/-- The balance in weibars, if it is found. -/
def getBalanceAtBlockNumber (account : String) (block : MirrorNodeBlock)
    (latestTimestamp : Timestamp) : m (Option ℤ) :=
  if (latestTimestamp.seconds : ℤ) - block.timestampFrom.seconds > BALANCES_UPDATE_INTERVAL then do
    match ← client.getBalanceAtTimestamp account block.timestampFrom with
    | some (balance :: _) => return some ((json.parse balance).toBigInt * TINYBAR_TO_WEIBAR_COEF)
    | _ => return some 0
  else do
    match ← client.getAccountWithTransactions account with
    | some mirrorAccount => return some (← json.balanceBeforeTransactions client mirrorAccount block)
    | none => return none

def balanceOfBlock (account : String) (latestTimestamp : Timestamp) (block : MirrorNodeBlock) :
    m String := do
  match ← json.getBalanceAtBlockNumber client account block latestTimestamp with
  | some weibars => return numberTo0x weibars
  | none => getCurrentBalance client account

def getBalance (config : CommonConfig) (mirror : MirrorNodeClient m) (account : String)
    (blockNumberOrTagOrHash : BlockParam) : m String :=
  getBalanceWith config mirror client (json.balanceOfBlock client account) account
    blockNumberOrTagOrHash

end JSONBigInt

end Service

section Exact

/-- The amounts are numbers, and a double can hold the balance, the totals and the difference. -/
structure JSONBigInt.FitsDoubles (json : JSONBigInt) (currentBalance : ℤ) (amounts : List ℤ) :
    Prop where
  numbers : ∀ amount ∈ amounts, json.parse amount = .number amount
  balance : Double.Holds currentBalance
  totals : ∀ selected rest, amounts = selected ++ rest → Double.Holds selected.sum
  difference : Double.Holds (currentBalance - amounts.sum)

variable (json : JSONBigInt) {client : AccountClient (Except RelayError)} {account : String}
  {block : MirrorNodeBlock} {latestTimestamp : Timestamp}

/-- What the mirror node answers about an account for a block of the last fifteen minutes. -/
structure RecentAccount (client : AccountClient (Except RelayError)) (account : String)
    (block : MirrorNodeBlock) (latestTimestamp : Timestamp) where
  mirrorAccount : MirrorAccount
  paged : List AccountTransaction
  recent : ¬(latestTimestamp.seconds : ℤ) - block.timestampFrom.seconds > BALANCES_UPDATE_INTERVAL
  found : client.getAccountWithTransactions account = .ok (some mirrorAccount)
  pages : (mirrorAccount.next.elim (.ok []) fun nextPage =>
    getPagedTransactions client nextPage block) = .ok paged

namespace RecentAccount

variable (recent : RecentAccount client account block latestTimestamp)

def balance : ℤ := recent.mirrorAccount.balance.getD 0

def amounts : List ℤ :=
  selectedAmounts recent.mirrorAccount.account
    (recent.mirrorAccount.transactions ++ recent.paged) block.timestampTo

/-- The balance less the amounts, worked out without rounding, without joining texts and without
an exception. -/
structure ExactArithmetic : Prop where
  balance : (json.currentBalance recent.mirrorAccount).toNumber = .integer recent.balance
  totals : ∀ selected rest, recent.amounts = selected ++ rest →
    sumAmounts (selected.map json.parse) = .number (.integer selected.sum)
  value : json.getBalanceAtBlockNumber client account block latestTimestamp =
    .ok (some ((recent.balance - recent.amounts.sum) * TINYBAR_TO_WEIBAR_COEF))

/-- Every value on the way to the balance of the block fits. -/
def FitsDoubles : Prop := json.FitsDoubles recent.balance recent.amounts

end RecentAccount

private theorem sumAmounts_concat (amounts : List JsonInteger) (amount : JsonInteger) :
    sumAmounts (amounts ++ [amount]) = (sumAmounts amounts).add amount :=
  List.foldl_concat _ _ _ _

private theorem add_number (m n : ℤ) : (Total.number (.integer m)).add (.number n) =
    .number (.ofInt (m + n)) := by
  rw [Total.add, Double.add_integer]

private theorem toNumber_bigNumber (n : ℤ) : (JsonInteger.bigNumber n).toNumber = .ofInt n :=
  Double.ofText_integerText n

namespace JSONBigInt

private theorem holds_of_number {n : ℤ} (h : json.parse n = .number n) : Double.Holds n := by
  apply Double.holds_of_lt
  by_contra hlarge
  rw [json.parse_long n (by omega)] at h
  cases h

private theorem toNumber_parse_iff (n : ℤ) :
    (json.parse n).toNumber = .integer n ↔ Double.Holds n := by
  cases json.parse_eq n with
  | inl h =>
    rw [h]
    exact iff_of_true rfl (json.holds_of_number h)
  | inr h => rw [h, toNumber_bigNumber, Double.ofInt_eq_integer_iff]

private theorem toNumber_currentBalance_iff (mirrorAccount : MirrorAccount) :
    (json.currentBalance mirrorAccount).toNumber = .integer (mirrorAccount.balance.getD 0) ↔
      Double.Holds (mirrorAccount.balance.getD 0) := by
  rw [currentBalance]
  cases mirrorAccount.balance with
  | none => exact iff_of_true rfl (Double.holds_of_lt (by decide))
  | some balance => exact json.toNumber_parse_iff balance

private theorem sumAmounts_eq {amounts : List ℤ}
    (hnumbers : ∀ a ∈ amounts, json.parse a = .number a)
    (htotals : ∀ selected rest, amounts = selected ++ rest → Double.Holds selected.sum) :
    sumAmounts (amounts.map json.parse) = .number (.integer amounts.sum) := by
  induction amounts using List.reverseRecOn with
  | nil => rfl
  | append_singleton amounts amount ih =>
    have hbefore := ih (fun a ha => hnumbers a (List.mem_append_left _ ha))
      (fun selected rest h => htotals selected (rest ++ [amount]) (by simp [h]))
    have hsum := htotals (amounts ++ [amount]) [] (List.append_nil _).symm
    rw [List.sum_append, List.sum_singleton] at hsum ⊢
    rw [List.map_append, List.map_singleton, sumAmounts_concat, hbefore,
      hnumbers amount (by simp), add_number, Double.ofInt_eq_integer_iff.mpr hsum]

private theorem natAbs_sum_le (amounts : List ℤ) :
    amounts.sum.natAbs ≤ (amounts.map Int.natAbs).sum := by
  induction amounts with
  | nil => exact Nat.le_refl 0
  | cons amount amounts ih =>
    rw [List.sum_cons, List.map_cons, List.sum_cons]
    exact (Int.natAbs_add_le _ _).trans (Nat.add_le_add_left ih _)

theorem fitsDoubles_of_small {currentBalance : ℤ} {amounts : List ℤ}
    (hshort : ∀ a ∈ amounts, a.natAbs < 10 ^ 14)
    (hsmall : currentBalance.natAbs + (amounts.map Int.natAbs).sum < 2 ^ 53) :
    json.FitsDoubles currentBalance amounts where
  numbers a ha := json.parse_short a (hshort a ha)
  balance := Double.holds_of_lt (by omega)
  totals selected rest hamounts := by
    have hle := natAbs_sum_le selected
    rw [hamounts, List.map_append, List.sum_append] at hsmall
    exact Double.holds_of_lt (by omega)
  difference := by
    have hle := natAbs_sum_le amounts
    exact Double.holds_of_lt (by omega)

private theorem number_of_totals {selected : List ℤ} {amount : ℤ}
    (hbefore : sumAmounts (selected.map json.parse) = .number (.integer selected.sum))
    (hafter : sumAmounts ((selected ++ [amount]).map json.parse) =
      .number (.integer (selected ++ [amount]).sum)) :
    json.parse amount = .number amount ∧ Double.Holds (selected ++ [amount]).sum := by
  rw [List.map_append, List.map_singleton, sumAmounts_concat, hbefore] at hafter
  cases json.parse_eq amount with
  | inl h =>
    rw [h, add_number, Total.number.injEq] at hafter
    refine ⟨h, Double.ofInt_eq_integer_iff.mp ?_⟩
    rw [List.sum_append, List.sum_singleton] at hafter ⊢
    exact hafter
  | inr h =>
    rw [h, Total.add] at hafter
    cases hafter

end JSONBigInt

private theorem bigIntOfNumber_ofInt_iff (n : ℤ) :
    (bigIntOfNumber (.ofInt n) : Except RelayError ℤ) = .ok n ↔ Double.Holds n := by
  rw [← Double.ofInt_eq_integer_iff]
  cases Double.ofInt n with
  | integer k => simp [bigIntOfNumber, pure, Except.pure]
  | infinity negative => simp [bigIntOfNumber, throw, throwThe, MonadExceptOf.throw]
  | nan => simp [bigIntOfNumber, throw, throwThe, MonadExceptOf.throw]

namespace RecentAccount

variable (recent : RecentAccount client account block latestTimestamp)

private theorem getBalanceAtBlockNumber_eq :
    json.getBalanceAtBlockNumber client account block latestTimestamp =
      Except.map (fun tinybars : ℤ => some (tinybars * TINYBAR_TO_WEIBAR_COEF))
        (bigIntOfNumber ((json.currentBalance recent.mirrorAccount).toNumber.sub
          (sumAmounts (recent.amounts.map json.parse)).toNumber)) := by
  have hpages := recent.pages
  rw [JSONBigInt.getBalanceAtBlockNumber, if_neg recent.recent, recent.found]
  simp only [JSONBigInt.balanceBeforeTransactions, JSONBigInt.getBalanceAtBlockTimestamp, amounts,
    bind, Except.bind]
  cases hnext : recent.mirrorAccount.next with
  | none =>
    rw [hnext, Option.elim_none, Except.ok.injEq] at hpages
    rw [← hpages]
    simp only [pure, Except.pure]
    generalize Double.sub _ _ = x
    cases x <;> rfl
  | some nextPage =>
    rw [hnext, Option.elim_some] at hpages
    simp only [hpages]
    generalize Double.sub _ _ = x
    cases x <;> rfl

private theorem value_iff (hbalance : (json.currentBalance recent.mirrorAccount).toNumber =
      .integer recent.balance)
    (htotal : sumAmounts (recent.amounts.map json.parse) = .number (.integer recent.amounts.sum)) :
    json.getBalanceAtBlockNumber client account block latestTimestamp =
        .ok (some ((recent.balance - recent.amounts.sum) * TINYBAR_TO_WEIBAR_COEF)) ↔
      Double.Holds (recent.balance - recent.amounts.sum) := by
  rw [recent.getBalanceAtBlockNumber_eq, hbalance, htotal, Total.toNumber, Double.sub_integer,
    ← bigIntOfNumber_ofInt_iff]
  cases (bigIntOfNumber _ : Except RelayError ℤ) with
  | error e => simp [Except.map]
  | ok tinybars =>
    have hcoef : TINYBAR_TO_WEIBAR_COEF ≠ 0 := by decide
    simp [Except.map, hcoef]

private theorem exact_arithmetic (h : recent.FitsDoubles json) : recent.ExactArithmetic json := by
  have hbalance := (json.toNumber_currentBalance_iff recent.mirrorAccount).mpr h.balance
  have htotals (selected rest : List ℤ) (hamounts : recent.amounts = selected ++ rest) :
      sumAmounts (selected.map json.parse) = .number (.integer selected.sum) := by
    apply json.sumAmounts_eq
    · exact fun a ha => h.numbers a (hamounts ▸ List.mem_append_left _ ha)
    · exact fun first second hsel => h.totals first (second ++ rest) (by simp [hamounts, hsel])
  exact ⟨hbalance, htotals,
    (recent.value_iff json hbalance (htotals _ [] (by simp))).mpr h.difference⟩

/-- The balance of a recent block is worked out exactly if and only if no selected amount has
become a `BigNumber` object and a double can hold every value on the way. -/
theorem exact_arithmetic_iff : recent.ExactArithmetic json ↔ recent.FitsDoubles json := by
  refine ⟨?_, recent.exact_arithmetic json⟩
  intro h
  have hstep (selected rest : List ℤ) (amount : ℤ)
      (hamounts : recent.amounts = selected ++ amount :: rest) :=
    json.number_of_totals (h.totals selected (amount :: rest) hamounts)
      (h.totals (selected ++ [amount]) rest (by simp [hamounts]))
  refine ⟨?_, ?_, ?_, ?_⟩
  · intro amount hmem
    obtain ⟨selected, rest, hamounts⟩ := List.append_of_mem hmem
    exact (hstep selected rest amount hamounts).1
  · exact (json.toNumber_currentBalance_iff recent.mirrorAccount).mp h.balance
  · intro selected rest hamounts
    induction selected using List.reverseRecOn with
    | nil => exact Double.holds_of_lt (by decide)
    | append_singleton selected amount _ =>
      exact (hstep selected rest amount (by simp [hamounts])).2
  · exact (recent.value_iff json h.balance (h.totals _ [] (by simp))).mp h.value

private theorem getBalanceAtBlockNumber_of_fitsDoubles (h : recent.FitsDoubles json) :
    json.getBalanceAtBlockNumber client account block latestTimestamp =
      Except.map (Option.map fun tinybars : ℤ => tinybars * TINYBAR_TO_WEIBAR_COEF)
        (Account.getBalanceAtBlockNumber client account block latestTimestamp) := by
  have hpages := recent.pages
  rw [(recent.exact_arithmetic json h).value, Account.getBalanceAtBlockNumber, if_neg recent.recent,
    recent.found]
  simp only [balanceBeforeTransactions, bind, Except.bind]
  rw [balance, amounts, selectedAmounts, List.sum_eq_foldl]
  cases hnext : recent.mirrorAccount.next with
  | none =>
    rw [hnext, Option.elim_none, Except.ok.injEq] at hpages
    rw [← hpages]
    rfl
  | some nextPage =>
    rw [hnext, Option.elim_some] at hpages
    simp only [hpages]
    rfl

theorem balanceOfBlock_of_fitsDoubles (h : recent.FitsDoubles json) :
    json.balanceOfBlock client account latestTimestamp block =
      Account.balanceOfBlock client account latestTimestamp block := by
  rw [JSONBigInt.balanceOfBlock, recent.getBalanceAtBlockNumber_of_fitsDoubles json h,
    Account.balanceOfBlock]
  cases Account.getBalanceAtBlockNumber client account block latestTimestamp with
  | error e => rfl
  | ok tinybars =>
    cases tinybars with
    | none => rfl
    | some tinybars => rfl

end RecentAccount

end Exact

section Concatenated

/-- Blocks of two seconds. -/
def twoSeconds (n : ℕ) : ChainBlock where
  block :=
    { count := 1, gasUsed := 0, hash := "0x", logsBloom := "0x", number := n, previousHash := "0x"
      size := none
      timestampFrom := (1696438000 + 2 * n) * 10 ^ 9
      timestampTo := (1696438000 + 2 * n) * 10 ^ 9 + 1999999999 }
  logs := []

def sixSeconds : Chain :=
  (((Chain.single (twoSeconds 0) rfl (by decide) rfl).append (twoSeconds 1)).bind fun chain =>
    chain.append (twoSeconds 2)).get (by decide)

/-- The account has received 40 tinybars at the very end of the first block. -/
def receiver : MirrorAccount where
  account := "0.0.1001"
  evmAddress := "0x00000000000000000000000000000000000003e9"
  balance := some 100
  ethereumNonce := some 0
  transactions := [⟨"0.0.98-1696438000-0", (twoSeconds 0).block.timestampTo,
    [⟨"0.0.98", -40, false⟩, ⟨"0.0.1001", 40, false⟩]⟩]
  next := none

theorem noCachedNumber_le (n : ℕ) (hn : n ∈ (none : Option ℕ)) : n ≤ sixSeconds.head := by
  cases hn

def receiverNetwork : Network where
  chain := sixSeconds
  accounts :=
    { account := fun _ => some receiver
      accountWithTransactions := fun _ => some receiver
      page := fun _ => []
      balances := fun _ _ => none
      ethereumTransactions := fun _ _ _ => none
      transactionResult := fun _ => none
      pendingCount := fun _ => 0 }
  cachedBlockNumber := none
  cached_le := noCachedNumber_le

def sixteenDigits : JSONBigInt where
  parse n := if 10 ^ 15 ≤ n.natAbs then .bigNumber n else .number n
  parse_eq n := by
    split
    · exact .inr rfl
    · exact .inl rfl
  parse_long n h := if_pos h
  parse_short n h := if_neg (by omega)

/-- All of the balance was received after the block, in amounts of sixteen digits and of one. -/
def depositor : MirrorAccount :=
  { receiver with
    balance := some 1000000000000005
    transactions := [⟨"0.0.98-1696438002-0", (twoSeconds 1).block.timestampTo,
      [⟨"0.0.1001", 1000000000000000, false⟩, ⟨"0.0.1001", 5, false⟩]⟩] }

def depositorClient : AccountClient (Except RelayError) :=
  { receiverNetwork.client with getAccountWithTransactions := fun _ => .ok (some depositor) }

def deposits : RecentAccount depositorClient depositor.evmAddress (twoSeconds 0).block
    (twoSeconds 2).block.timestampTo where
  mirrorAccount := depositor
  paged := []
  recent := by decide
  found := rfl
  pages := rfl

/-- The texts are joined to one of seventeen digits, and the balance is negative. -/
theorem deposits_concatenated : ¬deposits.ExactArithmetic sixteenDigits := by
  have hvalue : sixteenDigits.getBalanceAtBlockNumber depositorClient depositor.evmAddress
      (twoSeconds 0).block (twoSeconds 2).block.timestampTo =
        .ok (some (-8999999999999999 * TINYBAR_TO_WEIBAR_COEF)) := by decide +kernel
  have hexact : deposits.balance - deposits.amounts.sum = 0 := by decide
  intro h
  have hsame := hvalue.symm.trans h.value
  rw [hexact] at hsame
  exact absurd hsame (by decide)

end Concatenated

end JsonRpcRelay.Account
