import JsonRpcRelay.Cache.StoredResults
import JsonRpcRelay.Clients.CacheClients
import JsonRpcRelay.Framework.Interleaving
import JsonRpcRelay.Framework.JsonReader

/-!
# Cached methods over an unreliable Redis

Redis may reject a command, execute it and lose the reply, and drop an entry at any time.  The
calls of cached methods run next to each other.  None of them fails because of Redis, and what is
answered from the cache is the JSON of an earlier result for the same key.
-/

namespace JsonRpcRelay.Cache

open Framework Clients

section Model

inductive RedisCacheError where
  | command
  | syntaxError

/-- What a method returns: a value, or an error of JSON-RPC. -/
inductive Returned where
  | value (x : Json)
  | jsonRpcError (e : JsonRpcError)

def Returned.isTruthy : Returned → Bool
  | .value x => isTruthyJson x
  | .jsonRpcError _ => true

def Returned.toJSON : Returned → Json
  | .value x => x
  | .jsonRpcError e =>
      .object (("code", .number (.ofInt e.code)) ::
        (e.data.elim [] fun data => [("data", .string data)]) ++
          [("message", .string e.message), ("name", .string "JsonRpcError")])

/-- What a call asks for: the commands of Redis, and the method under the decorator. -/
inductive CallOp where
  | get (prefixedKey : String)
  | set (prefixedKey serializedValue : String) (px : Option ℕ)
  | target (cacheKey : String)

@[reducible] def CallOp.Reply : CallOp → Type
  | .get _ => Except RedisCacheError (Option String)
  | .set .. => Except RedisCacheError Unit
  | .target _ => Except RelayError Returned

abbrev CallM := ExceptT RedisCacheError (Prog CallOp CallOp.Reply)

def prefixKey (key : String) : String := "cache:" ++ key

namespace RedisCache

/-- What is made of a text, if there is one. -/
def parse : Option String → Except RedisCacheError (Option Json)
  | none => .ok none
  | some result =>
      if result = "" then .ok none
      else
        match Json.parse result with
        | some value => .ok (some value)
        | none => .error .syntaxError

def get (key : String) : CallM (Option Json) := do
  let result ← ExceptT.mk (Prog.call (CallOp.get (prefixKey key)))
  ExceptT.mk (return parse result)

def set (key : String) (value : Returned) (ttl : ℤ) : CallM Unit :=
  ExceptT.mk (Prog.call (CallOp.set (prefixKey key) value.toJSON.stringify
    (if 0 < ttl then some ttl.toNat else none)))

end RedisCache

namespace SafeRedisCache

def safeCall {α : Type} (fn : CallM α) (fallback : α) : Prog CallOp CallOp.Reply α := do
  match ← fn.run with
  | .ok result => return result
  | .error _ => return fallback

def getAsync (key : String) : Prog CallOp CallOp.Reply (Option Json) :=
  safeCall (RedisCache.get key) none

def set (key : String) (value : Returned) (ttl : ℤ) : Prog CallOp CallOp.Reply Unit :=
  safeCall (RedisCache.set key value ttl) ()

end SafeRedisCache

/-- A call of a method under the decorator. -/
def cachedCall (method : CachedMethod) (args : List Arg) (ttl : ℤ) :
    Prog CallOp CallOp.Reply (Except RelayError Returned) := do
  let cacheKey := method.cacheKey args
  match (← SafeRedisCache.getAsync cacheKey).filter isTruthyJson with
  | some cachedResponse => return .ok (.value cachedResponse)
  | none =>
    match ← Prog.call (CallOp.target cacheKey) with
    | .error e => return .error e
    | .ok result =>
      if method.stores args result.isTruthy then SafeRedisCache.set cacheKey result ttl
      return .ok result

end Model

section Redis

/-- A text that was stored under a key, and when. -/
structure Write where
  key : String
  text : String
  time : ℕ

/-- The server.  What the methods have returned and what was ever stored is kept beside the
entries. -/
structure RedisState where
  now : ℕ
  entries : Store String fun _ => String
  outcomes : List (String × Except RelayError Returned)
  writes : List Write

inductive Luck where
  | executed
  | rejected
  | replyLost
  deriving DecidableEq

/-- How a request goes: the fate of a command, and what the method returns, whose objects have no
property twice. -/
structure CallChoice where
  luck : Luck
  outcome : Except RelayError { result : Returned // result.toJSON.Distinct }

inductive RedisEvent where
  | pass (ms : ℕ)
  | drop (key : String)

namespace RedisState

def write (s : RedisState) (key text : String) (px : Option ℕ) : RedisState :=
  { s with
    entries := s.entries.insert key ⟨text, px.map fun ttl => s.now + ttl⟩
    writes := ⟨key, text, s.now⟩ :: s.writes }

def act (expiry : RedisExpiry) : (op : CallOp) → CallChoice → RedisState →
    Option (op.Reply × RedisState)
  | .get key, choice, s =>
      some (if choice.luck = .executed then .ok (s.entries.get expiry.toExpiry s.now key)
        else .error .command, s)
  | .set key text px, choice, s =>
      some (if choice.luck = .executed then .ok () else .error .command,
        if choice.luck = .rejected then s else s.write key text px)
  | .target key, choice, s =>
      let outcome := choice.outcome.map (·.val)
      some (outcome, { s with outcomes := (key, outcome) :: s.outcomes })

def env : RedisEvent → RedisState → Option RedisState
  | .pass ms, s => some { s with now := s.now + ms }
  | .drop key, s => some { s with entries := s.entries.erase key }

def empty : RedisState := ⟨0, ∅, [], []⟩

end RedisState

/-- When a call has read the cache, and what its own method has returned. -/
structure CallRecord where
  readAt : ℕ
  returned : Option (Except RelayError Returned)

def CallRecord.note (l : CallRecord) : (op : CallOp) → op.Reply → RedisState → RedisState →
    CallRecord
  | .get _, _, s, _ => { l with readAt := s.now }
  | .set .., _, _, _ => l
  | .target _, outcome, _, _ => { l with returned := some outcome }

def redisProtocol (expiry : RedisExpiry) :
    Protocol CallOp CallOp.Reply CallChoice RedisEvent RedisState CallRecord where
  act := RedisState.act expiry
  env := RedisState.env
  note := CallRecord.note

/-- Any number of calls at once, with an empty cache. -/
def startCalls {ι : Type} (methods : ι → CachedMethod) (args : ι → List Arg) (ttl : ℤ) :
    Pool ι CallOp CallOp.Reply (Except RelayError Returned) RedisState CallRecord where
  shared := RedisState.empty
  prog i := cachedCall (methods i) (args i) ttl
  ghost _ := ⟨0, none⟩

/-- Some arguments with this key let the result be stored. -/
def MayStore (key : String) (result : Returned) : Prop :=
  ∃ (method : CachedMethod) (args : List Arg), key = method.cacheKey args ∧
    method.stores args result.isTruthy = true

/-- The call is answered by its own method, or else from the cache: by the JSON of what a method
has returned for the same key, stored no longer ago than its time to live.  An error that a method
returns is served in the same way, as the JSON of the error; one that it throws never is. -/
def Genuine (ttl : ℤ) (key : String) (result : Except RelayError Returned) (l : CallRecord)
    (s : RedisState) : Prop :=
  match l.returned with
  | some outcome => result = outcome
  | none => ∃ earlier time, (key, .ok earlier) ∈ s.outcomes ∧ MayStore key earlier ∧
      ⟨prefixKey key, earlier.toJSON.stringify, time⟩ ∈ s.writes ∧
      time ≤ l.readAt ∧ (0 < ttl → l.readAt ≤ time + ttl.toNat) ∧
      result = .ok (.value earlier.toJSON.plain)

end Redis

section Calls

variable {ttl : ℤ} {s t : RedisState} {l : CallRecord} {key : String}

/-- What a command `GET` says about the cache, whatever has become of it. -/
def readReply (reply : Except RedisCacheError (Option String)) : Option Json :=
  match reply >>= RedisCache.parse with
  | .ok value => value
  | .error _ => none

private theorem getAsync_eq (key : String) : SafeRedisCache.getAsync key =
    (Prog.call (CallOp.get (prefixKey key)) >>= fun reply => return readReply reply) := by
  show Prog.request (CallOp.get (prefixKey key)) _ = Prog.request (CallOp.get (prefixKey key)) _
  congr 1
  funext reply
  cases reply with
  | error e => rfl
  | ok result =>
    simp only [Prog.bind, ExceptT.bindCont, ExceptT.mk, readReply, bind, Except.bind, pure]
    cases RedisCache.parse result <;> rfl

theorem set_eq (key : String) (value : Returned) (ttl : ℤ) : SafeRedisCache.set key value ttl =
    (Prog.call (CallOp.set (prefixKey key) value.toJSON.stringify
      (if 0 < ttl then some ttl.toNat else none)) >>= fun _ => return ()) := by
  show Prog.request (CallOp.set ..) _ = Prog.request (CallOp.set ..) _
  congr 1
  funext reply
  cases reply <;> rfl

/-- Every entry was stored by a call, as the JSON of what a method has returned for its key. -/
structure Kept (ttl : ℤ) (s : RedisState) : Prop where
  entry : ∀ key e, s.entries.lookup key = some e → ∃ time ≤ s.now,
    ⟨key, e.value, time⟩ ∈ s.writes ∧
      e.deadline = if 0 < ttl then some (time + ttl.toNat) else none
  write : ∀ w ∈ s.writes, ∃ key result, w.key = prefixKey key ∧
    (key, .ok result) ∈ s.outcomes ∧ MayStore key result ∧
      w.text = result.toJSON.stringify ∧ result.toJSON.Distinct

private theorem kept_empty : Kept ttl RedisState.empty :=
  ⟨fun _ _ h => (by cases h), fun _ h => (by cases h)⟩

theorem Kept.pass (h : Kept ttl s) (ms : ℕ) : Kept ttl { s with now := s.now + ms } := by
  refine ⟨fun key e he => ?_, h.write⟩
  obtain ⟨time, htime, hrest⟩ := h.entry key e he
  exact ⟨time, htime.trans (Nat.le_add_right _ _), hrest⟩

theorem Kept.drop (h : Kept ttl s) (key : String) :
    Kept ttl { s with entries := s.entries.erase key } := by
  refine ⟨fun key' e he => ?_, h.write⟩
  by_cases hkey : key' = key
  · subst hkey
    rw [AList.lookup_erase] at he
    cases he
  · rw [AList.lookup_erase_ne hkey] at he
    exact h.entry key' e he

theorem Kept.returned (h : Kept ttl s) (outcome : String × Except RelayError Returned) :
    Kept ttl { s with outcomes := outcome :: s.outcomes } := by
  refine ⟨h.entry, fun w hw => ?_⟩
  obtain ⟨key, result, hkey, houtcome, hrest⟩ := h.write w hw
  exact ⟨key, result, hkey, List.mem_cons_of_mem _ houtcome, hrest⟩

theorem Kept.stored (h : Kept ttl s) {result : Returned} (hresult : (key, .ok result) ∈ s.outcomes)
    (hstore : MayStore key result) (hdistinct : result.toJSON.Distinct) :
    Kept ttl (s.write (prefixKey key) result.toJSON.stringify
      (if 0 < ttl then some ttl.toNat else none)) := by
  constructor
  · intro key' e he
    by_cases hkey : key' = prefixKey key
    · subst hkey
      rw [RedisState.write, AList.lookup_insert] at he
      obtain rfl := Option.some.inj he
      refine ⟨s.now, Nat.le_refl _, List.mem_cons_self, ?_⟩
      split <;> rfl
    · rw [RedisState.write, AList.lookup_insert_ne hkey] at he
      obtain ⟨time, htime, hwrite, hdeadline⟩ := h.entry key' e he
      exact ⟨time, htime, List.mem_cons_of_mem _ hwrite, hdeadline⟩
  · intro w hw
    rcases List.mem_cons.mp hw with rfl | hw
    · exact ⟨key, result, rfl, hresult, hstore, rfl, hdistinct⟩
    · exact h.write w hw

theorem Kept.read (h : Kept ttl s) {expiry : RedisExpiry} {x : Json}
    (hread : readReply (.ok (s.entries.get expiry.toExpiry s.now (prefixKey key))) = some x) :
    ∃ earlier time, (key, .ok earlier) ∈ s.outcomes ∧ MayStore key earlier ∧
      ⟨prefixKey key, earlier.toJSON.stringify, time⟩ ∈ s.writes ∧ time ≤ s.now ∧
        (0 < ttl → s.now ≤ time + ttl.toNat) ∧ x = earlier.toJSON.plain := by
  cases htext : s.entries.get expiry.toExpiry s.now (prefixKey key) with
  | none =>
    rw [htext] at hread
    cases hread
  | some text =>
    rw [htext] at hread
    simp only [Store.get, Option.bind_eq_some_iff, Option.ite_none_right_eq_some,
      Option.some.injEq] at htext
    obtain ⟨e, hlookup, halive, rfl⟩ := htext
    obtain ⟨time, htime, hwrite, hdeadline⟩ := h.entry _ e hlookup
    obtain ⟨key', earlier, hkey, houtcome, hstore, htext, hdistinct⟩ := h.write _ hwrite
    obtain rfl : key = key' := by simpa [prefixKey] using hkey
    dsimp only at htext
    refine ⟨earlier, time, houtcome, hstore, htext ▸ hwrite, htime, fun hpos => ?_, ?_⟩
    · rw [if_pos hpos] at hdeadline
      rw [Entry.aliveAt, hdeadline, Option.all_some] at halive
      by_contra hlate
      rw [expiry.after (by omega)] at halive
      cases halive
    · have hparse := Json.parse_stringify hdistinct
      rw [← htext] at hparse
      simp only [readReply, bind, Except.bind, RedisCache.parse, hparse] at hread
      split at hread
      · rename_i value hvalue
        split at hvalue
        · cases hvalue
          cases hread
        · cases hvalue
          exact (Option.some.inj hread).symm
      · cases hread

/-- Time passes, and what the methods have returned and what was stored stays on record. -/
structure RedisState.Grows (ttl : ℤ) (s t : RedisState) : Prop where
  now : s.now ≤ t.now
  outcomes : s.outcomes ⊆ t.outcomes
  writes : s.writes ⊆ t.writes
  kept : Kept ttl s → Kept ttl t

/-- Any command may go wrong and any entry may be dropped. -/
def redisContract (expiry : RedisExpiry) (ttl : ℤ) : (redisProtocol expiry).Contract where
  request _ _ _ := True
  env _ _ := True
  rely := RedisState.Grows ttl
  refl s := ⟨Nat.le_refl _, List.Subset.refl _, List.Subset.refl _, id⟩
  trans _ _ _ h h' := ⟨h.now.trans h'.now, List.Subset.trans h.outcomes h'.outcomes,
    List.Subset.trans h.writes h'.writes, fun hkept => h'.kept (h.kept hkept)⟩
  env_rely e s t _ h := by
    cases e with
    | pass ms =>
      obtain rfl := Option.some.inj h
      exact ⟨Nat.le_add_right _ _, List.Subset.refl _, List.Subset.refl _, fun hkept => hkept.pass ms⟩
    | drop key =>
      obtain rfl := Option.some.inj h
      exact ⟨Nat.le_refl _, List.Subset.refl _, List.Subset.refl _, fun hkept => hkept.drop key⟩

theorem Genuine.later {result : Except RelayError Returned} (h : Genuine ttl key result l s)
    (hgrows : RedisState.Grows ttl s t) : Genuine ttl key result l t := by
  unfold Genuine at h ⊢
  split at h
  · exact h
  · obtain ⟨earlier, time, houtcome, hstore, hwrite, hrest⟩ := h
    exact ⟨earlier, time, hgrows.outcomes houtcome, hstore, hgrows.writes hwrite, hrest⟩

private theorem wp_store {expiry : RedisExpiry} {result : Returned} {stores : Bool}
    (hstore : stores = true → MayStore key result)
    (hresult : (key, .ok result) ∈ s.outcomes) (hdistinct : result.toJSON.Distinct)
    (hreturned : l.returned = some (.ok result)) :
    (redisContract expiry ttl).wp
      (if stores then SafeRedisCache.set key result ttl >>= fun _ => return .ok result
        else return .ok result)
      (Genuine ttl key) l s := by
  have hanswered (u : RedisState) : Genuine ttl key (.ok result) l u := by
    rw [Genuine, hreturned]
  cases stores with
  | false => exact fun u _ => hanswered u
  | true =>
    rw [if_pos rfl, set_eq, bind_assoc]
    intro u hu _ choice reply v hact
    obtain ⟨_, rfl⟩ := Prod.ext_iff.mp (Option.some.inj hact)
    refine ⟨?_, fun w _ => hanswered w⟩
    dsimp only
    split
    · exact (redisContract expiry ttl).refl u
    · exact ⟨Nat.le_refl _, List.Subset.refl _, List.subset_cons_self _ _,
        fun hkept => hkept.stored (hu.outcomes hresult) (hstore rfl) hdistinct⟩

private theorem wp_cachedCall (expiry : RedisExpiry) (method : CachedMethod) (args : List Arg)
    (hkept : Kept ttl s) (hreturned : l.returned = none) :
    (redisContract expiry ttl).wp (cachedCall method args ttl)
      (Genuine ttl (method.cacheKey args)) l s := by
  rw [cachedCall, getAsync_eq]
  simp only [bind_assoc, pure_bind]
  generalize hkey : method.cacheKey args = key
  intro u hu _ choice reply v hact
  obtain ⟨rfl, rfl⟩ := Prod.ext_iff.mp (Option.some.inj hact)
  refine ⟨(redisContract expiry ttl).refl u, ?_⟩
  have hkept := hu.kept hkept
  dsimp only
  generalize hreply : (if choice.luck = .executed then
    Except.ok (u.entries.get expiry.toExpiry u.now (prefixKey key))
    else .error RedisCacheError.command : Except RedisCacheError (Option String)) = reply
  cases hresponse : (readReply reply).filter isTruthyJson with
  | some cachedResponse =>
    have hread := (Option.filter_eq_some_iff.mp hresponse).1
    have hexecuted : reply = .ok (u.entries.get expiry.toExpiry u.now (prefixKey key)) := by
      split at hreply
      · exact hreply.symm
      · subst hreply
        cases hread
    rw [hexecuted] at hread
    obtain ⟨earlier, time, houtcome, hstore, hwrite, htime, halive, rfl⟩ := hkept.read hread
    rw [Prog.bind, hresponse]
    intro w hw
    refine Genuine.later ?_ hw
    unfold Genuine
    rw [show ((redisProtocol expiry).note l (CallOp.get (prefixKey key)) reply u u).returned = none
      from hreturned]
    exact ⟨earlier, time, houtcome, hstore, hwrite, htime, halive, rfl⟩
  | none =>
    rw [Prog.bind, hresponse]
    intro w hw _ choice reply v hact
    obtain ⟨rfl, rfl⟩ := Prod.ext_iff.mp (Option.some.inj hact)
    refine ⟨⟨Nat.le_refl _, List.subset_cons_self _ _, List.Subset.refl _,
      fun hkept => hkept.returned _⟩, ?_⟩
    cases houtcome : choice.outcome with
    | error e =>
      intro x _
      rfl
    | ok result =>
      exact wp_store (fun hstores => ⟨method, args, hkey.symm, hstores⟩) List.mem_cons_self
        result.2 rfl

end Calls

section Runs

variable {ι : Type} [DecidableEq ι] {expiry : RedisExpiry} {ttl : ℤ} {methods : ι → CachedMethod}
  {args : ι → List Arg}
  {pool : Pool ι CallOp CallOp.Reply (Except RelayError Returned) RedisState CallRecord}
  {es : List (PoolEvent ι CallChoice RedisEvent)} {i : ι} {result : Except RelayError Returned}

/-- The reply to the command that stores the result of the first call is lost, and the second call
finds the result 400 ms later. -/
def servedFromCache : List (PoolEvent Bool CallChoice RedisEvent) :=
  let answer : Except RelayError { result : Returned // result.toJSON.Distinct } :=
    .ok ⟨.value (.string "0x1"), trivial⟩
  [.run true ⟨.executed, answer⟩, .run true ⟨.executed, answer⟩, .run true ⟨.replyLost, answer⟩,
    .env (.pass 400), .run false ⟨.executed, answer⟩]

/-- An entry is gone at its deadline. -/
def strictRedis : RedisExpiry where
  __ := Expiry.strict
  before := by
    intro now deadline h
    exact decide_eq_true h
  after := by
    intro now deadline h
    exact decide_eq_false (by omega)

end Runs

end JsonRpcRelay.Cache
