import JsonRpcRelay.Clients.CacheClients
import JsonRpcRelay.Framework.Schedule

/-!
# Counters and lists in the two cache clients

Redis has the texts of the entries of the LRU cache as long as no entry runs out, and no time
passes, where the LRU cache writes a time to live back, and the counters are safe integers.  The
answers are then the same but for lists, where `slice` counts a second time from the end, and values
that are not read back as they were.
-/

namespace JsonRpcRelay.Clients

open Framework

variable {V : Type} {defaultTtl : ℤ} {expiry : RedisExpiry} {replies : IntegerReplies}
  {json : JSONText V} {now : ℕ}

section Data

/-- An operation that changes a value does not prolong its entry. -/
def LifeKept (now : ℕ) (before after : Cache V) (key : CacheKey) : Prop :=
  ∀ e deadline, before.liveEntry .inclusive now key = some e → e.deadline = some deadline →
    ∃ e' deadline', after.lookup key = some e' ∧ e'.deadline = some deadline' ∧
      deadline' ≤ deadline

def KeepsLife (now : ℕ) (before after : Cache V) : CacheEvent V → Prop
  | .incrBy key _ _ => LifeKept now before after (.counter key)
  | .rPush key _ _ => LifeKept now before after (.list key)
  | _ => True

/-- Both clients return the same, and no entry of the LRU cache is prolonged. -/
def Alike (defaultTtl : ℤ) (expiry : RedisExpiry) (replies : IntegerReplies) (json : JSONText V)
    (st : BackEnds V) (event : CacheEvent V) : Prop :=
  (LocalLRUCache.perform defaultTtl st.now st.lru event).1 =
      (RedisCache.perform defaultTtl st.now expiry replies json st.redis event).1 ∧
    KeepsLife st.now st.lru (LocalLRUCache.perform defaultTtl st.now st.lru event).2 event

/-- The time to live of the entry is read before it is over, and written back at once. -/
def InTime (st : BackEnds V) (key : CacheKey) (pauses : Pauses) : Prop :=
  ∀ e deadline, st.lru.liveEntry .inclusive st.now key = some e → e.deadline = some deadline →
    st.now + pauses.beforeTtl < deadline ∧ pauses.beforeSet = 0

/-- Where the range of a list ends for the LRU cache. -/
def rangeEnd (length : ℕ) (stop : ℤ) : ℕ :=
  Js.sliceIndex length ((if stop < 0 then length + stop else stop) + 1)

/-- The value is read from its text as it was. -/
def IsRestored (json : JSONText V) (v : V) : Prop :=
  ∃ text, json.stringify v = some text ∧ json.parse text = v

/-- A value is not changed while its time runs out, and a value that is pushed has a text.  A range
that is not empty for the LRU cache does not end before the list, is read while Redis has the list,
and has nothing but values that are restored. -/
def Timely (expiry : RedisExpiry) (json : JSONText V) (st : BackEnds V) : CacheEvent V → Prop
  | .get key => ∀ e, st.lru.liveEntry .inclusive st.now (.counter key) = some e →
      e.aliveAt expiry.toExpiry st.now = true
  | .incrBy key _ pauses => InTime st (.counter key) pauses
  | .rPush key value pauses => InTime st (.list key) pauses ∧ (json.stringify value).isSome
  | .lRange key start stop => ∀ e, st.lru.liveEntry .inclusive st.now (.list key) = some e →
      Js.sliceIndex e.value.length start < rangeEnd e.value.length stop →
        0 ≤ stop + e.value.length + 1 ∧ e.aliveAt expiry.toExpiry st.now = true ∧
          ∀ v ∈ LocalLRUCache.rangeOf e.value start stop, IsRestored json v
  | _ => True

/-- Neither the amount, nor the counter, nor their sum is too large. -/
def Countable (st : BackEnds V) : CacheEvent V → Prop
  | .incrBy key amount _ => IsSafe amount.value ∧
      ∀ e, st.lru.liveEntry .inclusive st.now (.counter key) = some e →
        ∃ n, e.value = .integer n ∧ IsSafe n ∧ IsSafe (n + amount.value)
  | _ => True

/-- What Redis has in place of a value. -/
def encode (json : JSONText V) : (key : CacheKey) → key.Value V → key.Text
  | .counter _, x => x.text
  | .list _, values => values.map fun v => (json.stringify v).getD ""

def encodeEntry (json : JSONText V) {key : CacheKey} (e : Entry (key.Value V)) : Entry key.Text :=
  ⟨encode json key e.value, e.deadline⟩

def SameEntries (json : JSONText V) (now : ℕ) (cache : Cache V) (texts : RedisStore) : Prop :=
  ∀ key, (cache.liveEntry .inclusive now key).map (encodeEntry json) =
    texts.liveEntry .inclusive now key

/-- The counter is read from its text as it is, and every element of the list has a text. -/
def IsWritten (json : JSONText V) : (key : CacheKey) → key.Value V → Prop
  | .counter _, x => Double.ofText x.text = x
  | .list _, values => ∀ v ∈ values, (json.stringify v).isSome

def AllWritten (json : JSONText V) (now : ℕ) (cache : Cache V) : Prop :=
  ∀ key e, cache.liveEntry .inclusive now key = some e → IsWritten json key e.value

/-- Both clients have the same entries. -/
structure BackEnds.Agree (json : JSONText V) (st : BackEnds V) : Prop where
  same : SameEntries json st.now st.lru st.redis
  written : AllWritten json st.now st.lru

end Data

section Ranges

variable {values : List V} {start stop : ℤ}

private theorem redis_rangeOf_map {β : Type} (f : V → β) :
    RedisCache.rangeOf (values.map f) start stop =
      (RedisCache.rangeOf values start stop).map f := by
  simp only [RedisCache.rangeOf, List.length_map, List.map_drop, List.map_take]

private theorem rangeOf_eq (h : 0 ≤ stop + values.length + 1) :
    LocalLRUCache.rangeOf values start stop = RedisCache.rangeOf values start stop := by
  have hlast : values.take (rangeEnd values.length stop) =
      values.take ((if stop < 0 then values.length + stop else stop) + 1).toNat := by
    unfold rangeEnd Js.sliceIndex
    split <;> rw [if_neg (by omega), List.take_eq_take_iff] <;> omega
  have hfirst (vs : List V) (hle : vs.length ≤ values.length) :
      vs.drop (Js.sliceIndex values.length start) =
        vs.drop (if start < 0 then max (values.length + start) 0 else start).toNat := by
    unfold Js.sliceIndex
    split
    · congr 1
      omega
    · rw [List.drop_eq_drop_iff]
      omega
  rw [LocalLRUCache.rangeOf, Js.slice]
  change (values.take (rangeEnd values.length stop)).drop _ = _
  rw [hlast, hfirst _ (List.length_take_le' _ _)]
  rfl

private theorem redis_rangeOf_eq_nil (h : stop + values.length + 1 < 0) :
    RedisCache.rangeOf values start stop = [] := by
  have hlast : ((if stop < 0 then values.length + stop else stop) + 1).toNat = 0 := by
    split <;> omega
  rw [RedisCache.rangeOf, hlast, List.take_zero, List.drop_nil]

private theorem lru_rangeOf_eq_nil_iff : LocalLRUCache.rangeOf values start stop = [] ↔
    ¬Js.sliceIndex values.length start < rangeEnd values.length stop := by
  rw [LocalLRUCache.rangeOf, Js.slice_eq_nil_iff, Nat.not_lt]
  rfl

end Ranges

section Entries

variable {cache : Cache V} {texts : RedisStore} {key : CacheKey} {pauses : Pauses}
  {change : Option (key.Value V) → key.Value V}

private theorem liveEntry_redis {later : ℕ} (hle : now ≤ later) :
    texts.liveEntry expiry.toExpiry later key =
      (texts.liveEntry .inclusive now key).filter fun e => e.aliveAt expiry.toExpiry later := by
  unfold Store.liveEntry
  rw [Option.filter_filter]
  congr 1
  funext e
  cases hd : e.deadline with
  | none => simp [Entry.aliveAt, hd]
  | some d =>
    simp only [Entry.aliveAt, hd, Option.all_some, Expiry.inclusive]
    by_cases hover : d < later
    · simp [expiry.after hover]
    · simp [Nat.le_trans hle (Nat.not_lt.mp hover)]

/-- A text lives as long as its value. -/
theorem map_encode_filter (x : Expiry) (later : ℕ) (o : Option (Entry (key.Value V))) :
    (o.filter fun e => e.aliveAt x later).map (encodeEntry json) =
      (o.map (encodeEntry json)).filter fun e => e.aliveAt x later := by
  cases o with
  | none => rfl
  | some e =>
    rw [Option.map_some, Option.filter_some, Option.filter_some]
    change Option.map _ (if e.aliveAt x later = true then _ else _) =
      if e.aliveAt x later = true then _ else _
    split <;> rfl

namespace SameEntries

variable {later : ℕ}

theorem mono (h : SameEntries json now cache texts) (hle : now ≤ later) :
    SameEntries json later cache texts := by
  intro k
  rw [Store.liveEntry_later hle, Store.liveEntry_later hle, ← h k, map_encode_filter]

theorem insert (h : SameEntries json now cache texts) (e : Entry (key.Value V)) :
    SameEntries json now (cache.insert key e) (texts.insert key (encodeEntry json e)) := by
  intro k
  by_cases hk : k = key
  · subst hk
    rw [Store.liveEntry, Store.liveEntry, AList.lookup_insert, AList.lookup_insert,
      map_encode_filter, Option.map_some]
  · rw [Store.liveEntry_insert_of_ne hk, Store.liveEntry_insert_of_ne hk, h k]

theorem erase (h : SameEntries json now cache texts) (key : CacheKey) :
    SameEntries json now (cache.erase key) (texts.erase key) := by
  intro k
  by_cases hk : k = key
  · subst hk
    simp
  · rw [Store.liveEntry_erase_of_ne hk, Store.liveEntry_erase_of_ne hk, h k]

end SameEntries

namespace AllWritten

variable {later : ℕ}

theorem mono (h : AllWritten json now cache) (hle : now ≤ later) :
    AllWritten json later cache := by
  intro k e he
  rw [Store.liveEntry_later hle] at he
  exact h k e (Option.filter_eq_some_iff.mp he).1

theorem insert (h : AllWritten json now cache) {e : Entry (key.Value V)}
    (he : IsWritten json key e.value) : AllWritten json now (cache.insert key e) := by
  intro k e' he'
  by_cases hk : k = key
  · subst hk
    rw [Store.liveEntry, AList.lookup_insert] at he'
    obtain rfl := Option.some.inj (Option.filter_eq_some_iff.mp he').1
    exact he
  · rw [Store.liveEntry_insert_of_ne hk] at he'
    exact h k e' he'

theorem erase (h : AllWritten json now cache) (key : CacheKey) :
    AllWritten json now (cache.erase key) := by
  intro k e he
  by_cases hk : k = key
  · subst hk
    simp at he
  · rw [Store.liveEntry_erase_of_ne hk] at he
    exact h k e he

end AllWritten

namespace LocalLRUCache

private theorem get_fst :
    (get now cache key).1 = (cache.liveEntry .inclusive now key).map Entry.value := by
  unfold get Store.liveEntry
  cases cache.lookup key with
  | none => rfl
  | some e =>
    rw [Option.filter_some]
    cases h : e.aliveAt .inclusive now with
    | true => simp [h]
    | false => simp [h]

private theorem lookup_get_self :
    (get now cache key).2.lookup key = cache.liveEntry .inclusive now key := by
  unfold get Store.liveEntry
  cases hlookup : cache.lookup key with
  | none => simpa using hlookup
  | some e =>
    rw [Option.filter_some]
    cases h : e.aliveAt .inclusive now with
    | true => simpa [h] using hlookup
    | false => simp [h]

/-- A read drops nothing that could still be read. -/
theorem liveEntry_get (k : CacheKey) : (get now cache key).2.liveEntry .inclusive now k =
    cache.liveEntry .inclusive now k := by
  by_cases hk : k = key
  · subst hk
    rw [Store.liveEntry, lookup_get_self, Store.liveEntry, Option.filter_filter]
    simp
  · unfold get
    cases cache.lookup key with
    | none => rfl
    | some e =>
      cases h : e.aliveAt .inclusive now with
      | true => simp [h]
      | false => simpa [h] using Store.liveEntry_erase_of_ne hk

/-- The deadline with which a changed value is written back. -/
def writtenDeadline (now : ℕ) (pauses : Pauses) (deadline : Option ℕ) : Option ℕ :=
  deadline.bind fun deadline =>
    if now + pauses.beforeTtl < deadline then some (deadline + pauses.beforeSet) else none

private theorem readAndSet_eq : readAndSet defaultTtl now cache key change pauses =
    (change ((cache.liveEntry .inclusive now key).map Entry.value),
      (get now cache key).2.insert key
        ⟨change ((cache.liveEntry .inclusive now key).map Entry.value),
          writtenDeadline now pauses ((cache.liveEntry .inclusive now key).bind
            Entry.deadline)⟩) := by
  have hget : (get now cache key).1 = _ := get_fst
  have hlookup : (get now cache key).2.lookup key = _ := lookup_get_self
  rw [readAndSet]
  generalize get now cache key = answer at hget hlookup ⊢
  obtain ⟨value, read⟩ := answer
  dsimp only at hget hlookup ⊢
  rw [hget, getRemainingTtl, hlookup]
  congr 1
  cases hlive : cache.liveEntry .inclusive now key with
  | none => rfl
  | some e =>
    cases hd : e.deadline with
    | none => simp [set, writtenDeadline, hd]
    | some d =>
      simp only [hd, Option.elim_some, Option.map_some, Option.bind_some, writtenDeadline, set,
        Option.getD_some, Store.set]
      congr 2
      by_cases hbefore : now + pauses.beforeTtl < d
      · rw [if_pos (by omega), if_pos hbefore, Pauses.duration]
        congr 1
        omega
      · rw [if_neg (by omega), if_neg hbefore]

private theorem perform_incrBy_snd {key : String} {amount : Integer} :
    (perform defaultTtl now cache (.incrBy key amount pauses)).2 =
      (readAndSet defaultTtl now cache (.counter key)
        (fun value => (value.getD (.integer 0)).add (.integer amount.value)) pauses).2 :=
  rfl

private theorem perform_rPush_snd {key : String} {value : V} :
    (perform defaultTtl now cache (.rPush key value pauses)).2 =
      (readAndSet defaultTtl now cache (.list key) (fun values => values.getD [] ++ [value])
        pauses).2 :=
  rfl

private theorem lifeKept_iff {st : BackEnds V} :
    LifeKept st.now st.lru (readAndSet defaultTtl st.now st.lru key change pauses).2 key ↔
      InTime st key pauses := by
  rw [readAndSet_eq]
  have hwritten : ∀ e deadline, st.lru.liveEntry .inclusive st.now key = some e →
      e.deadline = some deadline → writtenDeadline st.now pauses
        ((st.lru.liveEntry .inclusive st.now key).bind Entry.deadline) =
          if st.now + pauses.beforeTtl < deadline then some (deadline + pauses.beforeSet)
          else none := by
    intro e deadline he hd
    rw [he, Option.bind_some, hd]
    rfl
  constructor
  · intro hkept e deadline he hd
    obtain ⟨e', deadline', hafter, hd', hle⟩ := hkept e deadline he hd
    rw [AList.lookup_insert] at hafter
    rw [← Option.some.inj hafter] at hd'
    rw [hwritten e deadline he hd] at hd'
    obtain ⟨hbefore, heq⟩ := Option.ite_none_right_eq_some.mp hd'
    have := Option.some.inj heq
    exact ⟨hbefore, by omega⟩
  · intro hin e deadline he hd
    obtain ⟨hbefore, hset⟩ := hin e deadline he hd
    refine ⟨_, deadline, AList.lookup_insert _, ?_, Nat.le_refl deadline⟩
    rw [hwritten e deadline he hd, if_pos hbefore, hset, Nat.add_zero]

end LocalLRUCache

private theorem command_liveEntry {st : BackEnds V} (hagree : st.Agree json)
    (hin : InTime st key pauses) :
    st.redis.liveEntry expiry.toExpiry (st.now + pauses.command) key =
      (st.lru.liveEntry .inclusive st.now key).map (encodeEntry json) := by
  rw [liveEntry_redis (Nat.le_add_right st.now pauses.command), ← hagree.same key,
    ← map_encode_filter]
  cases he : st.lru.liveEntry .inclusive st.now key with
  | none => rfl
  | some e =>
    rw [Option.filter_some]
    have halive : e.aliveAt expiry.toExpiry (st.now + pauses.command) = true := by
      cases hd : e.deadline with
      | none => simp [Entry.aliveAt, hd]
      | some d =>
        obtain ⟨hbefore, hset⟩ := hin e d he hd
        have hcommand := pauses.command_le
        simp only [Entry.aliveAt, hd, Option.all_some]
        exact expiry.before (by omega)
    simp [halive]

private theorem command_read {st : BackEnds V} (hagree : st.Agree json)
    (hin : InTime st key pauses) :
    RedisCache.read (st.now + pauses.command) expiry st.redis key =
      (st.lru.liveEntry .inclusive st.now key).map fun e => encode json key e.value := by
  rw [RedisCache.read, Store.get_eq_map_liveEntry, command_liveEntry hagree hin, Option.map_map]
  rfl

private theorem replace_eq {st : BackEnds V} (hagree : st.Agree json) (hin : InTime st key pauses)
    (value : key.Value V) :
    st.redis.replace expiry.toExpiry (st.now + pauses.command) key (encode json key value) =
      st.redis.insert key (encodeEntry json ⟨value, LocalLRUCache.writtenDeadline st.now pauses
        ((st.lru.liveEntry .inclusive st.now key).bind Entry.deadline)⟩) := by
  rw [Store.replace, command_liveEntry hagree hin, encodeEntry]
  congr 2
  cases he : st.lru.liveEntry .inclusive st.now key with
  | none => rfl
  | some e =>
    cases hd : e.deadline with
    | none => simp [LocalLRUCache.writtenDeadline, encodeEntry, hd]
    | some d =>
      obtain ⟨hbefore, hset⟩ := hin e d he hd
      simp [LocalLRUCache.writtenDeadline, encodeEntry, hd, hbefore, hset]

end Entries

section Steps

variable {st : BackEnds V}

private theorem redis_read_eq (hagree : st.Agree json) (key : CacheKey) :
    RedisCache.read st.now expiry st.redis key =
      ((st.lru.liveEntry .inclusive st.now key).filter fun e =>
        e.aliveAt expiry.toExpiry st.now).map fun e => encode json key e.value := by
  rw [RedisCache.read, Store.get_eq_map_liveEntry, liveEntry_redis (Nat.le_refl st.now),
    ← hagree.same, ← map_encode_filter, Option.map_map]
  rfl

private theorem readLongLong_integerText {n : ℤ} (h : RedisCache.IsLongLong n) :
    RedisCache.readLongLong (integerText n) = some n := by
  rw [RedisCache.readLongLong, readSigned_integerText, Option.filter_some]
  simp [h]

private theorem isLongLong_of_safe {n : ℤ} (h : IsSafe n) : RedisCache.IsLongLong n := by
  unfold IsSafe at h
  constructor <;> omega

private theorem exists_counter {key : String} {amount : Integer} {pauses : Pauses}
    (hcountable : Countable st (.incrBy key amount pauses)) :
    ∃ n, ((st.lru.liveEntry .inclusive st.now (.counter key)).map Entry.value).getD (.integer 0) =
        .integer n ∧
      ((st.lru.liveEntry .inclusive st.now (.counter key)).map fun e => e.value.text).getD
        (integerText 0) = integerText n ∧
      IsSafe n ∧ IsSafe amount.value ∧ IsSafe (n + amount.value) := by
  obtain ⟨hamount, hvalue⟩ := hcountable
  cases he : st.lru.liveEntry .inclusive st.now (.counter key) with
  | none =>
    have hzero : IsSafe 0 := by
      unfold IsSafe
      decide
    exact ⟨0, rfl, rfl, hzero, hamount, by rwa [Int.zero_add]⟩
  | some e =>
    obtain ⟨n, hn, hsafe, hsum⟩ := hvalue e he
    refine ⟨n, hn, ?_, hsafe, hamount, hsum⟩
    rw [Option.map_some, Option.getD_some, hn, text_of_lt hsafe]

private theorem incrBy_fst {key : String} {amount : Integer} {pauses : Pauses} {n : ℤ}
    (hvalue : ((st.lru.liveEntry .inclusive st.now (.counter key)).map Entry.value).getD
      (.integer 0) = .integer n)
    (hsum : IsSafe (n + amount.value)) :
    (LocalLRUCache.incrBy defaultTtl st.now st.lru key amount pauses).1 =
      .integer (n + amount.value) := by
  rw [LocalLRUCache.incrBy, LocalLRUCache.readAndSet_eq]
  dsimp only
  rw [hvalue, Double.add_integer, Double.ofInt_eq_integer_iff.mpr (Double.holds_of_lt hsum)]

private theorem redis_incrBy_eq (defaultTtl : ℤ) (hagree : st.Agree json) {key : String}
    {amount : Integer} {pauses : Pauses}
    (hin : InTime st (.counter key) pauses)
    (hcountable : Countable st (.incrBy key amount pauses)) :
    RedisCache.incrBy (st.now + pauses.command) expiry replies st.redis key amount =
      (.ok (LocalLRUCache.incrBy defaultTtl st.now st.lru key amount pauses).1,
        st.redis.replace expiry.toExpiry (st.now + pauses.command) (.counter key)
          (encode json (.counter key)
            (LocalLRUCache.incrBy defaultTtl st.now st.lru key amount pauses).1)) := by
  obtain ⟨n, hvalue, htext, hn, hamount, hsum⟩ := exists_counter hcountable
  have hread : (RedisCache.read (st.now + pauses.command) expiry st.redis (.counter key)).getD
      (integerText 0) = integerText n := by
    rw [command_read hagree hin]
    exact htext
  rw [incrBy_fst hvalue hsum, RedisCache.incrBy, RedisCache.incrByCommand, hread, text_of_lt hamount,
    readLongLong_integerText (isLongLong_of_safe hamount),
    readLongLong_integerText (isLongLong_of_safe hn)]
  dsimp only
  rw [if_pos (isLongLong_of_safe hsum)]
  simp only [Except.map, replies.toNumber_of_safe _ hsum, encode, text_of_lt hsum]

private theorem redis_rPush_eq (defaultTtl : ℤ) (hagree : st.Agree json) {key : String} {value : V}
    {pauses : Pauses}
    (hin : InTime st (.list key) pauses) (htext : (json.stringify value).isSome) :
    RedisCache.rPush (st.now + pauses.command) expiry json st.redis key value =
      (.ok (LocalLRUCache.rPush defaultTtl st.now st.lru key value pauses).1,
        st.redis.replace expiry.toExpiry (st.now + pauses.command) (.list key)
          (encode json (.list key) (LocalLRUCache.readAndSet defaultTtl st.now st.lru (.list key)
            (fun values => values.getD [] ++ [value]) pauses).1)) := by
  obtain ⟨text, htext⟩ := Option.isSome_iff_exists.mp htext
  rw [RedisCache.rPush, htext, LocalLRUCache.rPush, LocalLRUCache.readAndSet_eq,
    command_read hagree hin]
  cases st.lru.liveEntry .inclusive st.now (.list key) <;> simp [encode, htext]

/-- A list is read from its texts as it was exactly if its elements are restored. -/
theorem map_parse_eq_iff {values : List V} (htexts : ∀ v ∈ values, (json.stringify v).isSome) :
    values = values.map (fun v => json.parse ((json.stringify v).getD "")) ↔
      ∀ v ∈ values, IsRestored json v := by
  nth_rewrite 1 [← List.map_id values]
  rw [List.map_inj_left]
  refine forall₂_congr fun v hv => ?_
  obtain ⟨text, htext⟩ := Option.isSome_iff_exists.mp (htexts v hv)
  simp [IsRestored, htext, eq_comm]

private theorem lru_rangeOf_sublist {values : List V} {start stop : ℤ} :
    (LocalLRUCache.rangeOf values start stop).Sublist values :=
  (List.drop_sublist _ _).trans (List.take_sublist _ _)

/-- Both clients return the same range exactly if Redis has the list and the elements are
restored. -/
theorem lRange_eq_iff (hagree : st.Agree json) (key : String) (start stop : ℤ) :
    (LocalLRUCache.lRange st.now st.lru key start stop).1 =
        RedisCache.lRange st.now expiry json st.redis key start stop ↔
      Timely expiry json st (.lRange key start stop) := by
  have hget : (LocalLRUCache.get st.now st.lru (.list key)).1 = _ := LocalLRUCache.get_fst
  have hlru : (LocalLRUCache.lRange st.now st.lru key start stop).1 = LocalLRUCache.rangeOf
      (((st.lru.liveEntry .inclusive st.now (.list key)).map Entry.value).getD []) start stop :=
    congrArg (fun values : Option (List V) => LocalLRUCache.rangeOf (values.getD []) start stop)
      hget
  rw [hlru, RedisCache.lRange, redis_read_eq hagree, Timely]
  cases he : st.lru.liveEntry .inclusive st.now (.list key) with
  | none => simp [LocalLRUCache.rangeOf, RedisCache.rangeOf, Js.slice]
  | some e =>
    have hwritten : ∀ v ∈ e.value, (json.stringify v).isSome := hagree.written _ e he
    rw [Option.filter_some]
    cases halive : e.aliveAt expiry.toExpiry st.now with
    | false =>
      have hnil : RedisCache.rangeOf ([] : List String) start stop = [] := by
        simp [RedisCache.rangeOf]
      simp [hnil, lru_rangeOf_eq_nil_iff, halive]
    | true =>
      have htexts : RedisCache.rangeOf (encode json (.list key) e.value) start stop = _ :=
        redis_rangeOf_map _
      simp only [if_pos, Option.map_some, Option.getD_some, htexts, List.map_map,
        Option.some.injEq, forall_eq', halive, true_and]
      by_cases hstop : 0 ≤ stop + e.value.length + 1
      · rw [← rangeOf_eq hstop]
        refine (map_parse_eq_iff fun v hv => hwritten v (lru_rangeOf_sublist.mem hv)).trans ?_
        constructor
        · exact fun h _ => ⟨hstop, h⟩
        · intro h v hv
          by_cases hlt : Js.sliceIndex e.value.length start < rangeEnd e.value.length stop
          · exact (h hlt).2 v hv
          · rw [lru_rangeOf_eq_nil_iff.mpr hlt] at hv
            exact absurd hv List.not_mem_nil
      · rw [redis_rangeOf_eq_nil (by omega), List.map_nil, lru_rangeOf_eq_nil_iff]
        tauto

private theorem alike_iff (hagree : st.Agree json) {event : CacheEvent V}
    (hcountable : Countable st event) :
    Alike defaultTtl expiry replies json st event ↔ Timely expiry json st event := by
  cases event with
  | pass ms => exact iff_of_true ⟨rfl, trivial⟩ trivial
  | set key value ttl => exact iff_of_true ⟨rfl, trivial⟩ trivial
  | delete key => exact iff_of_true ⟨rfl, trivial⟩ trivial
  | get key =>
    rw [Alike, LocalLRUCache.perform, RedisCache.perform, LocalLRUCache.get_fst, RedisCache.get,
      redis_read_eq hagree]
    simp only [KeepsLife, and_true, Timely]
    cases he : st.lru.liveEntry .inclusive st.now (.counter key) with
    | none => simp
    | some e =>
      have hwritten : Double.ofText e.value.text = e.value := hagree.written _ e he
      rw [Option.filter_some]
      cases halive : e.aliveAt expiry.toExpiry st.now with
      | true => simp [halive, encode, hwritten]
      | false => simp [halive]
  | incrBy key amount pauses =>
    have hkept : KeepsLife st.now st.lru
        (LocalLRUCache.perform defaultTtl st.now st.lru (.incrBy key amount pauses)).2
          (.incrBy key amount pauses) ↔ InTime st (.counter key) pauses := by
      rw [LocalLRUCache.perform_incrBy_snd]
      exact LocalLRUCache.lifeKept_iff
    refine ⟨fun h => hkept.mp h.2, fun hin => ⟨?_, hkept.mpr hin⟩⟩
    exact (congrArg Prod.fst (redis_incrBy_eq defaultTtl hagree hin hcountable)).symm
  | rPush key value pauses =>
    have hkept : KeepsLife st.now st.lru
        (LocalLRUCache.perform defaultTtl st.now st.lru (.rPush key value pauses)).2
          (.rPush key value pauses) ↔ InTime st (.list key) pauses := by
      rw [LocalLRUCache.perform_rPush_snd]
      exact LocalLRUCache.lifeKept_iff
    refine ⟨fun h => ⟨hkept.mp h.2, ?_⟩, fun h => ⟨?_, hkept.mpr h.1⟩⟩
    · have hsame := h.1
      rw [RedisCache.perform, RedisCache.rPush] at hsame
      cases htext : json.stringify value with
      | none =>
        rw [htext] at hsame
        cases hsame
      | some text => rfl
    · exact (congrArg Prod.fst (redis_rPush_eq defaultTtl hagree h.1 h.2)).symm
  | lRange key start stop =>
    rw [Alike, ← lRange_eq_iff hagree]
    exact and_iff_left trivial

private theorem agree_get (hagree : st.Agree json) (key : CacheKey) :
    SameEntries json st.now (LocalLRUCache.get st.now st.lru key).2 st.redis ∧
      AllWritten json st.now (LocalLRUCache.get st.now st.lru key).2 := by
  constructor
  · intro k
    rw [LocalLRUCache.liveEntry_get, hagree.same k]
  · intro k e he
    rw [LocalLRUCache.liveEntry_get] at he
    exact hagree.written k e he

private theorem agree_changed (expiry : RedisExpiry) (hagree : st.Agree json) {key : CacheKey}
    {pauses : Pauses} (change : Option (key.Value V) → key.Value V) (hin : InTime st key pauses)
    (hwritten : IsWritten json key
      (LocalLRUCache.readAndSet defaultTtl st.now st.lru key change pauses).1) :
    SameEntries json (st.now + pauses.duration)
        (LocalLRUCache.readAndSet defaultTtl st.now st.lru key change pauses).2
        (st.redis.replace expiry.toExpiry (st.now + pauses.command) key (encode json key
          (LocalLRUCache.readAndSet defaultTtl st.now st.lru key change pauses).1)) ∧
      AllWritten json (st.now + pauses.duration)
        (LocalLRUCache.readAndSet defaultTtl st.now st.lru key change pauses).2 := by
  obtain ⟨hsame, hall⟩ := agree_get hagree key
  rw [LocalLRUCache.readAndSet_eq] at hwritten ⊢
  dsimp only at hwritten ⊢
  rw [replace_eq hagree hin]
  exact ⟨(hsame.insert _).mono (Nat.le_add_right _ _),
    (hall.insert hwritten).mono (Nat.le_add_right _ _)⟩

private theorem agree_step (hagree : st.Agree json) {event : CacheEvent V} {st' : BackEnds V}
    (hcountable : Countable st event) (htimely : Timely expiry json st event)
    (hstep : st.step defaultTtl expiry replies json event = some st') : st'.Agree json := by
  obtain rfl := Option.some.inj hstep
  cases event with
  | pass ms =>
    exact ⟨hagree.same.mono (Nat.le_add_right _ _), hagree.written.mono (Nat.le_add_right _ _)⟩
  | set key value ttl =>
    have hwritten : IsWritten json (.counter key) (Double.integer value.value) :=
      ofText_text value.holds
    cases ttl with
    | none => exact ⟨hagree.same.insert _, hagree.written.insert hwritten⟩
    | some ttl => exact ⟨hagree.same.insert _, hagree.written.insert hwritten⟩
  | get key =>
    obtain ⟨hsame, hall⟩ := agree_get hagree (.counter key)
    exact ⟨hsame, hall⟩
  | delete key => exact ⟨hagree.same.erase key, hagree.written.erase key⟩
  | incrBy key amount pauses =>
    obtain ⟨n, hvalue, -, -, -, hsum⟩ := exists_counter hcountable
    have hwritten : IsWritten json (.counter key)
        (LocalLRUCache.incrBy defaultTtl st.now st.lru key amount pauses).1 := by
      rw [incrBy_fst hvalue hsum]
      exact ofText_text (Double.holds_of_lt hsum)
    have hchanged := agree_changed expiry hagree _ htimely hwritten
    have hredis : (RedisCache.perform defaultTtl st.now expiry replies json st.redis
        (.incrBy key amount pauses)).2 = _ :=
      congrArg Prod.snd (redis_incrBy_eq defaultTtl hagree htimely hcountable)
    exact ⟨hredis ▸ hchanged.1, hchanged.2⟩
  | rPush key value pauses =>
    have hwritten : IsWritten json (.list key) (LocalLRUCache.readAndSet defaultTtl st.now st.lru
        (.list key) (fun values => values.getD [] ++ [value]) pauses).1 := by
      rw [LocalLRUCache.readAndSet_eq]
      intro v hv
      obtain hv | hv := List.mem_append.mp hv
      · cases he : st.lru.liveEntry .inclusive st.now (.list key) with
        | none => simp [he] at hv
        | some e => exact hagree.written _ e he v (by simpa [he] using hv)
      · rw [List.mem_singleton.mp hv]
        exact htimely.2
    have hchanged := agree_changed expiry hagree _ htimely.1 hwritten
    have hredis : (RedisCache.perform defaultTtl st.now expiry replies json st.redis
        (.rPush key value pauses)).2 = _ :=
      congrArg Prod.snd (redis_rPush_eq defaultTtl hagree htimely.1 htimely.2)
    exact ⟨hredis ▸ hchanged.1, hchanged.2⟩
  | lRange key start stop =>
    obtain ⟨hsame, hall⟩ := agree_get hagree (.list key)
    exact ⟨hsame, hall⟩

end Steps

section Runs

def keptAtDeadline : RedisExpiry where
  toExpiry := .inclusive
  before h := decide_eq_true (Nat.le_of_lt h)
  after h := decide_eq_false (Nat.not_le.mpr h)

/-- The replies are rounded to doubles. -/
def rounded : IntegerReplies where
  toNumber := Double.ofInt
  toNumber_of_safe _ h := Double.ofInt_eq_integer_iff.mpr (Double.holds_of_lt h)

/-- A date is written as its ISO text, and read back as a text. -/
inductive Item where
  | number (n : ℕ)
  | text (chars : List Char)
  | date (iso : List Char)
  deriving DecidableEq

def itemTexts : JSONText Item where
  stringify
    | .number n => some (String.ofList (Nat.toDigits 10 n))
    | .text chars | .date chars => some (String.ofList ('"' :: chars ++ ['"']))
  parse text :=
    match text.toList with
    | '"' :: chars => .text chars.dropLast
    | chars => (readDigits chars).elim (.text chars) .number

def atOnce : Pauses := ⟨0, 0, 0, Nat.le_refl 0⟩

abbrev five : Integer := ⟨5, Double.holds_of_lt (by decide)⟩

abbrev one : Integer := ⟨1, Double.holds_of_lt (by decide)⟩

abbrev greatest : Integer := ⟨9007199254740991, Double.holds_of_lt (by decide)⟩

/-- A counter that is incremented in time, and a list of a number and a text. -/
def counterAndList : List (CacheEvent Item) :=
  [.set "c" five (some 10), .incrBy "c" one ⟨3, 0, 2, by decide⟩, .rPush "l" (.number 1) atOnce,
    .rPush "l" (.text "a".toList) atOnce, .get "c", .lRange "l" (-2) 5]

/-- The range from the start to the fifth element from the end, of a list of three. -/
def rangeBeforeTheList : List (CacheEvent Item) :=
  [.rPush "l" (.number 1) atOnce, .rPush "l" (.number 2) atOnce, .rPush "l" (.number 3) atOnce,
    .lRange "l" 0 (-5)]

def storedDate : List (CacheEvent Item) :=
  [.rPush "d" (.date "1970-01-01T00:00:00.000Z".toList) atOnce, .lRange "d" 0 (-1)]

/-- A counter for ten milliseconds, read one millisecond after them. -/
def slowIncrements (beforeTtl beforeSet : ℕ) : List (CacheEvent Item) :=
  [.set "c" five (some 10), .incrBy "c" one ⟨beforeTtl, beforeSet, 0, Nat.zero_le _⟩,
    .pass (11 - beforeTtl - beforeSet), .get "c"]

/-- The second increment is lost in the LRU cache. -/
def largeCounter : List (CacheEvent Item) :=
  [.set "n" greatest none, .incrBy "n" one atOnce, .incrBy "n" one atOnce, .incrBy "n" one atOnce]

end Runs

end JsonRpcRelay.Clients
