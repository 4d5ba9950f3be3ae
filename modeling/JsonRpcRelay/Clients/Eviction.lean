import JsonRpcRelay.Clients.CacheClients
import JsonRpcRelay.Framework.Eviction
import JsonRpcRelay.Framework.Interleaving

/-!
# Evictions of `LocalLRUCache`

The two caches of the client, where each insertion may evict any entries as soon as there are more
of them than the cache has room for.  Calls may run one beside another: each is a program whose
requests are executed at once.
-/

namespace JsonRpcRelay.Clients.Eviction

open Framework

section Data

variable (V : Type)

/-- What the operators of the language do with the values that are stored. -/
structure ValueOps where
  add : Option V → ℤ → V
  array? : V → Option (List V)
  ofArray : List V → V

/-- The options of the cache, and the set of keys that are delegated to the reserved cache. -/
structure CacheOptions where
  max : ℕ
  ttl : ℤ
  reservedKeys : List String
  nodup : reservedKeys.Nodup

inductive CacheInstance where
  | cache
  | reservedCache
  deriving DecidableEq

structure LocalLRUCache where
  now : ℕ
  store : CacheInstance → Store String fun _ => V

/-- What a call asks for at once. -/
inductive Access where
  | get (key : String)
  | getRemainingTtl (key : String)
  | set (key : String) (value : V) (ttl : Option Duration)
  | delete (key : String)
  | purgeStale
  | clear
  | keys (pattern : String → Bool)

variable {V}

@[reducible] def Access.Reply : Access V → Type
  | .get _ => Option V
  | .getRemainingTtl _ => Duration
  | .set .. | .delete _ | .purgeStale | .clear => Unit
  | .keys _ => List String

def LocalLRUCache.empty (now : ℕ) : LocalLRUCache V := ⟨now, fun _ => ∅⟩

end Data

section Accesses

variable {V : Type} (o : CacheOptions) (s : LocalLRUCache V)

def CACHE_KEY_PREFIX : String := "cache:"

def prefixKey (key : String) : String := CACHE_KEY_PREFIX ++ key

/-- There is a reserved cache if any key is reserved. -/
def getCacheInstance (key : String) : CacheInstance :=
  if o.reservedKeys ≠ [] ∧ key ∈ o.reservedKeys then .reservedCache else .cache

def CacheOptions.maxOf : CacheInstance → ℕ
  | .cache => o.max
  | .reservedCache => o.reservedKeys.length

def entry (key : String) : Option (Entry V) :=
  (s.store (getCacheInstance o key)).lookup (prefixKey key)

def update (i : CacheInstance) (store : Store String fun _ => V) : LocalLRUCache V :=
  { s with store := Function.update s.store i store }

def delete (key : String) : LocalLRUCache V :=
  let i := getCacheInstance o key
  update s i ((s.store i).erase (prefixKey key))

/-- An entry is stale when its age exceeds its time to live.  The read of a stale entry deletes
it. -/
def get (key : String) : Option V × LocalLRUCache V :=
  match entry o s key with
  | none => (none, s)
  | some e => if e.aliveAt .inclusive s.now then (some e.value, s) else (none, delete o s key)

def getRemainingTtl (key : String) : Duration :=
  match entry o s key with
  | none => .ms 0
  | some e => e.deadline.elim .infinity fun deadline => .ms (deadline - s.now)

def resolvedDeadline (ttl : Option Duration) : Option ℕ :=
  match ttl.getD (.ms o.ttl) with
  | .infinity => none
  | .ms resolvedTtl => if 0 < resolvedTtl then some (s.now + resolvedTtl.toNat) else none

def set (key : String) (value : V) (ttl : Option Duration) (evicted : List String) :
    Option (LocalLRUCache V) :=
  let i := getCacheInstance o key
  ((s.store i).insertEvicting (o.maxOf i) (prefixKey key) ⟨value, resolvedDeadline o s ttl⟩
    evicted).map (update s i)

/-- The reserved cache is not purged. -/
def purgeStale : LocalLRUCache V :=
  let cache := s.store .cache
  update s .cache (cache.unlink (cache.keys.filter fun key =>
    (cache.get .inclusive s.now key).isNone))

def clear : LocalLRUCache V := { s with store := fun _ => ∅ }

def keys (pattern : String → Bool) : List String :=
  (((s.store .cache).liveKeys .inclusive s.now ++ (s.store .reservedCache).liveKeys .inclusive
    s.now).filter pattern).map fun key => Js.substringFrom key CACHE_KEY_PREFIX.length

def perform (evicted : List String) : (access : Access V) → Option (access.Reply × LocalLRUCache V)
  | .get key => some (get o s key)
  | .getRemainingTtl key => some (getRemainingTtl o s key, s)
  | .set key value ttl => (set o s key value ttl evicted).map fun s => ((), s)
  | .delete key => some ((), delete o s key)
  | .purgeStale => some ((), purgeStale s)
  | .clear => some ((), clear s)
  | .keys pattern => some (keys s pattern, s)

/-- Time passes between the accesses. -/
def protocol : Protocol (Access V) Access.Reply (List String) ℕ (LocalLRUCache V) Unit where
  act access evicted s := perform o s evicted access
  env ms s := some { s with now := s.now + ms }
  note _ _ _ _ _ := ()

end Accesses

section Calls

variable {V : Type} (ops : ValueOps V)

abbrev ClientM (V : Type) := Prog (Access V) Access.Reply

def incrBy (key : String) (amount : ℤ) : ClientM V V := do
  let value ← Prog.call (.get key)
  let newValue := ops.add value amount
  let remainingTtl ← Prog.call (.getRemainingTtl key)
  Prog.call (Access.set key newValue (some remainingTtl))
  return newValue

/-- What a key holds, or the error that it is no array. -/
def arrayAt (key : String) : Option V → Except String (List V)
  | none => .ok []
  | some value => ((ops.array? value).map .ok).getD (.error s!"Value at key {key} is not an array")

def lRange (key : String) (start stop : ℤ) : ClientM V (Except String (List V)) := do
  let values ← Prog.call (.get key)
  return (arrayAt ops key values).map fun values => LocalLRUCache.rangeOf values start stop

def rPush (key : String) (value : V) : ClientM V (Except String ℕ) := do
  match arrayAt ops key (← Prog.call (.get key)) with
  | .error message => return .error message
  | .ok values =>
    let values := values ++ [value]
    let remainingTtl ← Prog.call (.getRemainingTtl key)
    Prog.call (Access.set key (ops.ofArray values) (some remainingTtl))
    return .ok values.length

inductive Call (V : Type) where
  | access (request : Access V)
  | incrBy (key : String) (amount : ℤ)
  | lRange (key : String) (start stop : ℤ)
  | rPush (key : String) (value : V)

/-- What a call returns is left aside. -/
def Call.program : Call V → ClientM V Unit
  | .access request => discard (Prog.call request)
  | .incrBy key amount => discard (Eviction.incrBy ops key amount)
  | .lRange key start stop => discard (Eviction.lRange ops key start stop)
  | .rPush key value => discard (Eviction.rPush ops key value)

/-- Any calls on a new client. -/
def running (calls : ℕ → Call V) : Pool ℕ (Access V) Access.Reply Unit (LocalLRUCache V) Unit where
  shared := .empty 0
  prog i := (calls i).program ops
  ghost _ := ()

end Calls

section Reserved

variable {V : Type} {o : CacheOptions} {s after : LocalLRUCache V} {key key' : String}
  {i : CacheInstance} {store : Store String fun _ => V} {evicted : List String}

/-- The reserved cache has entries for reserved keys alone. -/
def KeysReserved (o : CacheOptions) (s : LocalLRUCache V) : Prop :=
  (s.store .reservedCache).KeysIn (o.reservedKeys.map prefixKey)

private theorem prefixKey_inj : prefixKey key = prefixKey key' ↔ key = key' :=
  String.append_right_inj _

private theorem getCacheInstance_of_mem (h : key ∈ o.reservedKeys) :
    getCacheInstance o key = .reservedCache :=
  if_pos ⟨List.ne_nil_of_mem h, h⟩

private theorem mem_of_getCacheInstance (h : getCacheInstance o key = .reservedCache) :
    key ∈ o.reservedKeys := by
  by_contra hnot
  rw [getCacheInstance, if_neg fun hboth => hnot hboth.2] at h
  cases h

private theorem keysReserved_empty (now : ℕ) : KeysReserved o (.empty now : LocalLRUCache V) :=
  Store.keysIn_empty

private theorem mem_update {stored : String} {j : CacheInstance}
    (h : stored ∈ (update s i store).store j) : stored ∈ s.store j ∨ j = i ∧ stored ∈ store := by
  by_cases hj : j = i
  · right
    rw [hj] at h
    exact ⟨hj, by simpa [update] using h⟩
  · left
    simpa [update, Function.update_of_ne hj] using h

theorem mem_delete {stored : String} (h : stored ∈ (delete o s key).store i) :
    stored ∈ s.store i := by
  rcases mem_update h with hold | ⟨rfl, herased⟩
  · exact hold
  · exact (AList.mem_erase.mp herased).2

private theorem mem_get {stored : String} (h : stored ∈ (get o s key).2.store i) :
    stored ∈ s.store i := by
  unfold get at h
  split at h
  · exact h
  · split at h
    · exact h
    · exact mem_delete h

theorem mem_set {value : V} {ttl : Option Duration} {stored : String}
    (hset : set o s key value ttl evicted = some after) (h : stored ∈ after.store i) :
    stored ∈ s.store i ∨ prefixKey key = stored ∧ getCacheInstance o key = i := by
  obtain ⟨store, hstore, rfl⟩ := Option.map_eq_some_iff.mp hset
  obtain ⟨_, heq⟩ := Option.ite_none_right_eq_some.mp hstore
  rw [← Option.some.inj heq] at h
  rcases mem_update h with hold | ⟨hi, hkept⟩
  · exact Or.inl hold
  · rcases (AList.mem_insert _).mp (Store.mem_of_mem_unlink hkept) with hnew | hold
    · exact Or.inr ⟨hnew.symm, hi.symm⟩
    · rw [← hi] at hold
      exact Or.inl hold

theorem mem_of_perform {access : Access V} {reply : access.Reply} {stored : String}
    (hp : perform o s evicted access = some (reply, after)) (h : stored ∈ after.store i) :
    stored ∈ s.store i ∨ ∃ key, prefixKey key = stored ∧ getCacheInstance o key = i := by
  cases access with
  | get key =>
    obtain rfl : (get o s key).2 = after := congrArg Prod.snd (Option.some.inj hp)
    exact Or.inl (mem_get h)
  | getRemainingTtl key =>
    cases hp
    exact Or.inl h
  | set key value ttl =>
    obtain ⟨after', hset, heq⟩ := Option.map_eq_some_iff.mp hp
    cases heq
    exact (mem_set hset h).imp_right fun hnew => ⟨key, hnew⟩
  | delete key =>
    cases hp
    exact Or.inl (mem_delete h)
  | purgeStale =>
    cases hp
    rcases mem_update h with hold | ⟨rfl, hkept⟩
    · exact Or.inl hold
    · exact Or.inl (Store.mem_of_mem_unlink hkept)
  | clear =>
    cases hp
    exact absurd h (AList.notMem_empty _)
  | keys pattern =>
    cases hp
    exact Or.inl h

theorem KeysReserved.perform {access : Access V} {reply : access.Reply} (h : KeysReserved o s)
    (hp : Eviction.perform o s evicted access = some (reply, after)) : KeysReserved o after := by
  intro stored hstored
  rcases mem_of_perform hp hstored with hold | ⟨key, rfl, hkey⟩
  · exact h stored hold
  · exact List.mem_map_of_mem (mem_of_getCacheInstance hkey)

theorem KeysReserved.set_eq (h : KeysReserved o s) {value : V} {ttl : Option Duration}
    (hset : set o s key value ttl evicted = some after) :
    ∃ store, after = Eviction.update s (getCacheInstance o key) store ∧
      (getCacheInstance o key = .reservedCache → store = AList.insert (prefixKey key)
        ⟨value, resolvedDeadline o s ttl⟩ (s.store .reservedCache)) := by
  obtain ⟨store, hstore, hafter⟩ := Option.map_eq_some_iff.mp hset
  refine ⟨store, hafter.symm, fun hi => ?_⟩
  rw [hi] at hstore
  have hmem := List.mem_map_of_mem (f := prefixKey) (mem_of_getCacheInstance hi)
  exact Store.KeysIn.insertEvicting h hmem (by simp [CacheOptions.maxOf]) hstore

end Reserved

section Entries

variable {V : Type} {o : CacheOptions} {s after : LocalLRUCache V} {key key' : String}
  {evicted : List String} {e : Entry V}

private theorem entry_delete_of_ne (h : key ≠ key') :
    entry o (delete o s key') key = entry o s key := by
  unfold entry delete update
  by_cases hi : getCacheInstance o key = getCacheInstance o key'
  · simp [hi, AList.lookup_erase_ne (mt prefixKey_inj.mp h)]
  · simp [hi]

private theorem entry_of_reserved (hkey : key ∈ o.reservedKeys) :
    entry o s key = (s.store .reservedCache).lookup (prefixKey key) := by
  rw [entry, getCacheInstance_of_mem hkey]

private theorem entry_set_ne_none (h : KeysReserved o s) (hkey : key ∈ o.reservedKeys) {value : V}
    {ttl : Option Duration} (hset : set o s key' value ttl evicted = some after)
    (he : entry o s key = some e) : entry o after key ≠ none := by
  obtain ⟨store, rfl, hstore⟩ := h.set_eq hset
  rw [entry_of_reserved hkey] at he ⊢
  cases hi : getCacheInstance o key' with
  | cache =>
    change (s.store .reservedCache).lookup (prefixKey key) ≠ none
    rw [he]
    exact nofun
  | reservedCache =>
    change store.lookup (prefixKey key) ≠ none
    rw [hstore hi]
    by_cases heq : prefixKey key = prefixKey key'
    · rw [heq, AList.lookup_insert]
      exact nofun
    · rw [AList.lookup_insert_ne heq, he]
      exact nofun

private theorem stale_of_gone_get (he : entry o s key = some e)
    (hgone : entry o (get o s key').2 key = none) : e.aliveAt .inclusive s.now = false := by
  unfold get at hgone
  cases hread : entry o s key' with
  | none =>
    rw [hread] at hgone
    exact absurd (he.symm.trans hgone) nofun
  | some e' =>
    rw [hread] at hgone
    by_cases halive : e'.aliveAt .inclusive s.now = true
    · simp only [halive, if_true] at hgone
      exact absurd (he.symm.trans hgone) nofun
    · simp only [halive, if_false, Bool.false_eq_true] at hgone
      by_cases heq : key = key'
      · rw [heq, hread] at he
        obtain rfl := Option.some.inj he
        exact Bool.eq_false_iff.mpr halive
      · rw [entry_delete_of_ne heq, he] at hgone
        cases hgone

private theorem gone_of_perform {access : Access V} {reply : access.Reply} (h : KeysReserved o s)
    (hkey : key ∈ o.reservedKeys) (hp : perform o s evicted access = some (reply, after))
    (he : entry o s key = some e) (hgone : entry o after key = none) :
    e.aliveAt .inclusive s.now = false ∨ access = .delete key ∨ access = .clear := by
  have hsame : after ≠ s := by
    intro heq
    rw [heq, he] at hgone
    cases hgone
  cases access with
  | get key' =>
    obtain rfl : (get o s key').2 = after := congrArg Prod.snd (Option.some.inj hp)
    exact Or.inl (stale_of_gone_get he hgone)
  | getRemainingTtl key' =>
    cases hp
    exact absurd rfl hsame
  | set key' value ttl =>
    obtain ⟨after', hset, heq⟩ := Option.map_eq_some_iff.mp hp
    cases heq
    exact absurd hgone (entry_set_ne_none h hkey hset he)
  | delete key' =>
    cases hp
    by_cases heq : key = key'
    · exact Or.inr (Or.inl (congrArg Access.delete heq.symm))
    · rw [entry_delete_of_ne heq, he] at hgone
      cases hgone
  | purgeStale =>
    cases hp
    rw [entry_of_reserved hkey] at he hgone
    exact absurd (he.symm.trans hgone) nofun
  | clear => exact Or.inr (Or.inr rfl)
  | keys pattern =>
    cases hp
    exact absurd rfl hsame

end Entries

section Runs

variable {V : Type} {o : CacheOptions} {key : String}
  {pool pool' : Pool ℕ (Access V) Access.Reply Unit (LocalLRUCache V) Unit}
  {event : PoolEvent ℕ (List String) ℕ}

/-- The next request of the call. -/
def Requests (pool : Pool ℕ (Access V) Access.Reply Unit (LocalLRUCache V) Unit) (i : ℕ)
    (access : Access V) : Prop := ∃ next, pool.prog i = .request access next

/-- If the step takes the entry of the key away, the time of the entry is over, or the step is
that of a `delete` or a `clear`. -/
def KeepsEntry (o : CacheOptions) (key : String)
    (pool : Pool ℕ (Access V) Access.Reply Unit (LocalLRUCache V) Unit)
    (event : PoolEvent ℕ (List String) ℕ) : Prop :=
  ∀ pool', (protocol o).step pool event = some pool' → ∀ e, entry o pool.shared key = some e →
    entry o pool'.shared key = none → e.aliveAt .inclusive pool.shared.now = false ∨
      ∃ i evicted, event = .run i evicted ∧
        (Requests pool i (.delete key) ∨ Requests pool i .clear)

/-- A step is an access of a call, or the time passes. -/
theorem step_cases (h : (protocol o).step pool event = some pool') :
    (∃ i evicted access next reply, event = .run i evicted ∧
      pool.prog i = .request access next ∧
      perform o pool.shared evicted access = some (reply, pool'.shared)) ∨
    ∃ ms, pool'.shared = { pool.shared with now := pool.shared.now + ms } := by
  cases event with
  | env ms =>
    cases h
    exact Or.inr ⟨ms, rfl⟩
  | run i evicted =>
    cases hp : pool.prog i with
    | pure a => simp [Protocol.step, hp] at h
    | request access next =>
      simp only [Protocol.step, hp] at h
      obtain ⟨⟨reply, after⟩, hact, rfl⟩ := Option.map_eq_some_iff.mp h
      exact Or.inl ⟨i, evicted, access, next, reply, rfl, hp, hact⟩

private theorem keysReserved_step (hinv : KeysReserved o pool.shared)
    (h : (protocol o).step pool event = some pool') : KeysReserved o pool'.shared := by
  rcases step_cases h with ⟨i, evicted, access, next, reply, _, _, hp⟩ | ⟨ms, hpass⟩
  · exact hinv.perform hp
  · rw [hpass]
    exact hinv

private theorem keepsEntry_of_mem (hkey : key ∈ o.reservedKeys)
    (hinv : KeysReserved o pool.shared) :
    KeepsEntry o key pool event := by
  intro pool' h e he hgone
  rcases step_cases h with ⟨i, evicted, access, next, reply, hevent, hrequest, hp⟩ | ⟨ms, hpass⟩
  · rcases gone_of_perform hinv hkey hp he hgone with hstale | rfl | rfl
    · exact Or.inl hstale
    · exact Or.inr ⟨i, evicted, hevent, Or.inl ⟨next, hrequest⟩⟩
    · exact Or.inr ⟨i, evicted, hevent, Or.inr ⟨next, hrequest⟩⟩
  · rw [hpass] at hgone
    exact absurd (he.symm.trans hgone) nofun

/-- An entry under a reserved key stays until it is deleted or its time is over, whatever calls
are made. -/
theorem keepsEntry_along (ops : ValueOps V) (hkey : key ∈ o.reservedKeys) (calls : ℕ → Call V)
    (es : List (PoolEvent ℕ (List String) ℕ)) :
    Along (protocol o).step (KeepsEntry o key) (running ops calls) es := by
  have hany : Along (protocol o).step (fun _ _ => True) (running ops calls) es := along_true _ es
  have hinv := hany.and_invariant (I := fun pool => KeysReserved o pool.shared)
    (fun _ _ _ h _ hstep => keysReserved_step h hstep) (keysReserved_empty 0)
  exact hinv.mono fun _ _ h => keepsEntry_of_mem hkey h.2

end Runs

end JsonRpcRelay.Clients.Eviction
