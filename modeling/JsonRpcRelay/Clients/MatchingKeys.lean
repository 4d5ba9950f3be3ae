import JsonRpcRelay.Clients.Eviction
import JsonRpcRelay.Clients.KeyTranslation

/-!
# The keys that match a pattern

`keys` of the two caches.  Redis matches a pattern against whole keys.  `LocalLRUCache` looks for a
part of the key that fits the expression it makes of the pattern.
-/

namespace JsonRpcRelay.Clients.MatchingKeys

open Framework Eviction KeyPatterns

section Keys

variable {V : Type}

/-- `none` for a `SyntaxError`.  What is not read here is left to `other`. -/
def RegExp (other : Text → Option (Text → Bool)) (source : Text) : Option (Text → Bool) :=
  match regExpSlots [] none source with
  | .ok slots => some (Slot.somewhere slots)
  | .error .syntaxError => none
  | .error .notRead => other source

/-- The keys with their prefix, as `rkeys` lists them. -/
def storedKeys (s : LocalLRUCache V) : List String :=
  (s.store .cache).liveKeys .inclusive s.now ++ (s.store .reservedCache).liveKeys .inclusive s.now

def LocalLRUCache.keys (other : Text → Option (Text → Bool)) (s : LocalLRUCache V)
    (pattern : String) : Option (List String) :=
  (RegExp other (regexPattern (prefixKey pattern).toList)).map fun regex =>
    Eviction.keys s fun key => regex key.toList

def RedisCache.keys (stored : List String) (pattern : String) : List String :=
  (stored.filter fun key => Slot.whole (globSlots none (prefixKey pattern).toList) key.toList).map
    fun key => Js.substringFrom key CACHE_KEY_PREFIX.length

end Keys

section Prefixes

variable {V : Type} {o : CacheOptions} {s after : LocalLRUCache V} {evicted : List String}

/-- All entries are made under keys with the prefix. -/
def KeysPrefixed (s : LocalLRUCache V) : Prop :=
  ∀ i, ∀ stored ∈ s.store i, ∃ key, prefixKey key = stored

private theorem keysPrefixed_empty (now : ℕ) : KeysPrefixed (.empty now : LocalLRUCache V) :=
  fun _ _ hstored => absurd hstored (AList.notMem_empty _)

theorem KeysPrefixed.set (h : KeysPrefixed s) {key : String} {value : V} {ttl : Option Duration}
    (hset : Eviction.set o s key value ttl evicted = some after) : KeysPrefixed after := by
  intro i stored hstored
  rcases mem_set hset hstored with hold | ⟨hnew, _⟩
  · exact h i stored hold
  · exact ⟨key, hnew⟩

theorem KeysPrefixed.perform {access : Access V} {reply : access.Reply} (h : KeysPrefixed s)
    (hp : Eviction.perform o s evicted access = some (reply, after)) : KeysPrefixed after := by
  intro i stored hstored
  rcases mem_of_perform hp hstored with hold | ⟨key, hkey, _⟩
  · exact h i stored hold
  · exact ⟨key, hkey⟩

/-- The calls that run on a client. -/
private abbrev Running (V : Type) := Pool ℕ (Access V) Access.Reply Unit (LocalLRUCache V) Unit

private theorem keysPrefixed_step {pool pool' : Running V} {e : PoolEvent ℕ (List String) ℕ}
    (h : KeysPrefixed pool.shared) (hstep : (protocol o).step pool e = some pool') :
    KeysPrefixed pool'.shared := by
  rcases step_cases hstep with ⟨_, _, _, _, _, _, _, hp⟩ | ⟨ms, hpass⟩
  · exact h.perform hp
  · rw [hpass]
    exact h

/-- Whatever calls are made on a new client, all of its keys have the prefix. -/
theorem keysPrefixed_of_run {ops : ValueOps V} {calls : ℕ → Call V}
    {es : List (PoolEvent ℕ (List String) ℕ)} {pool : Running V}
    (hrun : exec (protocol o).step (running ops calls) es = some pool) :
    KeysPrefixed pool.shared := by
  have hstep (p : Running V) (e : PoolEvent ℕ (List String) ℕ) (p' : Running V)
      (h : KeysPrefixed p.shared) (_ : True) (hp : (protocol o).step p e = some p') :
      KeysPrefixed p'.shared := keysPrefixed_step h hp
  exact run_invariant hstep (keysPrefixed_empty 0) (along_true _ es) hrun

private theorem prefixed_of_mem (hs : KeysPrefixed s) {key : String} (h : key ∈ storedKeys s) :
    ∃ k, prefixKey k = key := by
  rcases List.mem_append.mp h with hmem | hmem
  · exact hs _ key (AList.mem_keys.mp (List.mem_filter.mp hmem).1)
  · exact hs _ key (AList.mem_keys.mp (List.mem_filter.mp hmem).1)

end Prefixes

section Agreement

variable {V : Type} {other : Text → Option (Text → Bool)} {ops : ValueOps V} {pattern : String}

/-- In every state that a run of a new client reaches, `keys` lists what Redis would list. -/
def ListsAsRedis (other : Text → Option (Text → Bool)) (ops : ValueOps V) (pattern : String) :
    Prop :=
  ∀ (o : CacheOptions) (calls : ℕ → Call V) (es : List (PoolEvent ℕ (List String) ℕ))
    (pool : Pool ℕ (Access V) Access.Reply Unit (LocalLRUCache V) Unit),
    exec (protocol o).step (running ops calls) es = some pool →
      LocalLRUCache.keys other pool.shared pattern =
        some (RedisCache.keys (storedKeys pool.shared) pattern)

def someOptions : CacheOptions := ⟨1000, 3600000, [], List.nodup_nil⟩

private theorem exists_run_of_key [Inhabited V] (ops : ValueOps V) (key : String) :
    ∃ pool, exec (protocol someOptions).step
        (running ops fun _ => .access (.set key default (some .infinity))) [.run 0 []] = some pool ∧
      storedKeys pool.shared = [prefixKey key] := by
  refine ⟨_, rfl, ?_⟩
  have hget : Store.get .inclusive 0 (AList.insert (prefixKey key) ⟨default, none⟩ ∅ :
      Store String fun _ => V) (prefixKey key) = some default := by
    rw [Store.get, AList.lookup_insert]
    rfl
  have hlive : List.filter (fun k => (Store.get .inclusive 0
      (AList.insert (prefixKey key) ⟨default, none⟩ ∅ : Store String fun _ => V)
        k).isSome) [prefixKey key] = [prefixKey key] := by
    rw [List.filter_singleton, hget]
    rfl
  exact (List.append_nil _).trans hlive

/-- An expression that is read is compared with the pattern key by key. -/
private theorem listsAsRedis_iff [Inhabited V] {regex : Text → Bool}
    (hread : RegExp other (regexPattern (prefixKey pattern).toList) = some regex) :
    ListsAsRedis other ops pattern ↔ ∀ key,
      regex (prefixKey key).toList =
        Slot.whole (globSlots none (prefixKey pattern).toList) (prefixKey key).toList := by
  have hkeys (s : LocalLRUCache V) : LocalLRUCache.keys other s pattern =
      some (((storedKeys s).filter fun key => regex key.toList).map fun key =>
        Js.substringFrom key CACHE_KEY_PREFIX.length) := by
    rw [LocalLRUCache.keys, hread]
    rfl
  constructor
  · intro hlists key
    obtain ⟨pool, hrun, hstored⟩ := exists_run_of_key ops key
    have hsame := hlists _ _ _ pool hrun
    rw [hkeys, RedisCache.keys, hstored, Option.some.injEq] at hsame
    have hlength := congrArg List.length hsame
    rw [List.length_map, List.length_map, List.filter_singleton, List.filter_singleton] at hlength
    cases hregex : regex (prefixKey key).toList <;> cases hglob :
      Slot.whole (globSlots none (prefixKey pattern).toList) (prefixKey key).toList
    all_goals simp_all
  · intro hsame o calls es pool hrun
    have hprefixed := keysPrefixed_of_run hrun
    rw [hkeys, RedisCache.keys]
    refine congrArg (fun found => some (List.map _ found)) (List.filter_congr fun key hkey => ?_)
    obtain ⟨k, rfl⟩ := prefixed_of_mem hprefixed hkey
    exact hsame k

end Agreement

section Patterns

variable {V : Type} {other : Text → Option (Text → Bool)} {ops : ValueOps V}
  {pattern : List Piece} {text : Text}

/-- The text of a pattern. -/
def patternText (pattern : List Piece) : String := String.ofList (pattern.flatMap Piece.text)

def prefixed (pattern : List Piece) : List Piece :=
  CACHE_KEY_PREFIX.toList.map Piece.literal ++ pattern

/-- A class has no character, or there is a star and, apart from stars, there are classes alone: of
all characters, or between two stars, the first of them right in front of the class, and with all
line terminators. -/
def Unselective (pattern : List Piece) : Prop :=
  (∃ piece ∈ pattern, piece.IsEmpty) ∨
    .star ∈ pattern ∧ Slot.Loose dot false (pattern.map Piece.regExp)

private theorem toList_prefixKey (pattern : List Piece) :
    (prefixKey (patternText pattern)).toList = (prefixed pattern).flatMap Piece.text := by
  simp [prefixKey, patternText, prefixed, List.flatMap_map, Piece.text]

theorem Translatable.prefixed (h : Translatable pattern) :
    Translatable (MatchingKeys.prefixed pattern) := by
  apply Translatable.append _ h
  simp [CACHE_KEY_PREFIX, Harmless]

private theorem spread_glob_prefixed (pattern : List Piece) :
    Slot.spread Slot.full ((prefixed pattern).map Piece.glob) =
      Slot.literals CACHE_KEY_PREFIX.toList ++ Slot.spread Slot.full (pattern.map Piece.glob) := by
  simp [prefixed, Slot.spread, Slot.literals, Piece.glob, Slot.place, Function.comp_def]

private theorem spread_regExp_prefixed (pattern : List Piece) :
    Slot.spread dot ((prefixed pattern).map Piece.regExp) =
      Slot.literals CACHE_KEY_PREFIX.toList ++ Slot.spread dot (pattern.map Piece.regExp) := by
  simp [prefixed, Slot.spread, Slot.literals, Piece.regExp, Slot.place, CACHE_KEY_PREFIX]

/-- The expression that is made of the pattern reads the same pieces, and finds them anywhere. -/
theorem regExp_translatable (h : Translatable pattern) :
    RegExp other (regexPattern (prefixKey (patternText pattern)).toList) =
      some (Slot.somewhere (Slot.literals CACHE_KEY_PREFIX.toList ++
        Slot.spread dot (pattern.map Piece.regExp))) := by
  have hread := regExpSlots_regExpText [] (Translatable.prefixed h).plain
  rw [toList_prefixKey, regexPattern_text (Translatable.prefixed h), RegExp, hread]
  exact congrArg (some ∘ Slot.somewhere) (spread_regExp_prefixed pattern)

private theorem globSlots_translatable (h : Translatable pattern) :
    globSlots none (prefixKey (patternText pattern)).toList =
      Slot.literals CACHE_KEY_PREFIX.toList ++ Slot.spread Slot.full (pattern.map Piece.glob) := by
  rw [toList_prefixKey, globSlots_text (Translatable.prefixed h).plain, spread_glob_prefixed]

/-- What is found behind the prefix is compared with what fits as a whole. -/
private theorem listsAsRedis_iff_same [Inhabited V] (h : Translatable pattern) :
    ListsAsRedis other ops (patternText pattern) ↔ ∀ text,
      Slot.Found CACHE_KEY_PREFIX.toList (Slot.spread dot (pattern.map Piece.regExp)) text ↔
        Slot.Fits (Slot.spread Slot.full (pattern.map Piece.glob)) text := by
  have hsame (text : Text) :
      Slot.somewhere (Slot.literals CACHE_KEY_PREFIX.toList ++
          Slot.spread dot (pattern.map Piece.regExp)) (CACHE_KEY_PREFIX.toList ++ text) =
        Slot.whole (Slot.literals CACHE_KEY_PREFIX.toList ++
          Slot.spread Slot.full (pattern.map Piece.glob)) (CACHE_KEY_PREFIX.toList ++ text) ↔
      (Slot.Found CACHE_KEY_PREFIX.toList (Slot.spread dot (pattern.map Piece.regExp)) text ↔
        Slot.Fits (Slot.spread Slot.full (pattern.map Piece.glob)) text) := by
    rw [Bool.eq_iff_iff, Slot.somewhere_iff, Slot.whole_iff, Slot.fits_literals_append_iff]
    rfl
  rw [listsAsRedis_iff (regExp_translatable h), globSlots_translatable h]
  simp only [prefixKey, String.toList_append, hsame]
  constructor
  · intro hkeys text
    simpa using hkeys (String.ofList text)
  · intro htexts key
    exact htexts key.toList

private theorem satisfiable_glob (h : ¬∃ piece ∈ pattern, piece.IsEmpty) :
    Slot.Satisfiable (pattern.map Piece.glob) := by
  intro set hset
  obtain ⟨piece, hpiece, hglob⟩ := List.mem_map.mp hset
  by_contra hnone
  exact h ⟨piece, hpiece, set, hglob, by simpa using hnone⟩

private theorem satisfiable_regExp (h : ¬∃ piece ∈ pattern, piece.IsEmpty) :
    Slot.Satisfiable (pattern.map Piece.regExp) := by
  intro set hset
  obtain ⟨piece, hpiece, hregExp⟩ := List.mem_map.mp hset
  have hglob (heq : piece.glob = some set) : ∃ c, set c = true :=
    satisfiable_glob h set (List.mem_map.mpr ⟨piece, hpiece, heq⟩)
  cases piece with
  | literal c =>
    obtain rfl := Option.some.inj hregExp
    refine ⟨c, ?_⟩
    split
    · rename_i hdot
      rw [hdot]
      rfl
    · exact beq_self_eq_true c
  | any =>
    obtain rfl := Option.some.inj hregExp
    exact ⟨'a', rfl⟩
  | star => cases hregExp
  | escaped c => exact hglob hregExp
  | set negated items => exact hglob hregExp

private theorem regExp_of_isEmpty {piece : Piece} (h : piece.IsEmpty) :
    ∃ set, piece.regExp = some set ∧ ∀ c, set c = false := by
  obtain ⟨set, hglob, hset⟩ := h
  cases piece with
  | literal c =>
    obtain rfl := Option.some.inj hglob
    have hc := hset c
    simp at hc
  | any =>
    obtain rfl := Option.some.inj hglob
    cases hset 'a'
  | star => cases hglob
  | escaped c => exact ⟨set, hglob, hset⟩
  | set negated items => exact ⟨set, hglob, hset⟩

private theorem regExp_eq_none_iff {piece : Piece} : piece.regExp = none ↔ piece = .star := by
  cases piece <;> simp [Piece.regExp, Piece.glob]

private theorem glob_eq_none_iff {piece : Piece} : piece.glob = none ↔ piece = .star := by
  cases piece <;> simp [Piece.glob]

private theorem none_mem_map_iff : none ∈ pattern.map Piece.regExp ↔ .star ∈ pattern := by
  simp [List.mem_map, regExp_eq_none_iff]

/-- Where the sets are the same, so are the places for any number of characters. -/
private theorem map_eq_of_reduceOption_eq
    (h : (pattern.map Piece.regExp).reduceOption = (pattern.map Piece.glob).reduceOption) :
    pattern.map Piece.regExp = pattern.map Piece.glob := by
  induction pattern with
  | nil => rfl
  | cons piece pattern ih =>
    rw [List.map_cons, List.map_cons] at h ⊢
    cases hregExp : piece.regExp with
    | none =>
      have hglob := glob_eq_none_iff.mpr (regExp_eq_none_iff.mp hregExp)
      rw [hregExp, hglob] at h
      rw [hglob, ih h]
    | some set =>
      cases hglob : piece.glob with
      | none =>
        rw [regExp_eq_none_iff.mpr (glob_eq_none_iff.mp hglob)] at hregExp
        cases hregExp
      | some set' =>
        rw [hregExp, hglob, List.reduceOption_cons_of_some, List.reduceOption_cons_of_some] at h
        obtain ⟨rfl, hrest⟩ := List.cons_eq_cons.mp h
        rw [ih hrest]

/-- The wildcards of the expression that Redis reads otherwise lack the line terminators. -/
private theorem regExp_eq_glob_of_loose {behind : Bool}
    (h : Slot.Loose dot behind (pattern.map Piece.regExp)) :
    pattern.map Piece.regExp = pattern.map Piece.glob := by
  induction pattern generalizing behind with
  | nil => rfl
  | cons piece pattern ih =>
    have hline {set : Char → Bool} (hset : (∀ c, set c = true) ∨ behind = true ∧
        none ∈ pattern.map Piece.regExp ∧ ∀ c, dot c = false → set c = true) : set '\n' = true :=
      hset.elim (fun hfull => hfull '\n') fun hbehind => hbehind.2.2 '\n' rfl
    rw [List.map_cons, List.map_cons]
    cases piece with
    | literal c =>
      by_cases hdot : c = '.'
      · subst hdot
        cases hline h.1
      · rw [ih h.2, Piece.regExp, if_neg hdot, Piece.glob]
    | any => cases hline h.1
    | escaped c => exact congrArg (_ :: ·) (ih h.2)
    | star => exact congrArg (_ :: ·) (ih h)
    | set negated items => exact congrArg (_ :: ·) (ih h.2)

private theorem same_iff_loose (h : Slot.Satisfiable (pattern.map Piece.regExp)) :
    (∀ text, Slot.Found CACHE_KEY_PREFIX.toList (Slot.spread dot (pattern.map Piece.regExp)) text ↔
      Slot.Fits (Slot.spread Slot.full (pattern.map Piece.regExp)) text) ↔
    .star ∈ pattern ∧ Slot.Loose dot false (pattern.map Piece.regExp) := by
  rw [← none_mem_map_iff]
  refine Slot.same_iff_loose h (rfl : dot '\n' = false) (by decide) (by decide) fun c hc => ?_
  simp [CACHE_KEY_PREFIX] at hc

private theorem listsAsRedis_iff_unselective [Inhabited V] (h : Translatable pattern) :
    ListsAsRedis other ops (patternText pattern) ↔ Unselective pattern := by
  rw [listsAsRedis_iff_same h]
  by_cases hempty : ∃ piece ∈ pattern, piece.IsEmpty
  · refine iff_of_true (fun text => iff_of_false ?_ ?_) (Or.inl hempty)
    · obtain ⟨piece, hpiece, hpieceEmpty⟩ := hempty
      obtain ⟨set, hregExp, hset⟩ := regExp_of_isEmpty hpieceEmpty
      intro hfound
      obtain ⟨part, hpart⟩ := hfound.exists_fits
      exact Slot.not_fits_of_empty (List.mem_map.mpr ⟨piece, hpiece, hregExp⟩) hset hpart
    · obtain ⟨piece, hpiece, set, hglob, hset⟩ := hempty
      exact Slot.not_fits_of_empty (List.mem_map.mpr ⟨piece, hpiece, hglob⟩) hset
  · have hregExp := satisfiable_regExp hempty
    constructor
    · intro hsame
      have hsets := Slot.reduceOption_eq_of_same hregExp (satisfiable_glob hempty) hsame
      rw [← map_eq_of_reduceOption_eq hsets] at hsame
      exact Or.inr ((same_iff_loose hregExp).mp hsame)
    · intro hunselective
      have hloose := hunselective.resolve_left hempty
      rw [← regExp_eq_glob_of_loose hloose.2]
      exact (same_iff_loose hregExp).mpr hloose

end Patterns

section Texts

variable {V : Type} {other : Text → Option (Text → Bool)} {ops : ValueOps V} {pattern : String}

private theorem globSlots_prefixKey : globSlots none (prefixKey pattern).toList =
    Slot.literals CACHE_KEY_PREFIX.toList ++ globSlots none pattern.toList := by
  rw [prefixKey, String.toList_append]
  rfl

/-- To Redis, the pattern has a class without characters, or a star with nothing but sets of all
characters behind the last one. -/
def OpenEnded (pattern : String) : Prop :=
  ∃ row, globSlots none pattern.toList = Slot.spread Slot.full row ∧
    (Slot.Satisfiable row → Slot.OpenEnd row)

/-- Whatever is behind a part of the key that fits, the part is found. -/
theorem openEnded_of_listsAsRedis [Inhabited V]
    (hread : regExpSlots [] none (regexPattern (prefixKey pattern).toList) ≠ .error .notRead)
    (hlists : ListsAsRedis other ops pattern) : OpenEnded pattern := by
  cases hslots : regExpSlots [] none (regexPattern (prefixKey pattern).toList) with
  | error e =>
    cases e with
    | notRead => exact absurd hslots hread
    | syntaxError =>
      have hkeys := hlists someOptions (fun _ => .access .clear) [] _ rfl
      rw [LocalLRUCache.keys, RegExp, hslots] at hkeys
      cases hkeys
  | ok slots =>
    have hregex : RegExp other (regexPattern (prefixKey pattern).toList) =
        some (Slot.somewhere slots) := by
      rw [RegExp, hslots]
    obtain ⟨row, hrow⟩ := globSlots_eq_spread none pattern.toList
    have hsame (text : Text) : (∃ part, part <:+: CACHE_KEY_PREFIX.toList ++ text ∧
        Slot.Fits slots part) ↔ Slot.Fits (Slot.spread Slot.full row) text := by
      have hkey := (listsAsRedis_iff hregex).mp hlists (String.ofList text)
      rwa [globSlots_prefixKey, hrow, prefixKey, String.toList_append, String.toList_ofList,
        Bool.eq_iff_iff, Slot.somewhere_iff, Slot.whole_iff, Slot.fits_literals_append_iff] at hkey
    refine ⟨row, hrow, fun hsatisfiable => Slot.openEnd_of_append hsatisfiable ?_⟩
    intro text back h
    obtain ⟨part, hpart, hfits⟩ := (hsame text).mpr h
    refine (hsame (text ++ back)).mp ⟨part, hpart.trans ?_, hfits⟩
    rw [← List.append_assoc]
    exact List.infix_append' [] _ back

end Texts

section Examples

/-- A new client on which one key has been set. -/
def oneKey : LocalLRUCache Unit :=
  (Eviction.set someOptions (.empty 0) "foobar" () none []).getD (.empty 0)

def unitOps : ValueOps Unit := ⟨fun _ _ => (), fun _ => none, fun _ => ()⟩

/-- The pattern `*[^a]*`. -/
def loosePattern : List Piece := [.star, .set true [.single 'a'], .star]

/-- The pattern `foo[a-c]?*`. -/
def somePattern : List Piece :=
  "foo".toList.map Piece.literal ++ [.set false [.range 'a' 'c'], .any, .star]

private theorem translatable_loosePattern : Translatable loosePattern := by
  refine ⟨?_, ?_, ?_, ?_⟩
  · simp [loosePattern, PlainPieces, Piece.Plain, PlainItems, ClassItem.Plain]
  · intro k
    cases k <;> decide
  · decide
  · intro c hc
    simp [loosePattern, bracketedMark, List.infix_cons_iff, Piece.text, ClassItem.text]

private theorem translatable_somePattern : Translatable somePattern := by
  apply Translatable.append (by simp [Harmless])
  refine ⟨?_, ?_, ?_, ?_⟩
  · simp [PlainPieces, Piece.Plain, PlainItems, ClassItem.Plain, ClassItem.text]
  · intro k
    cases k <;> decide
  · decide
  · intro c hc
    simp [bracketedMark, List.infix_cons_iff, Piece.text, ClassItem.text]

private theorem unselective_loosePattern : Unselective loosePattern := by
  refine Or.inr ⟨List.mem_cons_self, Or.inr ⟨rfl, List.mem_cons_self, fun c hc => ?_⟩, trivial⟩
  have hne : c ≠ 'a' := by
    rintro rfl
    cases hc
  simpa [CharClass.has, ClassItem.bounds] using hne

private theorem not_unselective_somePattern : ¬Unselective somePattern := by
  rintro (⟨piece, hpiece, set, hglob, hset⟩ | ⟨_, hloose⟩)
  · rw [somePattern, List.mem_append, List.mem_map] at hpiece
    simp only [List.mem_cons, List.not_mem_nil, or_false] at hpiece
    rcases hpiece with ⟨c, _, rfl⟩ | rfl | rfl | rfl
    · obtain rfl := Option.some.inj hglob
      simpa using hset c
    · obtain rfl := Option.some.inj hglob
      exact absurd (hset 'a') (by decide)
    · obtain rfl := Option.some.inj hglob
      cases hset 'a'
    · cases hglob
  · rcases hloose.1 with hfull | ⟨hbehind, _⟩
    · exact absurd (hfull 'g') (by decide)
    · cases hbehind

end Examples

end JsonRpcRelay.Clients.MatchingKeys
