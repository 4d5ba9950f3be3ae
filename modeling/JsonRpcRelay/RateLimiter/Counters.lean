import JsonRpcRelay.JavaScript
import JsonRpcRelay.Framework.Keyed
import JsonRpcRelay.Framework.Schedule
import JsonRpcRelay.RateLimiter.RedisRateLimitStore

/-!
# Windows of pairs

The rule of the limiter in Redis: the requests of an ip address for a method are counted in
windows.  The counters follow the rule as long as no request comes while another pair, whose key
has the same text, has an open window.
-/

namespace JsonRpcRelay.RateLimiter

open Framework Framework.Store Js

section Rule

/-- A window of a pair, with the number of requests that were counted in it. -/
structure PairWindow where
  closes : ℕ
  count : ℕ
  deriving DecidableEq

def isOpen (now : ℕ) (w : PairWindow) : Bool := now < w.closes

/-- The requests that were counted since the current window began. -/
def counted (now : ℕ) (w : Option PairWindow) : ℕ :=
  ((w.filter (isOpen now)).map PairWindow.count).getD 0

def afterRequest (duration now : ℕ) (w : Option PairWindow) : PairWindow :=
  match w.filter (isOpen now) with
  | some w => { w with count := w.count + 1 }
  | none => ⟨now + RedisRateLimitStore.durationSeconds duration * 1000, 1⟩

/-- The rule, with the window of each pair. -/
def pairRule (duration : ℕ) (limit : String → ℕ) :
    Keyed RateLimitKey Call (Option PairWindow) Bool where
  key c := c.key
  act w c := (limit c.method ≤ counted c.time w, some (afterRequest duration c.time w))

abbrev PairWindows := RateLimitKey → Option PairWindow

/-- No other pair with the same text has an open window. -/
def Unshared (ws : PairWindows) (c : Call) : Prop :=
  ∀ q : RateLimitKey, q.toString = c.key.toString → q ≠ c.key →
    (ws q).filter (isOpen c.time) = none

/-- The windows after a request, which do not depend on the limits. -/
def pairStep (duration : ℕ) (ws : PairWindows) (c : Call) : Option PairWindows :=
  some ((pairRule duration fun _ => 0).step ws c)

end Rule

section Keys

private theorem append_inj_of_count {as bs cs ds : List Char} {x : Char}
    (h : as ++ x :: bs = cs ++ x :: ds) (hcount : as.count x = cs.count x) : as = cs ∧ bs = ds := by
  induction as generalizing cs with
  | nil =>
    cases cs with
    | nil => simpa using h
    | cons y cs =>
      obtain rfl : x = y := (List.cons.inj h).1
      simp at hcount
  | cons y as ih =>
    cases cs with
    | nil =>
      obtain rfl : y = x := (List.cons.inj h).1
      simp at hcount
    | cons z cs =>
      obtain ⟨rfl, htail⟩ := List.cons.inj h
      obtain ⟨has, hbs⟩ := ih htail (by simpa [List.count_cons] using hcount)
      exact ⟨by rw [has], hbs⟩

/-- Addresses with the same number of colons, such as those of IPv4, do not share a text. -/
theorem RateLimitKey.toString_inj_of_colons {p q : RateLimitKey}
    (hcount : p.ip.toList.count ':' = q.ip.toList.count ':') (h : p.toString = q.toString) :
    p = q := by
  have htext := congrArg String.toList h
  simp only [RateLimitKey.toString, String.toList_append, List.append_assoc,
    List.append_cancel_left_eq] at htext
  obtain ⟨hip, hmethod⟩ := append_inj_of_count htext hcount
  cases p
  cases q
  simp_all [String.toList_inj]

/-- Clients whose addresses have the same number of colons do not share a text. -/
theorem along_unshared_of_colons {duration n : ℕ} {ws : PairWindows} {cs : List Call}
    (hws : ∀ p w, ws p = some w → p.ip.toList.count ':' = n)
    (hcs : ∀ c ∈ cs, c.ip.toList.count ':' = n) :
    Along (pairStep duration) Unshared ws cs := by
  induction cs generalizing ws with
  | nil => trivial
  | cons c cs ih =>
    have hc : c.key.ip.toList.count ':' = n := hcs c List.mem_cons_self
    refine Along.cons rfl (fun q htext hne => ?_)
      (ih (fun p w hw => ?_) fun c' hc' => hcs c' (List.mem_cons_of_mem _ hc'))
    · rw [Option.filter_eq_none_iff]
      intro w hw
      exact absurd (RateLimitKey.toString_inj_of_colons ((hws q w hw).trans hc.symm) htext) hne
    · by_cases hp : p = c.key
      · rw [hp, hc]
      · rw [Keyed.step_of_ne (Ne.symm hp)] at hw
        exact hws p w hw

end Keys

namespace RedisRateLimitStore

section Simulation

/-- The counter of each text is that of the pair with an open window. -/
structure Counts (now : ℕ) (counters : Counters) (ws : PairWindows) : Prop where
  counter : ∀ (p : RateLimitKey) w, (ws p).filter (isOpen now) = some w →
    counters.liveEntry .strict now p.toString = some ⟨w.count, some w.closes⟩
  window : ∀ (p : RateLimitKey) e, counters.liveEntry .strict now p.toString = some e →
    ∃ (q : RateLimitKey) (w : PairWindow), q.toString = p.toString ∧ (ws q).filter (isOpen now) = some w
  unique : ∀ (p q : RateLimitKey) v w, p.toString = q.toString → (ws p).filter (isOpen now) = some v →
    (ws q).filter (isOpen now) = some w → p = q
  positive : ∀ p w, ws p = some w → 0 < w.count

private theorem counts_init : Counts 0 ∅ fun _ => none where
  counter p w h := by simp at h
  window p e h := by simp at h
  unique p q v w _ h := by simp at h
  positive p w h := by simp at h

variable {now later duration : ℕ} {limit : String → ℕ} {counters : Counters} {ws : PairWindows}
  {c : Call}

private theorem filter_isOpen_later (hle : now ≤ later) (w : Option PairWindow) :
    w.filter (isOpen later) = (w.filter (isOpen now)).filter (isOpen later) := by
  rw [Option.filter_filter]
  congr 1
  funext w
  rw [Bool.eq_iff_iff]
  simp only [isOpen, Bool.and_eq_true, decide_eq_true_eq]
  omega

theorem Counts.advance (h : Counts now counters ws) (hle : now ≤ later) :
    Counts later counters ws where
  counter p w hw := by
    rw [filter_isOpen_later hle, Option.filter_eq_some_iff] at hw
    rw [liveEntry_later hle, h.counter p w hw.1, Option.filter_eq_some_iff]
    exact ⟨rfl, hw.2⟩
  window p e he := by
    rw [liveEntry_later hle, Option.filter_eq_some_iff] at he
    obtain ⟨q, w, hq, hw⟩ := h.window p e he.1
    have hcounter := h.counter q w hw
    rw [hq, he.1] at hcounter
    obtain rfl := Option.some.inj hcounter
    refine ⟨q, w, hq, ?_⟩
    rw [filter_isOpen_later hle, hw, Option.filter_eq_some_iff]
    exact ⟨rfl, he.2⟩
  unique p q v w hpq hv hw := by
    rw [filter_isOpen_later hle, Option.filter_eq_some_iff] at hv hw
    exact h.unique p q v w hpq hv.1 hw.1
  positive := h.positive

/-- The counter of a request whose pair does not share its text. -/
theorem Counts.liveEntry_eq (h : Counts c.time counters ws) (hc : Unshared ws c) :
    counters.liveEntry .strict c.time c.key.toString =
      ((ws c.key).filter (isOpen c.time)).map fun w => ⟨w.count, some w.closes⟩ := by
  cases hw : (ws c.key).filter (isOpen c.time) with
  | some w => exact h.counter _ w hw
  | none =>
    rw [Option.map_none, Option.eq_none_iff_forall_ne_some]
    intro e he
    obtain ⟨q, w, hq, hqw⟩ := h.window _ e he
    by_cases hkey : q = c.key
    · rw [hkey, hw] at hqw
      cases hqw
    · rw [hc q hq hkey] at hqw
      cases hqw

/-- What a request leaves behind. -/
theorem Counts.update (h : Counts c.time counters ws) (hc : Unshared ws c) {w : PairWindow}
    (hw : 0 < w.count) {counters' : Counters}
    (hself : counters'.liveEntry .strict c.time c.key.toString =
      ((some w).filter (isOpen c.time)).map fun w => ⟨w.count, some w.closes⟩)
    (hother : ∀ text ≠ c.key.toString, counters'.liveEntry .strict c.time text =
      counters.liveEntry .strict c.time text) :
    Counts c.time counters' (Function.update ws c.key (some w)) where
  counter p v hv := by
    by_cases hp : p = c.key
    · subst hp
      rw [Function.update_self] at hv
      rw [hself, hv, Option.map_some]
    · rw [Function.update_of_ne hp] at hv
      have htext : p.toString ≠ c.key.toString := by
        intro htext
        rw [hc p htext hp] at hv
        cases hv
      rw [hother _ htext, h.counter p v hv]
  window p e he := by
    by_cases htext : p.toString = c.key.toString
    · rw [htext, hself, Option.map_eq_some_iff] at he
      obtain ⟨v, hv, _⟩ := he
      refine ⟨c.key, v, htext.symm, ?_⟩
      rw [Function.update_self, hv]
    · rw [hother _ htext] at he
      obtain ⟨q, v, hq, hv⟩ := h.window p e he
      refine ⟨q, v, hq, ?_⟩
      have hne : q ≠ c.key := by
        rintro rfl
        exact htext hq.symm
      rw [Function.update_of_ne hne, hv]
  unique p q u v hpq hu hv := by
    by_cases hp : p = c.key
    · by_cases hq : q = c.key
      · rw [hp, hq]
      · rw [Function.update_of_ne hq, hc q (by rw [← hpq, hp]) hq] at hv
        cases hv
    · rw [Function.update_of_ne hp] at hu
      by_cases hq : q = c.key
      · rw [hc p (by rw [hpq, hq]) hp] at hu
        cases hu
      · rw [Function.update_of_ne hq] at hv
        exact h.unique p q u v hpq hu hv
  positive p v hv := by
    by_cases hp : p = c.key
    · rw [hp, Function.update_self] at hv
      obtain rfl := Option.some.inj hv
      exact hw
    · rw [Function.update_of_ne hp] at hv
      exact h.positive p v hv

theorem luaScript_of_open {key : String} {n limit seconds : ℕ} {d : Option ℕ} (hn : 0 < n)
    (h : counters.liveEntry .strict now key = some ⟨n, d⟩) :
    luaScript now counters key limit seconds =
      (if limit < n + 1 then 1 else 0, counters.insert key ⟨n + 1, d⟩) := by
  have hne : n ≠ 0 := by omega
  simp [luaScript, incr, h, hne]

theorem luaScript_of_none {key : String} {limit seconds : ℕ}
    (h : counters.liveEntry .strict now key = none) :
    luaScript now counters key limit seconds = (if limit < 1 then 1 else 0,
      expire .strict now (counters.insert key ⟨1, none⟩) key (seconds * 1000)) := by
  simp [luaScript, incr, h]

private theorem limits_iff {n limit : ℕ} :
    (if limit < n + 1 then 1 else 0) = 1 ↔ limit ≤ n := by
  split <;> omega

/-- A request of a pair that does not share its text. -/
theorem Counts.step (duration : ℕ) (limit : String → ℕ) (h : Counts c.time counters ws)
    (hc : Unshared ws c) :
    (incrementAndCheck duration limit counters c).1 = (pairRule duration limit).output ws c ∧
      Counts c.time (incrementAndCheck duration limit counters c).2
        ((pairRule duration limit).step ws c) := by
  have hlive := h.liveEntry_eq hc
  cases hw : (ws c.key).filter (isOpen c.time) with
  | some w =>
    have hpositive : 0 < w.count := h.positive c.key w (Option.filter_eq_some_iff.mp hw).1
    have hopen := (Option.filter_eq_some_iff.mp hw).2
    rw [hw, Option.map_some] at hlive
    have hafter : afterRequest duration c.time (ws c.key) = { w with count := w.count + 1 } := by
      rw [afterRequest, hw]
    rw [incrementAndCheck, luaScript_of_open hpositive hlive]
    refine ⟨?_, ?_⟩
    · simp only [Keyed.output, pairRule, counted, hw]
      exact decide_eq_decide.mpr limits_iff
    · rw [Keyed.step, pairRule]
      dsimp only
      rw [hafter]
      refine h.update hc (Nat.succ_pos _) ?_ fun text htext => liveEntry_insert_of_ne htext
      have halive : Entry.aliveAt .strict c.time (⟨w.count + 1, some w.closes⟩ : Entry ℕ) = true :=
        aliveAt_of_liveEntry hlive
      have hstill : isOpen c.time ⟨w.closes, w.count + 1⟩ = true := hopen
      rw [liveEntry_insert_self halive, Option.filter_some, if_pos hstill]
      rfl
  | none =>
    rw [hw, Option.map_none] at hlive
    have hafter : afterRequest duration c.time (ws c.key) =
        ⟨c.time + durationSeconds duration * 1000, 1⟩ := by
      rw [afterRequest, hw]
    rw [incrementAndCheck, luaScript_of_none hlive]
    refine ⟨?_, ?_⟩
    · simp only [Keyed.output, pairRule, counted, hw]
      exact decide_eq_decide.mpr limits_iff
    · rw [Keyed.step, pairRule]
      dsimp only
      rw [hafter]
      refine h.update hc Nat.one_pos ?_ fun text htext => ?_
      · rw [liveEntry_expire_self, liveEntry_insert_self (by simp [Entry.aliveAt])]
        by_cases hpos : 0 < durationSeconds duration
        · have hseconds : (0 : ℤ) < durationSeconds duration * 1000 := by omega
          have htoNat : ((durationSeconds duration : ℤ) * 1000).toNat =
              durationSeconds duration * 1000 := by omega
          simp [Option.filter_some, isOpen, hpos, hseconds, htoNat]
        · have hnow : durationSeconds duration = 0 := by omega
          simp [Option.filter_some, isOpen, hnow]
      · rw [liveEntry_expire_of_ne htext, liveEntry_insert_of_ne htext]

/-- A request of a pair that shares its text is limited at its first request. -/
theorem Counts.not_follows (duration : ℕ) (h : Counts c.time counters ws) (hc : ¬Unshared ws c) :
    (incrementAndCheck duration (fun _ => 1) counters c).1 ≠
      (pairRule duration fun _ => 1).output ws c := by
  simp only [Unshared, not_forall] at hc
  obtain ⟨q, htext, hne, hopen⟩ := hc
  obtain ⟨w, hw⟩ := Option.ne_none_iff_exists'.mp hopen
  have hown : (ws c.key).filter (isOpen c.time) = none := by
    rw [Option.eq_none_iff_forall_ne_some]
    intro v hv
    exact hne (h.unique q c.key w v htext hw hv)
  have hlive := h.counter q w hw
  rw [htext] at hlive
  have hpositive : 0 < w.count := h.positive q w (Option.filter_eq_some_iff.mp hw).1
  rw [incrementAndCheck, luaScript_of_open hpositive hlive]
  simp [Keyed.output, pairRule, counted, hown, hpositive]

end Simulation

section Runs

variable {now duration : ℕ} {counters : Counters} {ws : PairWindows} {cs : List Call}

/-- The times of a run, from a time on. -/
def Advancing (now : ℕ) (cs : List Call) : Prop := (now :: cs.map Call.time).Pairwise (· ≤ ·)

theorem Advancing.head {c : Call} (h : Advancing now (c :: cs)) : now ≤ c.time := by
  simp [Advancing] at h
  exact h.1.1

theorem Advancing.tail {c : Call} (h : Advancing now (c :: cs)) : Advancing c.time cs :=
  (List.pairwise_cons.mp h).2

/-- The requests are limited by the rule, whatever the limits are, exactly if no pair ever shares
its text with one whose window is open. -/
theorem Counts.decisions_iff (h : Counts now counters ws) (htimes : Advancing now cs) :
    (∀ limit, decisions duration limit counters cs = (pairRule duration limit).shown ws cs) ↔
      Along (pairStep duration) Unshared ws cs := by
  induction cs generalizing now counters ws with
  | nil => simp [decisions, Keyed.shown, Along]
  | cons c cs ih =>
    have hnow := h.advance htimes.head
    by_cases hc : Unshared ws c
    · have hrest := ih (hnow.step duration (fun _ => 0) hc).2 htimes.tail
      simp only [Along, hc, true_and, pairStep, Option.some.injEq, forall_eq']
      rw [← hrest]
      refine forall_congr' fun limit => ?_
      rw [decisions, Keyed.shown, (hnow.step duration limit hc).1, List.cons.injEq]
      exact and_iff_right rfl
    · refine iff_of_false (fun hall => ?_) fun halong => hc halong.1
      have hhead := hall fun _ => 1
      rw [decisions, Keyed.shown, List.cons.injEq] at hhead
      exact hnow.not_follows duration hc hhead.1

theorem Counts.decisionsAt_eq (h : Counts now counters ws) (htimes : Advancing now cs)
    (limit : String → ℕ) (ip : String) (halong : Along (pairStep duration) Unshared ws cs) :
    decisionsAt duration limit ip counters cs =
      (pairRule duration limit).shownOn (fun key => key.ip = ip) ws cs := by
  induction cs generalizing now counters ws with
  | nil => rfl
  | cons c cs ih =>
    have hstep := (h.advance htimes.head).step duration limit halong.1
    have hrest := ih hstep.2 htimes.tail (halong.2 _ rfl)
    have hkey : ((pairRule duration limit).key c).ip = c.ip := rfl
    rw [decisionsAt, Keyed.shownOn, hrest, hstep.1, hkey]
    by_cases hip : c.ip = ip
    · simp [hip]
    · simp [hip]

/-- The limiter follows the rule in exactly the runs in which no pair shares its text with one
whose window is open, and in these the requests of an ip address are not affected by the others. -/
theorem redis_limiter_exact (duration : ℕ) :
    (∀ cs, Advancing 0 cs →
      ((∀ limit, decisions duration limit ∅ cs =
          (pairRule duration limit).shown (fun _ => none) cs) ↔
        Along (pairStep duration) Unshared (fun _ => none) cs)) ∧
    ∀ limit ip cs cs', Advancing 0 cs → Advancing 0 cs' →
      Along (pairStep duration) Unshared (fun _ => none) cs →
      Along (pairStep duration) Unshared (fun _ => none) cs' →
      cs.filter (·.ip = ip) = cs'.filter (·.ip = ip) →
      decisionsAt duration limit ip ∅ cs = decisionsAt duration limit ip ∅ cs' := by
  refine ⟨fun cs htimes => counts_init.decisions_iff htimes, ?_⟩
  intro limit ip cs cs' htimes htimes' halong halong' hsame
  rw [counts_init.decisionsAt_eq htimes limit ip halong,
    counts_init.decisionsAt_eq htimes' limit ip halong']
  exact Keyed.shownOn_congr hsame

/-- Two clients that call one method. -/
def twoClients : List Call := [⟨"10.0.0.1", "eth_call", 0⟩, ⟨"10.0.0.2", "eth_call", 1⟩]

theorem redis_limiter_exact_twoClients :
    decisionsAt 1000 (fun _ => 1) "10.0.0.1" ∅ twoClients =
        decisionsAt 1000 (fun _ => 1) "10.0.0.1" ∅ (twoClients.take 1) ∧
      decisions 1000 (fun _ => 1) ∅ twoClients =
        (pairRule 1000 fun _ => 1).shown (fun _ => none) twoClients := by
  have hunshared : Along (pairStep 1000) Unshared (fun _ => none) twoClients := by
    apply along_unshared_of_colons (n := 0)
    · intro p w hw
      cases hw
    · simp [twoClients]
  have hadvancing : Advancing 0 twoClients := by simp [Advancing, twoClients]
  have hfirst : Advancing 0 (twoClients.take 1) := by simp [Advancing, twoClients]
  refine ⟨(redis_limiter_exact 1000).2 _ _ _ _ hadvancing hfirst hunshared ?_ ?_,
    ((redis_limiter_exact 1000).1 _ hadvancing).mpr hunshared _⟩
  · exact ⟨hunshared.1, fun _ _ => trivial⟩
  · decide +kernel

end Runs

section Addresses

/-- The four numbers of an IPv4 address. -/
def isDottedQuad (s : List Char) : Bool :=
  let parts := s.splitOn '.'
  parts.length = 4 ∧ parts.all fun part =>
    part ≠ [] ∧ part.all Char.isDigit ∧ part.length ≤ 3 ∧ Nat.ofDigitChars 10 part 0 ≤ 255

def isHextet (s : List Char) : Bool := s ≠ [] ∧ s.length ≤ 4 ∧ s.all isHexDigit

/-- How many of the eight groups of an IPv6 address a text gives. -/
def hextets (s : List Char) : Option ℕ :=
  if s = [] then some 0
  else if (s.splitOn ':').all isHextet then some (s.splitOn ':').length
  else none

/-- The last two groups may be written as an IPv4 address. -/
def finalGroups (s : List Char) : Option ℕ :=
  let parts := s.splitOn ':'
  if parts.dropLast.all isHextet ∧ parts.getLast?.any isDottedQuad then some (parts.length + 1)
  else hextets s

/-- All groups are given, or those that are zero are left out once. -/
def isIPv6Address (s : List Char) : Bool :=
  finalGroups s = some 8 ∨ (List.range s.length).any fun i =>
    (s.drop i).take 2 = [':', ':'] ∧ (hextets (s.take i)).any fun n =>
      (finalGroups (s.drop (i + 2))).any fun m => n + m < 8

def isIpAddress (s : String) : Bool := isDottedQuad s.toList ∨ isIPv6Address s.toList

/-- The address that a client needs to use up the requests of another one. -/
def sharedText : List Call := [⟨"::1", "2:eth_call", 0⟩, ⟨"::1:2", "eth_call", 0⟩]

/-- A client is limited at its first request, after a request of another one. -/
theorem first_request_limited :
    sharedText.all (fun c => isIpAddress c.ip) ∧ Advancing 0 sharedText ∧
      decisions 1000 (fun _ => 1) ∅ sharedText = [false, true] ∧
      (pairRule 1000 fun _ => 1).shown (fun _ => none) sharedText = [false, false] ∧
      sharedText.filter (·.ip = "::1:2") = (sharedText.drop 1).filter (·.ip = "::1:2") ∧
      decisionsAt 1000 (fun _ => 1) "::1:2" ∅ sharedText = [true] ∧
      decisionsAt 1000 (fun _ => 1) "::1:2" ∅ (sharedText.drop 1) = [false] := by
  refine ⟨?_, by simp [Advancing, sharedText], ?_, ?_, ?_, ?_, ?_⟩ <;> decide +kernel

end Addresses

end RedisRateLimitStore

end JsonRpcRelay.RateLimiter
