import JsonRpcRelay.Framework.FixedWindows
import JsonRpcRelay.RateLimiter.Counters
import JsonRpcRelay.RateLimiter.Windows

/-!
# What the rate limiters guarantee

In a stretch of time as long as some windows, a client gets at most the limit of one window more
through, and it is limited only if it has used up its limit within the last window.  This holds in
every run, of the limiter in memory and of the one in Redis.  There a request whose command is
rejected is let through, and such requests come on top.
-/

namespace JsonRpcRelay.RateLimiter

open Framework Framework.Store

section Guarantees

/-- What comes of a call: it passes, it is limited, or the limiter fails. -/
inductive Verdict where
  | passed
  | limited
  | failed
  deriving DecidableEq

/-- The calls of a run and what has come of them, the latest first. -/
abbrev Answers := List (Call × Verdict)

/-- The moments at which calls of the pair have passed. -/
def passedAt (p : RateLimitKey) (answers : Answers) : List ℕ :=
  (answers.filter fun a => a.1.key = p ∧ a.2 = .passed).map fun a => a.1.time

/-- At most so many calls of the pair pass in a window. -/
def BoundsBursts (length most : ℕ) (p : RateLimitKey) (answers : Answers) : Prop :=
  ∀ start n, inSpan start (n * length) (passedAt p answers) ≤ (n + 1) * most

/-- A call of the pair is limited only if as many calls as its limit were counted in the window that
ends with it. -/
def LimitsOnlyUsed (length limit : ℕ) (counted : Call × Verdict → Bool) (p : RateLimitKey)
    (answers : Answers) : Prop :=
  ∀ c earlier, (c, .limited) :: earlier <:+ answers → c.key = p →
    limit ≤ earlier.countP fun a => counted a ∧ c.time < a.1.time + length

variable {p : RateLimitKey} {c : Call} {verdict : Verdict} {answers : Answers}

private theorem passedAt_cons_of_passed (h : c.key = p) :
    passedAt p ((c, .passed) :: answers) = c.time :: passedAt p answers := by
  simp [passedAt, h]

private theorem passedAt_cons_of_not (h : ¬(c.key = p ∧ verdict = .passed)) :
    passedAt p ((c, verdict) :: answers) = passedAt p answers := by
  rw [passedAt, List.filter_cons_of_neg (by simpa using h)]
  rfl

theorem LimitsOnlyUsed.cons {length limit : ℕ} {counted : Call × Verdict → Bool}
    (h : LimitsOnlyUsed length limit counted p answers)
    (hlast : verdict = .limited → c.key = p →
      limit ≤ answers.countP fun a => counted a ∧ c.time < a.1.time + length) :
    LimitsOnlyUsed length limit counted p ((c, verdict) :: answers) := by
  intro c' earlier hsuffix hkey
  obtain heq | hsuffix := List.suffix_cons_iff.mp hsuffix
  · obtain ⟨hhead, rfl⟩ := List.cons.inj heq
    obtain ⟨rfl, rfl⟩ := Prod.mk.inj hhead
    exact hlast rfl hkey
  · exact h c' earlier hsuffix hkey

private theorem limitsOnlyUsed_nil {length limit : ℕ} {counted : Call × Verdict → Bool} :
    LimitsOnlyUsed length limit counted p [] := by
  intro c earlier hsuffix
  cases List.suffix_nil.mp hsuffix

end Guarantees

namespace LruRateLimitStore

section Answers

variable (duration : ℕ) (limit : String → ℕ)

def verdict : Except String Bool → Verdict
  | .ok false => .passed
  | .ok true => .limited
  | .error _ => .failed

/-- A call of the store, with the answers so far. -/
def answer (st : LruRateLimitStore × Answers) (c : Call) : LruRateLimitStore × Answers :=
  ((st.1.incrementAndCheck duration limit c).2,
    (c, verdict (st.1.incrementAndCheck duration limit c).1) :: st.2)

def answers (cs : List Call) : LruRateLimitStore × Answers :=
  cs.foldl (answer duration limit) (init, [])

end Answers

end LruRateLimitStore

/-- The name is not found in what plain objects inherit, whatever is written to it. -/
def IsOrdinary (method : String) : Prop :=
  method ∉ objectPrototypeKeys ∧ method ≠ "remaining" ∧ method ≠ "total"

section Records

variable {rs : Records} {m m' : String} {r : MethodDatabase} {duration now n : ℕ}
  {limit : String → ℕ} {w : FixedWindow}

/-- The entry of an ip address when a call comes: a window that is over begins again. -/
def Records.current (rs : Records) (duration now : ℕ) : DatabaseEntry :=
  if rs.entry.reset < now then (rs.restart duration now).entry else rs.entry

private theorem checkMethodExist_of_ordinary (hm : IsOrdinary m) :
    rs.checkMethodExist m = (rs.entry.methodInfo m).isSome := by
  rw [Records.checkMethodExist, Records.methodValue]
  cases rs.entry.methodInfo m with
  | some r => rfl
  | none => simp [hm.1, hm.2.1, hm.2.2]

private theorem precheckMethod_reset : (rs.precheckMethod m n).entry.reset = rs.entry.reset := by
  rw [Records.precheckMethod]
  split <;> rfl

private theorem precheckMethod_of_ne (h : m ≠ m') :
    (rs.precheckMethod m' n).entry.methodInfo m = rs.entry.methodInfo m := by
  rw [Records.precheckMethod]
  split
  · rfl
  · exact Function.update_of_ne h _ _

private theorem precheckMethod_self (hm : IsOrdinary m) (rs : Records) (n : ℕ) :
    (rs.precheckMethod m n).entry.methodInfo m =
      some ((rs.entry.methodInfo m).getD ⟨m, n, n⟩) := by
  rw [Records.precheckMethod, checkMethodExist_of_ordinary hm]
  cases hr : rs.entry.methodInfo m with
  | some r => simpa using hr
  | none => simp [Records.setNewMethod]

/-- A call changes the record of no other method, but for the window that begins again. -/
structure LeavesOthers (m : String) (rs rs' : Records) : Prop where
  reset : rs'.entry.reset = rs.entry.reset
  record : rs'.entry.methodInfo m = rs.entry.methodInfo m

private theorem leavesOthers_assign (h : m ≠ m') {key : String}
    {onRecord : MethodDatabase → MethodDatabase} {onShared : SharedObject → SharedObject}
    {rs' : Records} (hassign : rs.assign m' key onRecord onShared = .ok rs') : LeavesOthers m rs rs' := by
  rw [Records.assign] at hassign
  split at hassign
  · obtain rfl := Except.ok.inj hassign
    exact ⟨rfl, Function.update_of_ne h _ _⟩
  · obtain rfl := Except.ok.inj hassign
    exact ⟨rfl, rfl⟩
  · cases hassign
  · cases hassign

private theorem leavesOthers_decreased (h : m ≠ m') : LeavesOthers m rs (rs.decreased m').2 := by
  rw [Records.decreased]
  split
  · exact ⟨rfl, rfl⟩
  · rename_i rs' hassign
    rw [Records.decreaseRemaining, Records.setRemaining] at hassign
    exact leavesOthers_assign h hassign

private theorem leavesOthers_reset (h : m ≠ m') :
    LeavesOthers m (rs.restart duration now) (rs.reset m' duration now n).2 := by
  rw [Records.reset]
  split
  · exact ⟨rfl, rfl⟩
  · rename_i rs₁ hremaining
    have hfirst : LeavesOthers m (rs.restart duration now) rs₁ := leavesOthers_assign h hremaining
    split
    · exact hfirst
    · rename_i rs₂ htotal
      have hsecond : LeavesOthers m rs₁ rs₂ := leavesOthers_assign h htotal
      exact ⟨hsecond.reset.trans hfirst.reset, hsecond.record.trans hfirst.record⟩

private theorem check_of_ne (h : m ≠ m') (rs : Records) (duration now n : ℕ) :
    (rs.check m' duration now n).2.entry.reset = (rs.current duration now).reset ∧
      (rs.check m' duration now n).2.entry.methodInfo m =
        (rs.current duration now).methodInfo m := by
  rw [Records.check, Records.shouldReset, Records.current]
  by_cases hover : rs.entry.reset < now
  · rw [decide_eq_true hover, if_pos hover]
    have hreset : LeavesOthers m (rs.restart duration now) (rs.reset m' duration now n).2 :=
      leavesOthers_reset h
    simp only [Bool.not_true, Bool.false_eq_true, if_false]
    split
    · rename_i heq
      rw [heq] at hreset
      exact ⟨hreset.reset, hreset.record⟩
    · rename_i rs' heq
      rw [heq] at hreset
      have hdecreased : LeavesOthers m rs' (rs'.decreased m').2 := leavesOthers_decreased h
      exact ⟨hdecreased.reset.trans hreset.reset, hdecreased.record.trans hreset.record⟩
  · rw [decide_eq_false hover, if_neg hover]
    simp only [Bool.not_false, if_true]
    split
    · have hdecreased : LeavesOthers m rs (rs.decreased m').2 := leavesOthers_decreased h
      exact ⟨hdecreased.reset, hdecreased.record⟩
    · exact ⟨rfl, rfl⟩

/-- The entry of an ip address, whose window has been used by the calls of the method that
passed. -/
structure Fits (duration : ℕ) (limit : String → ℕ) (m : String) (entry : DatabaseEntry)
    (w : FixedWindow) : Prop where
  closes : entry.reset = w.start + duration
  total : ∀ r, entry.methodInfo m = some r → r.total = limit m
  used : ∀ r, entry.methodInfo m = some r → limit m ≤ w.granted.length + r.remaining ∧
    w.granted.length + r.remaining ≤ max (limit m) 1
  unused : entry.methodInfo m = none → w.granted = []

private theorem fits_setNewIp (duration now : ℕ) (limit : String → ℕ) (m : String) :
    Fits duration limit m (LruRateLimitStore.setNewIp duration now) ⟨now, []⟩ where
  closes := rfl
  total r hr := by cases hr
  used r hr := by cases hr
  unused _ := rfl

/-- The window of a call: the one that goes on, or a new one. -/
def windowAt (now : ℕ) (entry : DatabaseEntry) (w : FixedWindow) : FixedWindow :=
  if entry.reset < now then ⟨now, []⟩ else w

variable {entry : DatabaseEntry}

theorem Fits.restart (h : Fits duration limit m rs.entry w) (now : ℕ) :
    Fits duration limit m (rs.restart duration now).entry ⟨now, []⟩ where
  closes := rfl
  total r hr := by
    obtain ⟨r', hr', rfl⟩ := Option.map_eq_some_iff.mp hr
    exact h.total r' hr'
  used r hr := by
    obtain ⟨r', hr', rfl⟩ := Option.map_eq_some_iff.mp hr
    have htotal : r'.total = limit m := h.total r' hr'
    simp [htotal]
  unused _ := rfl

theorem Fits.current (h : Fits duration limit m rs.entry w) (now : ℕ) :
    Fits duration limit m (rs.current duration now) (windowAt now rs.entry w) := by
  rw [Records.current, windowAt]
  split
  · exact h.restart now
  · exact h

theorem Fits.of_eq (h : Fits duration limit m entry w) {entry' : DatabaseEntry}
    (hreset : entry'.reset = entry.reset) (hrecord : entry'.methodInfo m = entry.methodInfo m) :
    Fits duration limit m entry' w where
  closes := hreset.trans h.closes
  total r hr := h.total r (hrecord ▸ hr)
  used r hr := h.used r (hrecord ▸ hr)
  unused hnone := h.unused (hrecord ▸ hnone)

theorem Fits.precheckMethod (h : Fits duration limit m rs.entry w) (hm : IsOrdinary m) :
    Fits duration limit m (rs.precheckMethod m (limit m)).entry w := by
  have hself := precheckMethod_self hm rs (limit m)
  cases hr : rs.entry.methodInfo m with
  | some r =>
    rw [hr, Option.getD_some, ← hr] at hself
    exact h.of_eq precheckMethod_reset hself
  | none =>
    rw [hr, Option.getD_none] at hself
    have hunused : w.granted = [] := h.unused hr
    constructor
    · exact precheckMethod_reset.trans h.closes
    · intro r hr
      rw [hself] at hr
      obtain rfl := Option.some.inj hr
      rfl
    · intro r hr
      rw [hself] at hr
      obtain rfl := Option.some.inj hr
      simp [hunused]
    · intro hnone
      rw [hself] at hnone
      cases hnone

theorem Fits.put (h : Fits duration limit m rs.entry w) {granted : List ℕ}
    (htotal : r.total = limit m) (hlow : limit m ≤ granted.length + r.remaining)
    (hhigh : granted.length + r.remaining ≤ max (limit m) 1) :
    Fits duration limit m (rs.put m r).entry ⟨w.start, granted⟩ where
  closes := h.closes
  total r' hr' := by
    rw [put_methodInfo_self] at hr'
    obtain rfl := Option.some.inj hr'
    exact htotal
  used r' hr' := by
    rw [put_methodInfo_self] at hr'
    obtain rfl := Option.some.inj hr'
    exact ⟨hlow, hhigh⟩
  unused hnone := by
    rw [put_methodInfo_self] at hnone
    cases hnone

/-- A call of the method passes if the window has room for it, and else it is limited. -/
theorem Fits.check (h : Fits duration limit m rs.entry w) (now : ℕ)
    (hr : rs.entry.methodInfo m = some r) :
    ((rs.check m duration now (limit m)).1 = .ok false ∧
      (windowAt now rs.entry w).granted.length < max (limit m) 1 ∧
      Fits duration limit m (rs.check m duration now (limit m)).2.entry
        ⟨(windowAt now rs.entry w).start, now :: (windowAt now rs.entry w).granted⟩) ∨
    ((rs.check m duration now (limit m)).1 = .ok true ∧
      limit m ≤ (windowAt now rs.entry w).granted.length ∧
      Fits duration limit m (rs.check m duration now (limit m)).2.entry
        (windowAt now rs.entry w)) := by
  obtain ⟨hlow, hhigh⟩ := h.used r hr
  have htotal : r.total = limit m := h.total r hr
  rw [windowAt]
  by_cases hover : rs.entry.reset < now
  · rw [check_of_over hr hover, if_pos hover]
    refine .inl ⟨rfl, by simp, ?_⟩
    refine (h.restart now).put rfl ?_ ?_ <;> simp <;> omega
  · rw [check_of_open hr hover, if_neg hover]
    by_cases hroom : 0 < r.remaining
    · rw [if_pos hroom]
      refine .inl ⟨rfl, by omega, h.put htotal ?_ ?_⟩ <;> simp only [List.length_cons] <;> omega
    · rw [if_neg hroom]
      exact .inr ⟨rfl, by omega, h⟩

/-- Any call from the ip address: only the method itself uses up the window. -/
theorem Fits.call (h : Fits duration limit m rs.entry w) (hm : IsOrdinary m) (m' : String)
    (now : ℕ) :
    let checked := (rs.precheckMethod m' (limit m')).check m' duration now (limit m')
    let window := windowAt now rs.entry w
    (m' = m ∧ checked.1 = .ok false ∧ window.granted.length < max (limit m) 1 ∧
      Fits duration limit m checked.2.entry ⟨window.start, now :: window.granted⟩) ∨
    (¬(m' = m ∧ checked.1 = .ok false) ∧
      (m' = m → checked.1 = .ok true → limit m ≤ window.granted.length) ∧
      Fits duration limit m checked.2.entry window) := by
  intro checked window
  have hwindow : window = windowAt now (rs.precheckMethod m' (limit m')).entry w := by
    simp only [window, windowAt, precheckMethod_reset]
  by_cases hmethod : m' = m
  · subst hmethod
    obtain ⟨houtcome, hroom, hfits⟩ | ⟨houtcome, hfull, hfits⟩ :=
      (h.precheckMethod hm).check now (precheckMethod_self hm rs (limit m'))
    · rw [← hwindow] at hroom hfits
      exact .inl ⟨rfl, houtcome, hroom, hfits⟩
    · rw [← hwindow] at hfull hfits
      refine .inr ⟨?_, fun _ _ => hfull, hfits⟩
      rintro ⟨_, hpassed⟩
      cases houtcome.symm.trans hpassed
  · have hfits : Fits duration limit m (rs.precheckMethod m' (limit m')).entry w :=
      h.of_eq precheckMethod_reset (precheckMethod_of_ne (Ne.symm hmethod))
    obtain ⟨hreset, hrecord⟩ := check_of_ne (Ne.symm hmethod)
      (rs.precheckMethod m' (limit m')) duration now (limit m')
    refine .inr ⟨fun hself => hmethod hself.1, fun hself => absurd hself hmethod, ?_⟩
    rw [hwindow]
    exact (hfits.current now).of_eq hreset hrecord

end Records

namespace LruRateLimitStore

section Runs

variable {duration now : ℕ} {limit : String → ℕ} {p : RateLimitKey} {st : LruRateLimitStore}
  {answers : Answers} {ws : List FixedWindow} {c : Call}

def isPassed (p : RateLimitKey) (a : Call × Verdict) : Bool := a.1.key = p ∧ a.2 = .passed

/-- The calls of the pair that have passed, in the windows of its ip address. -/
structure Tracks (duration : ℕ) (limit : String → ℕ) (p : RateLimitKey) (now : ℕ)
    (st : LruRateLimitStore) (answers : Answers) (ws : List FixedWindow) : Prop where
  windowed : Windowed (duration + 1) (max (limit p.method) 1) ws
  passed : grants ws = passedAt p answers
  absent : st.database p.ip = none → ws = []
  fits : ∀ entry, st.database p.ip = some entry → ∃ w rest, ws = w :: rest ∧
    Fits duration limit p.method entry w ∧ w.start ≤ now
  limits : LimitsOnlyUsed (duration + 1) (limit p.method) (isPassed p) p answers

theorem tracks_init : Tracks duration limit p 0 init [] [] where
  windowed := windowed_nil
  passed := rfl
  absent _ := rfl
  fits entry hentry := by cases hentry
  limits := limitsOnlyUsed_nil

private theorem Tracks.begun (h : Tracks duration limit p now st answers ws) (hnow : now ≤ c.time)
    (hip : c.ip = p.ip) : ∃ w rest, Windowed (duration + 1) (max (limit p.method) 1) (w :: rest) ∧
      grants (w :: rest) = passedAt p answers ∧ w.start ≤ c.time ∧
      Fits duration limit p.method (recordsOf duration st c).entry w := by
  rw [recordsOf, hip]
  cases hentry : st.database p.ip with
  | none =>
    have hwindowed := h.windowed
    have hpassed := h.passed
    obtain rfl := h.absent hentry
    exact ⟨⟨c.time, []⟩, [], hwindowed.open (by simp), hpassed, le_rfl,
      fits_setNewIp duration c.time limit p.method⟩
  | some entry =>
    obtain ⟨w, rest, rfl, hfits, hstart⟩ := h.fits entry hentry
    exact ⟨w, rest, h.windowed, h.passed, hstart.trans hnow, hfits⟩

/-- The window in which a call falls. -/
theorem Tracks.window (h : Tracks duration limit p now st answers ws) (hnow : now ≤ c.time)
    (hip : c.ip = p.ip) : ∃ w rest,
      Windowed (duration + 1) (max (limit p.method) 1)
        (windowAt c.time (recordsOf duration st c).entry w :: rest) ∧
      grants (windowAt c.time (recordsOf duration st c).entry w :: rest) = passedAt p answers ∧
      (windowAt c.time (recordsOf duration st c).entry w).start ≤ c.time ∧
      c.time < (windowAt c.time (recordsOf duration st c).entry w).start + (duration + 1) ∧
      Fits duration limit p.method (recordsOf duration st c).entry w := by
  obtain ⟨w, rest, hwindowed, hpassed, hstart, hfits⟩ := h.begun hnow hip
  have hcloses := hfits.closes
  by_cases hover : (recordsOf duration st c).entry.reset < c.time
  · refine ⟨w, w :: rest, ?_⟩
    rw [windowAt, if_pos hover]
    refine ⟨hwindowed.open ?_, hpassed, le_rfl, Nat.lt_add_of_pos_right (Nat.succ_pos _), hfits⟩
    intro v hv
    obtain rfl := Option.some.inj hv
    omega
  · refine ⟨w, rest, ?_⟩
    rw [windowAt, if_neg hover]
    exact ⟨hwindowed, hpassed, hstart, by omega, hfits⟩

private theorem granted_le_countP {length : ℕ} {w : FixedWindow} {rest : List FixedWindow}
    (hstart : ∀ t ∈ w.granted, w.start ≤ t) (hpassed : grants (w :: rest) = passedAt p answers)
    (hend : c.time < w.start + length) :
    w.granted.length ≤ answers.countP fun a => isPassed p a ∧ c.time < a.1.time + length := by
  have hall : w.granted.countP (fun t => c.time < t + length) = w.granted.length := by
    rw [List.countP_eq_length]
    intro t ht
    have hstart := hstart t ht
    simp only [decide_eq_true_eq]
    omega
  have hcount : (passedAt p answers).countP (fun t => c.time < t + length) =
      answers.countP fun a => isPassed p a ∧ c.time < a.1.time + length := by
    rw [passedAt, List.countP_map, List.countP_filter]
    refine List.countP_congr fun a _ => ?_
    simp [isPassed, and_comm]
  rw [← hcount, ← hpassed, grants, List.flatMap_cons, List.countP_append, hall]
  exact Nat.le_add_right _ _

/-- A call that does not pass, with the pair's records in the window of the call. -/
theorem Tracks.of_entry {ws' : List FixedWindow} {w : FixedWindow} {rest : List FixedWindow}
    {entry : DatabaseEntry} (hentry : st.database p.ip = some entry) (hws : ws' = w :: rest)
    (hfits : Fits duration limit p.method entry w) (hstart : w.start ≤ now)
    (hwindowed : Windowed (duration + 1) (max (limit p.method) 1) ws')
    (hpassed : grants ws' = passedAt p answers)
    (hlimits : LimitsOnlyUsed (duration + 1) (limit p.method) (isPassed p) p answers) :
    Tracks duration limit p now st answers ws' where
  windowed := hwindowed
  passed := hpassed
  absent hnone := by
    rw [hentry] at hnone
    cases hnone
  fits entry' hentry' := by
    rw [hentry] at hentry'
    obtain rfl := Option.some.inj hentry'
    exact ⟨w, rest, hws, hfits, hstart⟩
  limits := hlimits

private theorem verdict_eq_passed {r : Except String Bool} :
    verdict r = .passed ↔ r = .ok false := by
  rcases r with _ | _ | _ <;> simp [verdict]

private theorem verdict_eq_limited {r : Except String Bool} :
    verdict r = .limited ↔ r = .ok true := by
  rcases r with _ | _ | _ <;> simp [verdict]

theorem Tracks.step_self (h : Tracks duration limit p now st answers ws)
    (hp : IsOrdinary p.method) (hnow : now ≤ c.time) (hip : c.ip = p.ip) :
    ∃ ws', Tracks duration limit p c.time (st.incrementAndCheck duration limit c).2
      ((c, verdict (st.incrementAndCheck duration limit c).1) :: answers) ws' := by
  obtain ⟨w, rest, hwindowed, hpassed, hstart, hend, hfits⟩ := h.window hnow hip
  have hcall := hfits.call hp c.method c.time
  have hentry : (st.incrementAndCheck duration limit c).2.database p.ip =
      some (((recordsOf duration st c).precheckMethod c.method (limit c.method)).check c.method
        duration c.time (limit c.method)).2.entry := by
    rw [← hip]
    exact Function.update_self _ _ _
  have houtcome : (st.incrementAndCheck duration limit c).1 =
      (((recordsOf duration st c).precheckMethod c.method (limit c.method)).check c.method
        duration c.time (limit c.method)).1 := rfl
  rw [houtcome]
  generalize (((recordsOf duration st c).precheckMethod c.method (limit c.method)).check c.method
    duration c.time (limit c.method)) = checked at hcall hentry
  generalize windowAt c.time (recordsOf duration st c).entry w = window at *
  obtain ⟨hmethod, hpass, hroom, hfits⟩ | ⟨hnot, hfull, hfits⟩ := hcall
  · have hkey : c.key = p := by
      cases p
      rw [Call.key, hip, hmethod]
    have hverdict := verdict_eq_passed.mpr hpass
    refine ⟨_, .of_entry hentry rfl hfits hstart (hwindowed.grant hstart hend hroom) ?_ ?_⟩
    · rw [hverdict, passedAt_cons_of_passed hkey, ← hpassed]
      rfl
    · refine h.limits.cons fun hlimited => ?_
      cases hverdict.symm.trans hlimited
  · refine ⟨_, .of_entry hentry rfl hfits hstart hwindowed ?_ ?_⟩
    · rw [hpassed, passedAt_cons_of_not]
      rintro ⟨rfl, hpass⟩
      exact hnot ⟨rfl, verdict_eq_passed.mp hpass⟩
    · refine h.limits.cons fun hlimited hkey => ?_
      have hfull := hfull (by rw [← hkey]; rfl) (verdict_eq_limited.mp hlimited)
      refine hfull.trans (granted_le_countP (fun t ht => ?_) hpassed hend)
      exact (hwindowed.within window List.mem_cons_self t ht).1

private theorem Tracks.step_other (h : Tracks duration limit p now st answers ws)
    (hnow : now ≤ c.time)
    (hip : c.ip ≠ p.ip) : Tracks duration limit p c.time (st.incrementAndCheck duration limit c).2
      ((c, verdict (st.incrementAndCheck duration limit c).1) :: answers) ws := by
  have hentry : (st.incrementAndCheck duration limit c).2.database p.ip = st.database p.ip :=
    Function.update_of_ne (Ne.symm hip) _ _
  have hkey : c.key ≠ p := by
    rintro rfl
    exact hip rfl
  constructor
  · exact h.windowed
  · rw [h.passed, passedAt_cons_of_not fun hself => hkey hself.1]
  · intro hnone
    exact h.absent (hentry.symm.trans hnone)
  · intro entry hsome
    obtain ⟨w, rest, hws, hfits, hstart⟩ := h.fits entry (hentry.symm.trans hsome)
    exact ⟨w, rest, hws, hfits, hstart.trans hnow⟩
  · exact h.limits.cons fun _ hself => absurd hself hkey

/-- The run lemma: the windows go on being tracked. -/
theorem Tracks.run (h : Tracks duration limit p now st answers ws) (hp : IsOrdinary p.method)
    {cs : List Call} (htimes : RedisRateLimitStore.Advancing now cs) :
    ∃ later ws', Tracks duration limit p later (cs.foldl (answer duration limit) (st, answers)).1
      (cs.foldl (answer duration limit) (st, answers)).2 ws' := by
  induction cs generalizing now st answers ws with
  | nil => exact ⟨now, ws, h⟩
  | cons c cs ih =>
    rw [List.foldl_cons]
    by_cases hip : c.ip = p.ip
    · obtain ⟨ws', hstep⟩ := h.step_self hp htimes.head hip
      exact ih hstep htimes.tail
    · exact ih (h.step_other htimes.head hip) htimes.tail

private theorem guarantees (hp : IsOrdinary p.method) {cs : List Call}
    (htimes : RedisRateLimitStore.Advancing 0 cs) :
    BoundsBursts (duration + 1) (max (limit p.method) 1) p
        (LruRateLimitStore.answers duration limit cs).2 ∧
      LimitsOnlyUsed (duration + 1) (limit p.method) (isPassed p) p
        (LruRateLimitStore.answers duration limit cs).2 := by
  obtain ⟨_, ws, htracks⟩ :=
    (tracks_init : Tracks duration limit p 0 init [] []).run hp htimes
  refine ⟨fun start n => ?_, htracks.limits⟩
  rw [LruRateLimitStore.answers, ← htracks.passed]
  exact htracks.windowed.inSpan_le start n

end Runs

end LruRateLimitStore

namespace RedisRateLimitStore

section Attempts

variable (duration : ℕ) (limit : String → ℕ)

/-- What comes of the command that executes the script.  A command that is rejected may have been
executed. -/
inductive Reply where
  | answered
  | rejected (executed : Bool)
  deriving DecidableEq

structure Attempt where
  call : Call
  reply : Reply
  deriving DecidableEq

/-- Whether a request is limited.  If the command is rejected, it is not. -/
def attempt (counters : Counters) (a : Attempt) : Bool × Counters :=
  match a.reply with
  | .answered => incrementAndCheck duration limit counters a.call
  | .rejected executed =>
    (false, if executed then (incrementAndCheck duration limit counters a.call).2 else counters)

/-- The requests of a run and whether they were limited, the latest first. -/
abbrev Results := List (Attempt × Bool)

def answer (st : Counters × Results) (a : Attempt) : Counters × Results :=
  ((attempt duration limit st.1 a).2, (a, (attempt duration limit st.1 a).1) :: st.2)

def answers (as : List Attempt) : Counters × Results :=
  as.foldl (answer duration limit) (∅, [])

/-- What the counter said of a request. -/
def verdict : Attempt × Bool → Verdict
  | (⟨_, .answered⟩, limited) => if limited then .limited else .passed
  | (⟨_, .rejected _⟩, _) => .failed

def verdicts (results : Results) : Answers := results.map fun r => (r.1.call, verdict r)

/-- The moments at which requests of the pair were let through. -/
def letThroughAt (p : RateLimitKey) (results : Results) : List ℕ :=
  (results.filter fun r => r.1.call.key = p ∧ r.2 = false).map fun r => r.1.call.time

/-- The moments of the requests of the pair whose commands were rejected. -/
def rejectedAt (p : RateLimitKey) (results : Results) : List ℕ :=
  (results.filter fun r => r.1.call.key = p ∧ r.1.reply ≠ .answered).map fun r => r.1.call.time

/-- At most so many requests of the pair are let through in a window, and those whose commands are
rejected. -/
def BoundsLetThrough (length most : ℕ) (p : RateLimitKey) (results : Results) : Prop :=
  ∀ start n, inSpan start (n * length) (letThroughAt p results) ≤
    (n + 1) * most + inSpan start (n * length) (rejectedAt p results)

end Attempts

section Tracking

variable {duration now later : ℕ} {limit : String → ℕ} {p : RateLimitKey} {counters : Counters}
  {answers : Answers} {ws : List FixedWindow} {c : Call}

def windowLength (duration : ℕ) : ℕ := durationSeconds duration * 1000

/-- The calls that are counted together, which have the same text. -/
def isCounted (p : RateLimitKey) (a : Call × Verdict) : Bool := a.1.key.toString = p.toString

def countedSince (p : RateLimitKey) (start : ℕ) (answers : Answers) : ℕ :=
  answers.countP fun a => isCounted p a ∧ start ≤ a.1.time

/-- The windows of the counter of a pair's text, in which the calls of the pair lie that have
passed. -/
structure Tracks (duration : ℕ) (limit : String → ℕ) (p : RateLimitKey) (now : ℕ)
    (counters : Counters) (answers : Answers) (ws : List FixedWindow) : Prop where
  windowed : Windowed (windowLength duration) (limit p.method) ws
  passed : 0 < windowLength duration → grants ws = passedAt p answers
  counter : ∀ e, counters.liveEntry .strict now p.toString = some e → ∃ w rest, ws = w :: rest ∧
    e.deadline = some (w.start + windowLength duration) ∧ w.start ≤ now ∧ 0 < e.value ∧
      w.granted.length ≤ e.value ∧ e.value ≤ countedSince p w.start answers
  expired : counters.liveEntry .strict now p.toString = none →
    ∀ w ∈ ws.head?, w.start + windowLength duration ≤ now
  limits : LimitsOnlyUsed (windowLength duration) (limit p.method) (isCounted p) p answers

theorem tracks_init : Tracks duration limit p 0 ∅ [] [] where
  windowed := windowed_nil
  passed _ := rfl
  counter e he := by cases he
  expired _ w hw := by cases hw
  limits := limitsOnlyUsed_nil

theorem Tracks.advance (h : Tracks duration limit p now counters answers ws)
    (hle : now ≤ later) : Tracks duration limit p later counters answers ws where
  windowed := h.windowed
  passed := h.passed
  counter e he := by
    rw [liveEntry_later hle, Option.filter_eq_some_iff] at he
    obtain ⟨w, rest, hws, hdeadline, hstart, hvalue⟩ := h.counter e he.1
    exact ⟨w, rest, hws, hdeadline, hstart.trans hle, hvalue⟩
  expired hnone w hw := by
    cases he : counters.liveEntry .strict now p.toString with
    | none => exact (h.expired he w hw).trans hle
    | some e =>
      obtain ⟨v, rest, rfl, hdeadline, _⟩ := h.counter e he
      obtain rfl := Option.some.inj hw
      rw [liveEntry_later hle, he, Option.filter_some] at hnone
      simpa [Entry.aliveAt, hdeadline, Expiry.strict] using hnone
  limits := h.limits

private theorem countedSince_cons_le (p : RateLimitKey) (start : ℕ) (a : Call × Verdict)
    (answers : Answers) : countedSince p start answers ≤ countedSince p start (a :: answers) := by
  rw [countedSince, countedSince, List.countP_cons]
  exact Nat.le_add_right _ _

private theorem countedSince_cons_of_counted {a : Call × Verdict} {start : ℕ}
    (hcounted : isCounted p a = true) (hstart : start ≤ a.1.time) :
    countedSince p start (a :: answers) = countedSince p start answers + 1 := by
  rw [countedSince, List.countP_cons_of_pos (by simp [hcounted, hstart])]
  rfl

private theorem countedSince_le {start length : ℕ} (hend : c.time < start + length) :
    countedSince p start answers ≤
      answers.countP fun a => isCounted p a ∧ c.time < a.1.time + length := by
  refine List.countP_mono_left fun a _ ha => ?_
  simp only [decide_eq_true_eq] at ha ⊢
  exact ⟨ha.1, by omega⟩

private theorem liveEntry_luaScript_of_ne {text key : String} {n seconds : ℕ} (h : text ≠ key) :
    (luaScript now counters key n seconds).2.liveEntry .strict now text =
      counters.liveEntry .strict now text := by
  have hincr : (incr now counters key).2.liveEntry .strict now text =
      counters.liveEntry .strict now text := by
    rw [incr]
    split <;> exact liveEntry_insert_of_ne h
  rw [luaScript]
  dsimp only
  split
  · rw [liveEntry_expire_of_ne h, hincr]
  · exact hincr

/-- The window of a request that is counted with the pair's, after `n` others. -/
structure CountsIn (duration : ℕ) (limit : String → ℕ) (p : RateLimitKey) (answers : Answers)
    (c : Call) (n : ℕ) (w : FixedWindow) (rest : List FixedWindow) : Prop where
  windowed : Windowed (windowLength duration) (limit p.method) (w :: rest)
  passed : 0 < windowLength duration → grants (w :: rest) = passedAt p answers
  started : w.start ≤ c.time
  ends : 0 < windowLength duration → c.time < w.start + windowLength duration
  granted : w.granted.length ≤ n
  counted : n ≤ countedSince p w.start answers
  recent : n ≤ answers.countP fun a => isCounted p a ∧ c.time < a.1.time + windowLength duration

/-- The counter after a request: an entry that expires at the end of its window, unless windows are
empty. -/
def counterAfter (duration n : ℕ) (w : FixedWindow) : Option (Entry ℕ) :=
  if 0 < windowLength duration then some ⟨n + 1, some (w.start + windowLength duration)⟩ else none

theorem Tracks.window (h : Tracks duration limit p c.time counters answers ws)
    (htext : c.key.toString = p.toString) : ∃ n w rest,
      CountsIn duration limit p answers c n w rest ∧
      (incrementAndCheck duration limit counters c).1 = decide (limit c.method < n + 1) ∧
      (incrementAndCheck duration limit counters c).2.liveEntry .strict c.time p.toString =
        counterAfter duration n w := by
  rw [incrementAndCheck, htext]
  cases he : counters.liveEntry .strict c.time p.toString with
  | some e =>
    obtain ⟨w, rest, rfl, hdeadline, hstart, hpos, hgranted, hcounted⟩ := h.counter e he
    have halive : c.time < w.start + windowLength duration := by
      have halive := aliveAt_of_liveEntry he
      simpa [Entry.aliveAt, hdeadline, Expiry.strict] using halive
    have hlength : 0 < windowLength duration := by omega
    have hentry : counters.liveEntry .strict c.time p.toString =
        some ⟨e.value, some (w.start + windowLength duration)⟩ := by
      rw [he, ← hdeadline]
    have hcounts : CountsIn duration limit p answers c e.value w rest :=
      ⟨h.windowed, h.passed, hstart, fun _ => halive, hgranted, hcounted,
        hcounted.trans (countedSince_le halive)⟩
    rw [luaScript_of_open hpos hentry]
    refine ⟨e.value, w, rest, hcounts, by simp, ?_⟩
    rw [counterAfter, if_pos hlength]
    exact liveEntry_insert_self (by simpa [Entry.aliveAt, Expiry.strict] using halive)
  | none =>
    have hcounts : CountsIn duration limit p answers c 0 ⟨c.time, []⟩ ws :=
      ⟨h.windowed.open (h.expired he), h.passed, le_rfl, Nat.lt_add_of_pos_right, le_rfl,
        Nat.zero_le _, Nat.zero_le _⟩
    rw [luaScript_of_none he]
    refine ⟨0, ⟨c.time, []⟩, ws, hcounts, by simp, ?_⟩
    rw [liveEntry_expire_self, liveEntry_insert_self (by simp [Entry.aliveAt]), counterAfter]
    have hpos : (0 : ℤ) < durationSeconds duration * 1000 ↔ 0 < windowLength duration := by
      rw [windowLength]
      omega
    have hmul : ((durationSeconds duration : ℤ) * 1000).toNat = windowLength duration := by
      rw [windowLength]
      omega
    simp [hpos, hmul]

private theorem CountsIn.tracks {n : ℕ} {w : FixedWindow} {rest : List FixedWindow}
    (h : CountsIn duration limit p answers c n w rest) (granted : List ℕ) {verdict : Verdict}
    (hwindowed : Windowed (windowLength duration) (limit p.method) (⟨w.start, granted⟩ :: rest))
    (hpassed : 0 < windowLength duration →
      grants (⟨w.start, granted⟩ :: rest) = passedAt p ((c, verdict) :: answers))
    (hgranted : granted.length ≤ n + 1) (htext : c.key.toString = p.toString)
    (hentry : counters.liveEntry .strict c.time p.toString = counterAfter duration n w)
    (hlimits : LimitsOnlyUsed (windowLength duration) (limit p.method) (isCounted p) p
      ((c, verdict) :: answers)) :
    Tracks duration limit p c.time counters ((c, verdict) :: answers)
      (⟨w.start, granted⟩ :: rest) where
  windowed := hwindowed
  passed := hpassed
  counter e he := by
    rw [hentry, counterAfter] at he
    split at he
    · obtain rfl := Option.some.inj he
      have hself : isCounted p (c, verdict) = true := decide_eq_true htext
      have hcounted : n + 1 ≤ countedSince p w.start ((c, verdict) :: answers) := by
        rw [countedSince_cons_of_counted hself h.started]
        exact Nat.succ_le_succ h.counted
      exact ⟨_, rest, rfl, rfl, h.started, Nat.succ_pos n, hgranted, hcounted⟩
    · cases he
  expired hnone v hv := by
    obtain rfl := Option.some.inj hv
    rw [hentry, counterAfter] at hnone
    split at hnone
    · cases hnone
    · rename_i hlength
      have hstarted := h.started
      show w.start + windowLength duration ≤ c.time
      omega
  limits := hlimits

/-- A request that is counted with the pair's, whatever comes of the command. -/
theorem Tracks.step_counted (h : Tracks duration limit p c.time counters answers ws)
    (htext : c.key.toString = p.toString) {verdict : Verdict}
    (hverdict : verdict = .failed ∨ verdict =
      if (incrementAndCheck duration limit counters c).1 then .limited else .passed) :
    ∃ ws', Tracks duration limit p c.time (incrementAndCheck duration limit counters c).2
      ((c, verdict) :: answers) ws' := by
  obtain ⟨n, w, rest, hcounts, hlimited, hentry⟩ := h.window htext
  rw [hlimited] at hverdict
  have hlimits : LimitsOnlyUsed (windowLength duration) (limit p.method) (isCounted p) p
      ((c, verdict) :: answers) := by
    refine h.limits.cons fun hlast hkey => ?_
    have hmethod : c.method = p.method := by rw [← hkey]; rfl
    subst hlast
    rw [hmethod] at hverdict
    have hfull : limit p.method < n + 1 := by
      by_contra hroom
      simp [hroom] at hverdict
    exact (Nat.le_of_lt_succ hfull).trans hcounts.recent
  by_cases hpass : c.key = p ∧ verdict = .passed ∧ 0 < windowLength duration
  · obtain ⟨hkey, rfl, hlength⟩ := hpass
    have hmethod : c.method = p.method := by rw [← hkey]; rfl
    have hroom : n < limit p.method := by
      rw [hmethod] at hverdict
      by_contra hfull
      have hfull : limit p.method < n + 1 := by omega
      simp [hfull] at hverdict
    have hgranted := hcounts.granted
    refine ⟨_, hcounts.tracks (c.time :: w.granted) ?_ ?_ ?_ htext hentry hlimits⟩
    · exact hcounts.windowed.grant hcounts.started (hcounts.ends hlength) (by omega)
    · intro _
      rw [passedAt_cons_of_passed hkey, ← hcounts.passed hlength]
      rfl
    · exact Nat.succ_le_succ hgranted
  · refine ⟨_, hcounts.tracks w.granted hcounts.windowed ?_ ?_ htext hentry hlimits⟩
    · intro hlength
      rw [passedAt_cons_of_not fun hself => hpass ⟨hself.1, hself.2, hlength⟩]
      exact hcounts.passed hlength
    · exact hcounts.granted.trans (Nat.le_succ n)

/-- A request that leaves the counter of the pair's text alone. -/
theorem Tracks.step_uncounted (h : Tracks duration limit p c.time counters answers ws)
    {counters' : Counters} {verdict : Verdict}
    (hentry : counters'.liveEntry .strict c.time p.toString =
      counters.liveEntry .strict c.time p.toString)
    (hverdict : c.key = p → verdict = .failed) :
    Tracks duration limit p c.time counters' ((c, verdict) :: answers) ws where
  windowed := h.windowed
  passed hlength := by
    rw [h.passed hlength, passedAt_cons_of_not]
    rintro ⟨hkey, hpass⟩
    cases (hverdict hkey).symm.trans hpass
  counter e he := by
    obtain ⟨w, rest, hws, hdeadline, hstart, hpos, hgranted, hcounted⟩ := h.counter e (hentry ▸ he)
    exact ⟨w, rest, hws, hdeadline, hstart, hpos, hgranted,
      hcounted.trans (countedSince_cons_le p w.start _ answers)⟩
  expired hnone := h.expired (hentry.symm.trans hnone)
  limits := by
    refine h.limits.cons fun hlimited hkey => ?_
    cases (hverdict hkey).symm.trans hlimited

theorem Tracks.step {results : Results}
    (h : Tracks duration limit p now counters (verdicts results) ws) {a : Attempt}
    (hnow : now ≤ a.call.time) : ∃ ws', Tracks duration limit p a.call.time
      (attempt duration limit counters a).2
        (verdicts ((a, (attempt duration limit counters a).1) :: results)) ws' := by
  have h := h.advance hnow
  obtain ⟨c, reply⟩ := a
  by_cases htext : c.key.toString = p.toString
  · cases reply with
    | answered => exact h.step_counted htext (.inr rfl)
    | rejected executed =>
      cases executed with
      | true => exact h.step_counted htext (.inl rfl)
      | false => exact ⟨ws, h.step_uncounted rfl fun _ => rfl⟩
  · have hkey : c.key ≠ p := fun hkey => htext (by rw [hkey])
    refine ⟨ws, h.step_uncounted ?_ fun hself => absurd hself hkey⟩
    have hother : (incrementAndCheck duration limit counters c).2.liveEntry .strict c.time
        p.toString = counters.liveEntry .strict c.time p.toString :=
      liveEntry_luaScript_of_ne (n := limit c.method) (Ne.symm htext)
    cases reply with
    | answered => exact hother
    | rejected executed =>
      cases executed with
      | true => exact hother
      | false => rfl

/-- The run lemma: the windows go on being tracked. -/
theorem Tracks.run {results : Results}
    (h : Tracks duration limit p now counters (verdicts results) ws) {as : List Attempt}
    (htimes : Advancing now (as.map Attempt.call)) : ∃ later ws', Tracks duration limit p later
      (as.foldl (answer duration limit) (counters, results)).1
        (verdicts (as.foldl (answer duration limit) (counters, results)).2) ws' := by
  induction as generalizing now counters results ws with
  | nil => exact ⟨now, ws, h⟩
  | cons a as ih =>
    obtain ⟨ws', hstep⟩ := h.step htimes.head
    exact ih hstep htimes.tail

private theorem inSpan_letThroughAt_le (start length : ℕ) (p : RateLimitKey) (results : Results) :
    inSpan start length (letThroughAt p results) ≤
      inSpan start length (passedAt p (verdicts results)) +
        inSpan start length (rejectedAt p results) := by
  simp only [inSpan, letThroughAt, passedAt, rejectedAt, verdicts, List.countP_map,
    List.countP_filter]
  refine countP_le_add fun r _ hr => ?_
  obtain ⟨⟨c, reply⟩, limited⟩ := r
  simp only [Function.comp_apply, Bool.and_eq_true, decide_eq_true_eq] at hr ⊢
  obtain ⟨hspan, hkey, hlimited⟩ := hr
  cases reply with
  | answered => exact .inl ⟨hspan, hkey, by rw [hlimited]; rfl⟩
  | rejected executed =>
    refine .inr ⟨hspan, hkey, ?_⟩
    intro hanswered
    cases hanswered

private theorem guarantees {as : List Attempt} (htimes : Advancing 0 (as.map Attempt.call)) :
    BoundsLetThrough (windowLength duration) (limit p.method) p
        (RedisRateLimitStore.answers duration limit as).2 ∧
      LimitsOnlyUsed (windowLength duration) (limit p.method) (isCounted p) p
        (verdicts (RedisRateLimitStore.answers duration limit as).2) := by
  have hinit : Tracks duration limit p 0 ∅ (verdicts []) [] := tracks_init
  obtain ⟨_, ws, htracks⟩ := hinit.run htimes
  refine ⟨fun start n => ?_, htracks.limits⟩
  refine (inSpan_letThroughAt_le _ _ _ _).trans (Nat.add_le_add_right ?_ _)
  obtain hzero | hlength := Nat.eq_zero_or_pos (windowLength duration)
  · have hempty : inSpan start (n * windowLength duration)
        (passedAt p (verdicts (RedisRateLimitStore.answers duration limit as).2)) = 0 := by
      rw [inSpan, List.countP_eq_zero]
      intro t _
      rw [hzero]
      simp
    rw [hempty]
    exact Nat.zero_le _
  · rw [RedisRateLimitStore.answers, ← htracks.passed hlength]
    exact htracks.windowed.inSpan_le start n

private theorem not_limited_of_rejected {st : Counters × Results} {as : List Attempt}
    (hst : ∀ r ∈ st.2, r.1.reply ≠ .answered → r.2 = false) :
    ∀ r ∈ (as.foldl (answer duration limit) st).2, r.1.reply ≠ .answered → r.2 = false := by
  induction as generalizing st with
  | nil => exact hst
  | cons a as ih =>
    refine ih fun r hr hreply => ?_
    rcases List.mem_cons.mp hr with rfl | hr
    · obtain ⟨c, reply⟩ := a
      cases reply with
      | answered => exact absurd rfl hreply
      | rejected executed => rfl
    · exact hst r hr hreply

end Tracking

end RedisRateLimitStore

section Both

open LruRateLimitStore RedisRateLimitStore

/-- In every run of either limiter, as many calls of a pair pass in a stretch of time as the limit
allows in its windows and one more, and a call of the pair is limited only if, within the window
that ends with it, as many calls as the limit have passed (in memory, for a method by no inherited
name) or have been made under the same text (in Redis).  A request whose command Redis rejects is
let through, and comes on top of those. -/
theorem rate_limiters_hold (duration : ℕ) (limit : String → ℕ) (p : RateLimitKey) :
    (∀ cs, IsOrdinary p.method → Advancing 0 cs →
      BoundsBursts (duration + 1) (max (limit p.method) 1) p
          (LruRateLimitStore.answers duration limit cs).2 ∧
        LimitsOnlyUsed (duration + 1) (limit p.method) (isPassed p) p
          (LruRateLimitStore.answers duration limit cs).2) ∧
    ∀ as, Advancing 0 (as.map Attempt.call) →
      BoundsLetThrough (windowLength duration) (limit p.method) p
          (RedisRateLimitStore.answers duration limit as).2 ∧
        LimitsOnlyUsed (windowLength duration) (limit p.method) (isCounted p) p
          (verdicts (RedisRateLimitStore.answers duration limit as).2) ∧
        ∀ r ∈ (RedisRateLimitStore.answers duration limit as).2, r.1.reply ≠ .answered →
          r.2 = false :=
  ⟨fun _ hp htimes => LruRateLimitStore.guarantees hp htimes, fun _ htimes =>
    ⟨(RedisRateLimitStore.guarantees htimes).1, (RedisRateLimitStore.guarantees htimes).2,
      not_limited_of_rejected nofun⟩⟩

/-- Four calls within a second, with a limit of one.  The first command of two is rejected. -/
theorem rate_limiters_hold_fourCalls :
    let cs : List Call := [⟨"::1", "eth_call", 5⟩, ⟨"::1", "eth_call", 9⟩, ⟨"::1", "eth_call", 12⟩,
      ⟨"::1", "eth_call", 20⟩]
    let as : List Attempt := cs.map fun c => ⟨c, if c.time < 10 then .rejected true else .answered⟩
    inSpan 0 1001 (passedAt ⟨"::1", "eth_call"⟩
        (LruRateLimitStore.answers 1000 (fun _ => 1) cs).2) ≤ 2 ∧
      inSpan 0 1000 (letThroughAt ⟨"::1", "eth_call"⟩
        (RedisRateLimitStore.answers 1000 (fun _ => 1) as).2) ≤ 4 := by
  intro cs as
  obtain ⟨hmemory, hredis⟩ := rate_limiters_hold 1000 (fun _ => 1) ⟨"::1", "eth_call"⟩
  have hordinary : IsOrdinary "eth_call" := by simp [IsOrdinary, objectPrototypeKeys]
  have htimes : Advancing 0 cs := by simp [Advancing, cs]
  exact ⟨(hmemory cs hordinary htimes).1 0 1, (hredis as htimes).1 0 1⟩

end Both

end JsonRpcRelay.RateLimiter
