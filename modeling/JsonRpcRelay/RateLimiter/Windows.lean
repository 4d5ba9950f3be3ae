import JsonRpcRelay.Framework.Keyed
import JsonRpcRelay.RateLimiter.LruRateLimitStore

/-!
# Windows of requests

The rule of the limiter in memory: the calls of an ip address fall into windows, and in a window
so many calls of a method are allowed.  The store follows the rule for methods that are not
among the inherited names, with a limit of at least one where a window begins again.
-/

namespace JsonRpcRelay.RateLimiter

open Framework

section Rule

/-- A window of an ip address, with the number of calls of each method that were allowed in it. -/
structure Window where
  closes : ℕ
  allowed : String → ℕ

def Window.opened (duration now : ℕ) : Window := ⟨now + duration, fun _ => 0⟩

/-- The window in which a call falls: a new one if there is none or the last one is over. -/
def currentWindow (duration now : ℕ) : Option Window → Window
  | none => .opened duration now
  | some w => if w.closes < now then .opened duration now else w

variable (duration : ℕ) (limit : String → ℕ)

/-- A call is allowed if fewer than the limit were. -/
def isAllowed (w : Option Window) (c : Call) : Bool :=
  (currentWindow duration c.time w).allowed c.method < limit c.method

def afterCall (w : Option Window) (c : Call) : Window :=
  let current := currentWindow duration c.time w
  if isAllowed duration limit w c then
    { current with
      allowed := Function.update current.allowed c.method (current.allowed c.method + 1) }
  else current

/-- The rule, with the windows of each ip address. -/
def windowRule : Keyed String Call (Option Window) Bool where
  key c := c.ip
  act w c := (isAllowed duration limit w c, some (afterCall duration limit w c))

end Rule

section Simulation

/-- The records of an ip address are those of its window. -/
structure Agrees (limit : String → ℕ) (entry : DatabaseEntry) (w : Window) : Prop where
  closes : entry.reset = w.closes
  record : ∀ m r, entry.methodInfo m = some r → r.total = limit m ∧
    r.remaining + w.allowed m = limit m
  absent : ∀ m, entry.methodInfo m = none → w.allowed m = 0
  own : ∀ m r, entry.methodInfo m = some r → m ∉ objectPrototypeKeys

/-- The store agrees with the windows, and no inherited object has been written to. -/
structure Simulates (limit : String → ℕ) (st : LruRateLimitStore)
    (ws : String → Option Window) : Prop where
  shared : st.shared = fun _ => {}
  entries : ∀ ip, match st.database ip, ws ip with
    | none, none => True
    | some entry, some w => Agrees limit entry w
    | _, _ => False

/-- The records before a call, and whether its window begins again. -/
def windowOver (st : LruRateLimitStore) (c : Call) : Bool :=
  (st.database c.ip).any fun entry => entry.reset < c.time

/-- The call does not touch what is inherited, and is not let through by a limit of zero. -/
def Plain (limit : String → ℕ) (st : LruRateLimitStore) (c : Call) : Prop :=
  if windowOver st c then limit c.method ≠ 0 ∧ c.method ∉ objectPrototypeKeys
  else c.method ∈ objectPrototypeKeys → limit c.method = 0

end Simulation

section Records

variable {rs : Records} {m : String} {r : MethodDatabase} {duration now n : ℕ}

private theorem methodValue_of_some (h : rs.entry.methodInfo m = some r) :
    rs.methodValue m = some (.record r) := by
  rw [Records.methodValue, h]

private theorem methodValue_of_none (hshared : rs.shared = fun _ => {})
    (h : rs.entry.methodInfo m = none) :
    rs.methodValue m = if m ∈ objectPrototypeKeys then some (.inherited m) else none := by
  rw [Records.methodValue, h]
  simp [Records.objectPrototype, hshared]

/-- The records with one record replaced. -/
def Records.put (rs : Records) (m : String) (r : MethodDatabase) : Records :=
  { rs with entry.methodInfo := Function.update rs.entry.methodInfo m (some r) }

@[simp] theorem put_methodInfo_self : (rs.put m r).entry.methodInfo m = some r := by
  simp [Records.put]

@[simp] theorem put_put {r' : MethodDatabase} : (rs.put m r).put m r' = rs.put m r' := by
  simp [Records.put]

@[simp] theorem put_reset : (rs.put m r).entry.reset = rs.entry.reset := rfl

@[simp] theorem put_shared : (rs.put m r).shared = rs.shared := rfl

private theorem setRemaining_of_some (h : rs.entry.methodInfo m = some r) :
    rs.setRemaining m n = .ok (rs.put m { r with remaining := n }) := by
  rw [Records.setRemaining, Records.assign, methodValue_of_some h]
  rfl

private theorem setTotal_of_some (h : rs.entry.methodInfo m = some r) :
    rs.setTotal m n = .ok (rs.put m { r with total := n }) := by
  rw [Records.setTotal, Records.assign, methodValue_of_some h]
  rfl

private theorem decreased_of_some (h : rs.entry.methodInfo m = some r) :
    rs.decreased m = (.ok false, rs.put m { r with remaining := r.remaining - 1 }) := by
  rw [Records.decreased, Records.decreaseRemaining, setRemaining_of_some h, Records.remaining,
    methodValue_of_some h]
  rfl

/-- A call in a window that goes on. -/
theorem check_of_open (h : rs.entry.methodInfo m = some r) (hopen : ¬rs.entry.reset < now) :
    rs.check m duration now n =
      if 0 < r.remaining then (.ok false, rs.put m { r with remaining := r.remaining - 1 })
      else (.ok true, rs) := by
  have hremaining : rs.checkRemaining m = decide (0 < r.remaining) := by
    rw [Records.checkRemaining, Records.remaining, methodValue_of_some h]
    rfl
  rw [Records.check, Records.shouldReset, decide_eq_false hopen, hremaining, decreased_of_some h]
  simp

/-- A call that begins a window again. -/
theorem check_of_over (h : rs.entry.methodInfo m = some r) (hover : rs.entry.reset < now) :
    rs.check m duration now n = (.ok false, (rs.restart duration now).put m
      { r with remaining := n - 1, total := n }) := by
  have hrestart : (rs.restart duration now).entry.methodInfo m =
      some { r with remaining := r.total } := by
    simp [Records.restart, h]
  have hreset : rs.reset m duration now n =
      (.ok (), (rs.restart duration now).put m { r with remaining := n, total := n }) := by
    rw [Records.reset, setRemaining_of_some hrestart]
    dsimp only
    rw [setTotal_of_some put_methodInfo_self]
    simp
  rw [Records.check, Records.shouldReset, decide_eq_true hover, hreset]
  show Records.decreased _ m = _
  rw [decreased_of_some put_methodInfo_self]
  simp

/-- An inherited name without a remainder is limited. -/
theorem check_of_inherited (hshared : rs.shared = fun _ => {})
    (h : rs.entry.methodInfo m = none) (hm : m ∈ objectPrototypeKeys)
    (hopen : ¬rs.entry.reset < now) : rs.check m duration now n = (.ok true, rs) := by
  have hremaining : rs.checkRemaining m = false := by
    rw [Records.checkRemaining, Records.remaining, methodValue_of_none hshared h, if_pos hm]
    simp [Records.objectPrototype, hshared]
  rw [Records.check, Records.shouldReset, decide_eq_false hopen, hremaining]
  rfl

/-- The records with an inherited object replaced. -/
def Records.putShared (rs : Records) (m : String) (o : SharedObject) : Records :=
  { rs with shared := Function.update rs.shared m o }

private theorem assign_of_inherited (h : rs.entry.methodInfo m = none)
    (hm : m ∈ objectPrototypeKeys) (key : String) (onRecord : MethodDatabase → MethodDatabase)
    (onShared : SharedObject → SharedObject) :
    rs.assign m key onRecord onShared = .ok (rs.putShared m (onShared (rs.shared m))) := by
  rw [Records.assign, Records.methodValue, h]
  simp [hm, Records.putShared]

/-- The object under an inherited name is written to when a window begins again. -/
theorem shared_of_over (duration n : ℕ) (h : rs.entry.methodInfo m = none) (hm : m ∈ objectPrototypeKeys)
    (hover : rs.entry.reset < now) :
    ((rs.check m duration now n).2.shared m).total = some n := by
  have hrestart : (rs.restart duration now).entry.methodInfo m = none := by
    simp [Records.restart, h]
  have hput (rs : Records) (o : SharedObject) (h : rs.entry.methodInfo m = none) :
      (rs.putShared m o).entry.methodInfo m = none := h
  have hdecreased (rs : Records) (h : rs.entry.methodInfo m = none) :
      ((rs.decreased m).2.shared m).total = (rs.shared m).total := by
    rw [Records.decreased, Records.decreaseRemaining, Records.setRemaining,
      assign_of_inherited h hm]
    simp [Records.putShared]
  rw [Records.check, Records.shouldReset, decide_eq_true hover]
  simp only [Bool.not_true, Bool.false_eq_true, if_false, Records.reset, Records.setRemaining,
    Records.setTotal]
  rw [assign_of_inherited hrestart hm]
  dsimp only
  rw [assign_of_inherited (hput _ _ hrestart) hm]
  dsimp only
  rw [hdecreased _ (hput _ _ (hput _ _ hrestart))]
  simp [Records.putShared]

end Records

section Steps

variable {duration : ℕ} {limit : String → ℕ} {st : LruRateLimitStore}
  {ws : String → Option Window} {c : Call} {w : Window} {entry : DatabaseEntry}
  {rs : Records} {m : String}

private theorem agrees_opened (limit : String → ℕ) (duration now : ℕ) :
    Agrees limit (LruRateLimitStore.setNewIp duration now) (.opened duration now) where
  closes := rfl
  record m r h := by cases h
  absent m h := rfl
  own m r h := by cases h

/-- The records before a call and the window they belong to. -/
theorem Simulates.agrees (h : Simulates limit st ws) (c : Call) :
    Agrees limit ((st.database c.ip).getD (LruRateLimitStore.setNewIp duration c.time))
      ((ws c.ip).getD (.opened duration c.time)) := by
  have hentries := h.entries c.ip
  cases hst : st.database c.ip with
  | none =>
    cases hws : ws c.ip with
    | none => exact agrees_opened limit duration c.time
    | some w => simp [hst, hws] at hentries
  | some entry =>
    cases hws : ws c.ip with
    | none => simp [hst, hws] at hentries
    | some w => simpa [hst, hws] using hentries

private theorem currentWindow_eq (duration now : ℕ) (w : Option Window) :
    currentWindow duration now w =
      if (w.getD (.opened duration now)).closes < now then .opened duration now
      else w.getD (.opened duration now) := by
  cases w with
  | none =>
    have hopen : ¬(Window.opened duration now).closes < now := by
      simp [Window.opened]
    simp [currentWindow, hopen]
  | some w => rfl

theorem Agrees.put (h : Agrees limit rs.entry w) {r : MethodDatabase} {n : ℕ}
    (hm : m ∉ objectPrototypeKeys) (htotal : r.total = limit m)
    (hremaining : r.remaining + n = limit m) :
    Agrees limit (rs.put m r).entry { w with allowed := Function.update w.allowed m n } where
  closes := h.closes
  record m' r' hr' := by
    by_cases heq : m' = m
    · subst heq
      rw [put_methodInfo_self] at hr'
      cases hr'
      simpa using ⟨htotal, hremaining⟩
    · have hr : rs.entry.methodInfo m' = some r' := by simpa [Records.put, heq] using hr'
      simpa [heq] using h.record m' r' hr
  absent m' hnone := by
    by_cases heq : m' = m
    · subst heq
      rw [put_methodInfo_self] at hnone
      cases hnone
    · have hr : rs.entry.methodInfo m' = none := by simpa [Records.put, heq] using hnone
      simpa [heq] using h.absent m' hr
  own m' r' hr' := by
    by_cases heq : m' = m
    · subst heq
      exact hm
    · have hr : rs.entry.methodInfo m' = some r' := by simpa [Records.put, heq] using hr'
      exact h.own m' r' hr

/-- All calls of a method are still allowed where there is no record of it. -/
theorem Agrees.precheckMethod (h : Agrees limit rs.entry w) (hshared : rs.shared = fun _ => {})
    (hm : m ∉ objectPrototypeKeys) :
    Agrees limit (rs.precheckMethod m (limit m)).entry w ∧
      (rs.precheckMethod m (limit m)).shared = rs.shared ∧
      (rs.precheckMethod m (limit m)).entry.reset = rs.entry.reset ∧
      ∃ r, (rs.precheckMethod m (limit m)).entry.methodInfo m = some r := by
  unfold Records.precheckMethod Records.checkMethodExist
  cases hr : rs.entry.methodInfo m with
  | some r =>
    rw [methodValue_of_some hr]
    exact ⟨h, rfl, rfl, r, hr⟩
  | none =>
    rw [methodValue_of_none hshared hr, if_neg hm]
    have hput := h.put (r := ⟨m, limit m, limit m⟩) (n := 0) hm rfl (Nat.add_zero _)
    have hsame : Function.update w.allowed m 0 = w.allowed := by
      rw [← h.absent m hr]
      exact Function.update_eq_self m w.allowed
    rw [hsame] at hput
    exact ⟨hput, rfl, rfl, _, put_methodInfo_self⟩

private theorem Agrees.precheckMethod_inherited (h : Agrees limit rs.entry w)
    (hshared : rs.shared = fun _ => {}) (hm : m ∈ objectPrototypeKeys) :
    rs.precheckMethod m (limit m) = rs ∧ rs.entry.methodInfo m = none := by
  have hnone : rs.entry.methodInfo m = none := by
    cases hr : rs.entry.methodInfo m with
    | none => rfl
    | some r => exact absurd hm (h.own m r hr)
  refine ⟨?_, hnone⟩
  rw [Records.precheckMethod, Records.checkMethodExist, methodValue_of_none hshared hnone, if_pos hm]
  rfl

/-- The records of an ip address when its window begins again. -/
theorem Agrees.restart (h : Agrees limit rs.entry w) (now : ℕ) :
    Agrees limit (rs.restart duration now).entry (.opened duration now) where
  closes := rfl
  record m r hr := by
    obtain ⟨r', hr', rfl⟩ := Option.map_eq_some_iff.mp hr
    exact ⟨(h.record m r' hr').1, (h.record m r' hr').1⟩
  absent m _ := rfl
  own m r hr := by
    obtain ⟨r', hr', _⟩ := Option.map_eq_some_iff.mp hr
    exact h.own m r' hr'

/-- What a call of a plain method does to the records. -/
theorem Agrees.check (duration : ℕ) (h : Agrees limit rs.entry w) {r : MethodDatabase} {now : ℕ}
    (hr : rs.entry.methodInfo m = some r) (hlimit : rs.entry.reset < now → limit m ≠ 0) :
    let current := if w.closes < now then .opened duration now else w
    (rs.check m duration now (limit m)).1 = .ok (!decide (current.allowed m < limit m)) ∧
      (rs.check m duration now (limit m)).2.shared = rs.shared ∧
      Agrees limit (rs.check m duration now (limit m)).2.entry
        (if current.allowed m < limit m then
          { current with
            allowed := Function.update current.allowed m (current.allowed m + 1) }
        else current) := by
  have hm := h.own m r hr
  obtain ⟨htotal, hremaining⟩ := h.record m r hr
  by_cases hover : rs.entry.reset < now
  · have hpos : 0 < limit m := Nat.pos_of_ne_zero (hlimit hover)
    rw [check_of_over hr hover, ← h.closes]
    simp only [hover, if_true, Window.opened, hpos, decide_true, Bool.not_true, true_and]
    refine ⟨rfl, ?_⟩
    exact (h.restart now).put hm rfl (show limit m - 1 + 1 = limit m by omega)
  · rw [check_of_open hr hover, ← h.closes]
    simp only [hover, if_false]
    by_cases hallowed : w.allowed m < limit m
    · have hpos : 0 < r.remaining := by omega
      simp only [hpos, if_true, hallowed, decide_true, Bool.not_true, true_and]
      refine ⟨rfl, ?_⟩
      exact h.put hm htotal (show r.remaining - 1 + (w.allowed m + 1) = limit m by omega)
    · have hpos : ¬0 < r.remaining := by omega
      simp only [hpos, if_false, hallowed, decide_false, Bool.not_false, true_and]
      exact h

/-- The records that a call finds. -/
def recordsOf (duration : ℕ) (st : LruRateLimitStore) (c : Call) : Records :=
  ⟨(st.database c.ip).getD (LruRateLimitStore.setNewIp duration c.time), st.shared⟩

private theorem windowOver_iff (duration : ℕ) :
    windowOver st c = true ↔ (recordsOf duration st c).entry.reset < c.time := by
  rw [windowOver, recordsOf]
  cases st.database c.ip with
  | none => simp [LruRateLimitStore.setNewIp]
  | some entry => simp

private theorem step_windowRule_self : (windowRule duration limit).step ws c c.ip =
    some (afterCall duration limit (ws c.ip) c) := Keyed.step_self rfl

private theorem step_windowRule_of_ne {ip : String} (h : ip ≠ c.ip) :
    (windowRule duration limit).step ws c ip = ws ip := Keyed.step_of_ne (Ne.symm h)

private theorem output_eq : (windowRule duration limit).output ws c = decide
    ((currentWindow duration c.time (ws c.ip)).allowed c.method < limit c.method) := rfl

private theorem incrementAndCheck_eq : st.incrementAndCheck duration limit c =
    let checked := ((recordsOf duration st c).precheckMethod c.method (limit c.method)).check c.method
      duration c.time (limit c.method)
    (checked.1, ⟨Function.update st.database c.ip (some checked.2.entry), checked.2.shared⟩) := rfl

theorem Simulates.step (h : Simulates limit st ws) {shared : String → SharedObject}
    (hshared : shared = fun _ => {})
    (hentry : Agrees limit entry (afterCall duration limit (ws c.ip) c)) :
    Simulates limit ⟨Function.update st.database c.ip (some entry), shared⟩
      ((windowRule duration limit).step ws c) where
  shared := hshared
  entries ip := by
    by_cases hip : ip = c.ip
    · subst hip
      rw [step_windowRule_self]
      simpa only [Function.update_self] using hentry
    · rw [step_windowRule_of_ne hip]
      simp only [Function.update_of_ne hip]
      exact h.entries ip

private theorem Simulates.follows (duration : ℕ) (h : Simulates limit st ws)
    (hm : c.method ∉ objectPrototypeKeys) (hlimit : windowOver st c = true → limit c.method ≠ 0) :
    (st.incrementAndCheck duration limit c).1 = .ok (!(windowRule duration limit).output ws c) ∧
      Simulates limit (st.incrementAndCheck duration limit c).2
        ((windowRule duration limit).step ws c) := by
  have hagrees : Agrees limit (recordsOf duration st c).entry
      ((ws c.ip).getD (.opened duration c.time)) := h.agrees c
  obtain ⟨hagrees, hshared, hreset, r, hr⟩ := hagrees.precheckMethod h.shared hm
  rw [windowOver_iff duration, ← hreset] at hlimit
  obtain ⟨houtcome, hshared', hagrees'⟩ := hagrees.check duration hr hlimit
  rw [← currentWindow_eq] at houtcome hagrees'
  rw [incrementAndCheck_eq, output_eq]
  refine ⟨houtcome, h.step (hshared'.trans (hshared.trans h.shared)) ?_⟩
  rw [afterCall, isAllowed]
  simp only [decide_eq_true_eq]
  exact hagrees'

private theorem Simulates.not_follows_inherited (h : Simulates limit st ws)
    (hm : c.method ∈ objectPrototypeKeys) :
    ((st.incrementAndCheck duration limit c).1 = .ok (!(windowRule duration limit).output ws c) ∧
        (st.incrementAndCheck duration limit c).2.shared = fun _ => {}) ↔
      windowOver st c = false ∧ limit c.method = 0 := by
  have hagrees : Agrees limit (recordsOf duration st c).entry
      ((ws c.ip).getD (.opened duration c.time)) := h.agrees c
  obtain ⟨hsame, hnone⟩ := hagrees.precheckMethod_inherited h.shared hm
  rw [incrementAndCheck_eq, hsame, output_eq, currentWindow_eq, ← hagrees.closes]
  cases hover : windowOver st c with
  | true =>
    have hover' := (windowOver_iff duration).mp hover
    have htotal := shared_of_over duration (limit c.method) hnone hm hover'
    constructor
    · rintro ⟨_, hshared⟩
      dsimp only at hshared
      rw [hshared] at htotal
      cases htotal
    · rintro ⟨hfalse, _⟩
      cases hfalse
  | false =>
    have hopen : ¬(recordsOf duration st c).entry.reset < c.time := by
      rw [← windowOver_iff duration, hover]
      exact Bool.false_ne_true
    rw [check_of_inherited h.shared hnone hm hopen, if_neg hopen, hagrees.absent _ hnone]
    simp [recordsOf, h.shared, Nat.pos_iff_ne_zero]

private theorem Simulates.step_inherited (duration : ℕ) (h : Simulates limit st ws)
    (hm : c.method ∈ objectPrototypeKeys) (hover : windowOver st c = false) (hzero : limit c.method = 0) :
    Simulates limit (st.incrementAndCheck duration limit c).2
      ((windowRule duration limit).step ws c) := by
  have hagrees : Agrees limit (recordsOf duration st c).entry
      ((ws c.ip).getD (.opened duration c.time)) := h.agrees c
  obtain ⟨hsame, hnone⟩ := hagrees.precheckMethod_inherited h.shared hm
  have hopen : ¬(recordsOf duration st c).entry.reset < c.time := by
    rw [← windowOver_iff duration, hover]
    exact Bool.false_ne_true
  rw [incrementAndCheck_eq, hsame, check_of_inherited h.shared hnone hm hopen]
  apply h.step h.shared
  have hwindow : afterCall duration limit (ws c.ip) c =
      (ws c.ip).getD (.opened duration c.time) := by
    rw [afterCall, isAllowed, hzero, currentWindow_eq, ← hagrees.closes, if_neg hopen]
    simp
  rw [hwindow]
  exact hagrees

private theorem Simulates.not_follows_zero (duration : ℕ) (h : Simulates limit st ws)
    (hm : c.method ∉ objectPrototypeKeys) (hover : windowOver st c = true) (hzero : limit c.method = 0) :
    (st.incrementAndCheck duration limit c).1 ≠ .ok (!(windowRule duration limit).output ws c) := by
  have hagrees : Agrees limit (recordsOf duration st c).entry
      ((ws c.ip).getD (.opened duration c.time)) := h.agrees c
  obtain ⟨_, _, hreset, r, hr⟩ := hagrees.precheckMethod h.shared hm
  rw [windowOver_iff duration, ← hreset] at hover
  rw [incrementAndCheck_eq, output_eq, hzero, ← hzero]
  dsimp only
  rw [check_of_over hr hover, hzero]
  simp

private theorem Simulates.follows_iff (h : Simulates limit st ws) (c : Call) :
    ((st.incrementAndCheck duration limit c).1 = .ok (!(windowRule duration limit).output ws c) ∧
        (st.incrementAndCheck duration limit c).2.shared = fun _ => {}) ↔ Plain limit st c := by
  by_cases hm : c.method ∈ objectPrototypeKeys
  · rw [h.not_follows_inherited hm, Plain]
    cases windowOver st c <;> simp [hm]
  · by_cases hzero : windowOver st c = true ∧ limit c.method = 0
    · have hnot := h.not_follows_zero duration hm hzero.1 hzero.2
      simp [Plain, hzero.1, hzero.2, hnot]
    · have hlimit : windowOver st c = true → limit c.method ≠ 0 :=
        fun hover hlimit => hzero ⟨hover, hlimit⟩
      obtain ⟨houtcome, hsimulates⟩ := h.follows duration hm hlimit
      have hplain : Plain limit st c := by
        rw [Plain]
        split
        · rename_i hover
          exact ⟨hlimit hover, hm⟩
        · exact fun hmem => absurd hmem hm
      exact ⟨fun _ => hplain, fun _ => ⟨houtcome, hsimulates.shared⟩⟩

private theorem Simulates.step_of_plain (duration : ℕ) (h : Simulates limit st ws)
    (hplain : Plain limit st c) : Simulates limit (st.incrementAndCheck duration limit c).2
      ((windowRule duration limit).step ws c) := by
  by_cases hm : c.method ∈ objectPrototypeKeys
  · cases hover : windowOver st c with
    | true =>
      rw [Plain, hover, if_pos rfl] at hplain
      exact absurd hm hplain.2
    | false =>
      rw [Plain, hover, if_neg Bool.false_ne_true] at hplain
      exact h.step_inherited duration hm hover (hplain hm)
  · refine (h.follows duration hm fun hover => ?_).2
    rw [Plain, hover, if_pos rfl] at hplain
    exact hplain.1

end Steps

section Runs

variable {duration : ℕ} {limit : String → ℕ} {st : LruRateLimitStore}
  {ws : String → Option Window} {cs : List Call}

private theorem simulates_init (limit : String → ℕ) : Simulates limit .init fun _ => none where
  shared := rfl
  entries _ := trivial

/-- One call of a run. -/
def lruStep (duration : ℕ) (limit : String → ℕ) (st : LruRateLimitStore) (c : Call) :
    Option LruRateLimitStore :=
  some (st.incrementAndCheck duration limit c).2

/-- Every call of the run is limited exactly if the rule does not allow it, and no inherited
object is ever written to. -/
def FollowsRule (duration : ℕ) (limit : String → ℕ) :
    LruRateLimitStore → (String → Option Window) → List Call → Prop
  | _, _, [] => True
  | st, ws, c :: cs =>
      ((st.incrementAndCheck duration limit c).1 = .ok (!(windowRule duration limit).output ws c) ∧
        (st.incrementAndCheck duration limit c).2.shared = fun _ => {}) ∧
      FollowsRule duration limit (st.incrementAndCheck duration limit c).2
        ((windowRule duration limit).step ws c) cs

private theorem Simulates.followsRule_iff (h : Simulates limit st ws) :
    FollowsRule duration limit st ws cs ↔ Along (lruStep duration limit) (Plain limit) st cs := by
  induction cs generalizing st ws with
  | nil => exact Iff.rfl
  | cons c cs ih =>
    rw [FollowsRule, Along, h.follows_iff]
    apply and_congr_right
    intro hplain
    rw [ih (h.step_of_plain duration hplain)]
    simp [lruStep]

/-- What the calls of an ip address return. -/
def decisionsAt (duration : ℕ) (limit : String → ℕ) (ip : String) :
    LruRateLimitStore → List Call → List (Except String Bool)
  | _, [] => []
  | st, c :: cs =>
      if c.ip = ip then (st.incrementAndCheck duration limit c).1 ::
        decisionsAt duration limit ip (st.incrementAndCheck duration limit c).2 cs
      else decisionsAt duration limit ip (st.incrementAndCheck duration limit c).2 cs

theorem FollowsRule.decisionsAt_eq (h : FollowsRule duration limit st ws cs) (ip : String) :
    decisionsAt duration limit ip st cs =
      ((windowRule duration limit).shownOn (· = ip) ws cs).map fun allowed => .ok !allowed := by
  induction cs generalizing st ws with
  | nil => rfl
  | cons c cs ih =>
    obtain ⟨⟨houtcome, _⟩, hrest⟩ := h
    rw [decisionsAt, Keyed.shownOn, ih hrest, houtcome]
    by_cases hip : c.ip = ip
    · simp [hip, windowRule]
    · simp [hip, windowRule]

private theorem decisionsAt_congr {cs' : List Call} {ip : String}
    (h : Along (lruStep duration limit) (Plain limit) .init cs)
    (h' : Along (lruStep duration limit) (Plain limit) .init cs')
    (hsame : cs.filter (·.ip = ip) = cs'.filter (·.ip = ip)) :
    decisionsAt duration limit ip .init cs = decisionsAt duration limit ip .init cs' := by
  rw [((simulates_init limit).followsRule_iff.mpr h).decisionsAt_eq,
    ((simulates_init limit).followsRule_iff.mpr h').decisionsAt_eq]
  congr 1
  exact Keyed.shownOn_congr hsame

/-- The call is of another ip address, or of another method in a window that goes on. -/
def Apart (st : LruRateLimitStore) (c' c : Call) : Prop :=
  c'.ip ≠ c.ip ∨
    (c'.method ≠ c.method ∧ (st.database c.ip).any fun entry => ¬entry.reset < c'.time)

private theorem Simulates.over_eq (h : Simulates limit st ws) (c : Call) :
    windowOver st c = (ws c.ip).any fun w => w.closes < c.time := by
  have hentries := h.entries c.ip
  rw [windowOver]
  cases hst : st.database c.ip with
  | none =>
    cases hws : ws c.ip with
    | none => rfl
    | some w => simp [hst, hws] at hentries
  | some entry =>
    cases hws : ws c.ip with
    | none => simp [hst, hws] at hentries
    | some w =>
      simp only [hst, hws] at hentries
      simp [hentries.closes]

private theorem Simulates.exists_window (h : Simulates limit st ws) {c' c : Call}
    (hopen : (st.database c.ip).any fun entry => ¬entry.reset < c'.time) :
    ∃ w, ws c.ip = some w ∧ ¬w.closes < c'.time := by
  have hentries := h.entries c.ip
  obtain ⟨entry, hst, hreset⟩ := (Option.any_eq_true _ _).mp hopen
  cases hws : ws c.ip with
  | none => simp [hst, hws] at hentries
  | some w =>
    simp only [hst, hws] at hentries
    refine ⟨w, rfl, ?_⟩
    rw [← hentries.closes]
    exact of_decide_eq_true hreset

/-- A call that is apart changes neither the decision on another one nor whether it is plain. -/
theorem Simulates.of_apart (duration : ℕ) (h : Simulates limit st ws) {c' c : Call}
    (hapart : Apart st c' c) :
    (windowRule duration limit).output ((windowRule duration limit).step ws c') c =
        (windowRule duration limit).output ws c ∧
      ((windowRule duration limit).step ws c' c.ip).any (fun w => w.closes < c.time) =
        (ws c.ip).any fun w => w.closes < c.time := by
  by_cases hip : c'.ip = c.ip
  · obtain hne | ⟨hmethod, hopen⟩ := hapart
    · exact absurd hip hne
    · obtain ⟨w, hws, hopen⟩ := h.exists_window hopen
      have hstep : (windowRule duration limit).step ws c' c.ip =
          some (afterCall duration limit (some w) c') := by
        rw [← hip, step_windowRule_self, hip, hws]
      have hcloses : (afterCall duration limit (some w) c').closes = w.closes := by
        rw [afterCall, currentWindow, if_neg hopen]
        split <;> rfl
      have hallowed : (afterCall duration limit (some w) c').allowed c.method =
          w.allowed c.method := by
        rw [afterCall, currentWindow, if_neg hopen]
        split
        · exact Function.update_of_ne (Ne.symm hmethod) _ _
        · rfl
      have hcurrent : (currentWindow duration c.time (some (afterCall duration limit (some w) c'))).allowed
          c.method = (currentWindow duration c.time (some w)).allowed c.method := by
        rw [currentWindow, currentWindow, hcloses]
        split
        · rfl
        · exact hallowed
      rw [output_eq, output_eq, hstep, hws, hcurrent]
      exact ⟨rfl, by simp [hcloses]⟩
  · rw [output_eq, output_eq, step_windowRule_of_ne fun heq => hip heq.symm]
    exact ⟨rfl, rfl⟩

private theorem Simulates.decision_of_apart (h : Simulates limit st ws) {c' c : Call}
    (hplain' : Plain limit st c') (hplain : Plain limit st c) (hapart : Apart st c' c) :
    ((st.incrementAndCheck duration limit c').2.incrementAndCheck duration limit c).1 =
      (st.incrementAndCheck duration limit c).1 := by
  have hnext := h.step_of_plain duration hplain'
  obtain ⟨houtput, hclosed⟩ := h.of_apart duration hapart
  have hplain'' : Plain limit (st.incrementAndCheck duration limit c').2 c := by
    rw [Plain, hnext.over_eq, hclosed, ← h.over_eq]
    exact hplain
  rw [((h.follows_iff c).mpr hplain).1, ((hnext.follows_iff c).mpr hplain'').1, houtput]

private theorem simulates_of_run (h : Simulates limit st ws)
    (hplain : Along (lruStep duration limit) (Plain limit) st cs) {st' : LruRateLimitStore}
    (hrun : exec (lruStep duration limit) st cs = some st') :
    ∃ ws', Simulates limit st' ws' :=
  run_invariant (I := fun st => ∃ ws, Simulates limit st ws)
    (fun _ _ _ ⟨_, h⟩ hplain hstep => ⟨_, Option.some.inj hstep ▸ h.step_of_plain duration hplain⟩)
    ⟨ws, h⟩ hplain hrun

end Runs

section Exact

instance (limit : String → ℕ) (st : LruRateLimitStore) (c : Call) :
    Decidable (Plain limit st c) := by
  unfold Plain
  infer_instance

/-- The limiter in memory follows its rule, without touching anything else, exactly in the runs
of plain calls.  In such runs the calls of other ip addresses, and of other methods within a
window, change no decision. -/
theorem lru_limiter_exact (duration : ℕ) (limit : String → ℕ) :
    (∀ cs, FollowsRule duration limit .init (fun _ => none) cs ↔
      Along (lruStep duration limit) (Plain limit) .init cs) ∧
    (∀ ip cs cs', Along (lruStep duration limit) (Plain limit) .init cs →
      Along (lruStep duration limit) (Plain limit) .init cs' →
      cs.filter (·.ip = ip) = cs'.filter (·.ip = ip) →
        decisionsAt duration limit ip .init cs = decisionsAt duration limit ip .init cs') ∧
    ∀ cs st c' c, Along (lruStep duration limit) (Plain limit) .init cs →
      exec (lruStep duration limit) .init cs = some st → Plain limit st c' → Plain limit st c →
        Apart st c' c →
          ((st.incrementAndCheck duration limit c').2.incrementAndCheck duration limit c).1 =
            (st.incrementAndCheck duration limit c).1 := by
  refine ⟨fun cs => (simulates_init limit).followsRule_iff, ?_, ?_⟩
  · intro ip cs cs' h h' hsame
    exact decisionsAt_congr h h' hsame
  · intro cs st c' c h hrun hplain' hplain hapart
    obtain ⟨ws, hsimulates⟩ := simulates_of_run (simulates_init limit) h hrun
    exact hsimulates.decision_of_apart hplain' hplain hapart

/-- Two clients with one call in a window. -/
theorem lru_limiter_exact_twoClients :
    FollowsRule 60000 (fun _ => 1) .init (fun _ => none)
        [⟨"::1", "eth_call", 0⟩, ⟨"::2", "eth_call", 5⟩, ⟨"::1", "eth_call", 7⟩] ∧
      decisionsAt 60000 (fun _ => 1) "::1" .init
          [⟨"::1", "eth_call", 0⟩, ⟨"::2", "eth_call", 5⟩, ⟨"::1", "eth_call", 7⟩] =
        decisionsAt 60000 (fun _ => 1) "::1" .init
          [⟨"::1", "eth_call", 0⟩, ⟨"::1", "eth_call", 7⟩] ∧
      (((LruRateLimitStore.init.incrementAndCheck 60000 (fun _ => 1)
            ⟨"::1", "eth_call", 0⟩).2.incrementAndCheck 60000 (fun _ => 1)
              ⟨"::1", "eth_chainId", 3⟩).2.incrementAndCheck 60000 (fun _ => 1)
                ⟨"::1", "eth_call", 7⟩).1 =
        ((LruRateLimitStore.init.incrementAndCheck 60000 (fun _ => 1)
          ⟨"::1", "eth_call", 0⟩).2.incrementAndCheck 60000 (fun _ => 1)
            ⟨"::1", "eth_call", 7⟩).1 := by
  obtain ⟨hfollows, hip, hmethod⟩ := lru_limiter_exact 60000 fun _ => 1
  refine ⟨(hfollows _).mpr (by decide), hip _ _ _ (by decide) (by decide) rfl, ?_⟩
  exact hmethod [⟨"::1", "eth_call", 0⟩] _ _ _ (by decide) rfl (by decide) (by decide)
    (.inr ⟨by decide, by decide⟩)

/-- The first call of a method by the name of an inherited function is limited. -/
theorem inherited_name_limited : ¬∀ (duration : ℕ) (limit : String → ℕ) (cs : List Call),
    FollowsRule duration limit .init (fun _ => none) cs := by
  intro hall
  have h := hall 60000 (fun _ => 1) [⟨"::1", "constructor", 0⟩]
  exact absurd h.1.1 (by decide)

end Exact

end JsonRpcRelay.RateLimiter
