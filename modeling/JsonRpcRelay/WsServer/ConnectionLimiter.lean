import JsonRpcRelay.Framework.Schedule
import Mathlib.Data.Finmap

/-!
# The connection limiter

The connections of the server, and how many of them each address has.  A connection counts from
the moment it is opened until the handler of its close event has run, also if it is refused.
-/

namespace JsonRpcRelay.WsServer

open Framework

structure WebSocketError where
  code : ℕ
  message : String
  deriving DecidableEq

def CONNECTION_IP_LIMIT_EXCEEDED : WebSocketError :=
  ⟨4001, "Exceeded maximum connections from a single IP address"⟩

def TTL_EXPIRED : WebSocketError := ⟨4002, "Connection timeout expired"⟩

def CONNECTION_LIMIT_EXCEEDED : WebSocketError := ⟨4003, "Connection limit exceeded"⟩

structure ConnectionSettings where
  connectionLimit : ℤ
  connectionLimitPerIp : ℤ
  maxInactivityTTL : ℤ

inductive ReadyState where
  | isOpen
  | closing
  | closed
  deriving DecidableEq

/-- A connection with the address of its request.  What is sent to it before it is closed is the
error with the limit that it is about. -/
structure Websocket where
  ip : String
  readyState : ReadyState := .isOpen
  ipCounted : Bool := false
  subscriptions : ℤ := 0
  inactivityTTL : Bool := false
  sent : List (WebSocketError × ℤ) := []
  deriving DecidableEq

namespace Websocket

def send (c : Websocket) (error : WebSocketError) (limit : ℤ) : Websocket :=
  { c with sent := c.sent ++ [(error, limit)] }

def close (c : Websocket) : Websocket :=
  if c.readyState = .isOpen then { c with readyState := .closing } else c

end Websocket

/-- `NaN` is `none`. -/
abbrev JsCounter := Option ℤ

structure ConnectionLimiter where
  connectedClients : ℤ
  clientIps : Finmap fun _ : String => JsCounter

namespace ConnectionLimiter

def init : ConnectionLimiter := ⟨0, ∅⟩

variable (settings : ConnectionSettings) (limiter : ConnectionLimiter) (c : Websocket)

/-- `clientIps[ip]` after the increment.  What is missing, `NaN` or zero becomes one. -/
def incremented (ip : String) : JsCounter :=
  match limiter.clientIps.lookup ip with
  | some (some n) => if n = 0 then some 1 else some (n + 1)
  | _ => some 1

/-- `connections` is the number that the server has. -/
def incrementCounters (connections : ℤ) : ConnectionLimiter × Websocket :=
  ({ connectedClients := connections
     clientIps := limiter.clientIps.insert c.ip (limiter.incremented c.ip) },
    { c with ipCounted := true, subscriptions := 0 })

/-- The counters of the addresses with one less for `ip`.  A counter of zero is deleted. -/
def clientIpsWithout (ip : String) : Finmap fun _ : String => JsCounter :=
  match limiter.clientIps.lookup ip with
  | some (some n) =>
      if n - 1 = 0 then limiter.clientIps.erase ip else limiter.clientIps.insert ip (some (n - 1))
  | _ => limiter.clientIps.insert ip none

def decrementCounters : ConnectionLimiter where
  connectedClients := limiter.connectedClients - 1
  clientIps := if c.ipCounted then limiter.clientIpsWithout c.ip else limiter.clientIps

/-- The limit that a connection exceeds, if any. -/
def exceededLimit : Option (WebSocketError × ℤ) :=
  if limiter.connectedClients > settings.connectionLimit then
    some (CONNECTION_LIMIT_EXCEEDED, settings.connectionLimit)
  else if ((limiter.clientIps.lookup c.ip).join.any fun n =>
      n ≠ 0 ∧ n > settings.connectionLimitPerIp) then
    some (CONNECTION_IP_LIMIT_EXCEEDED, settings.connectionLimitPerIp)
  else none

def applyLimits : Websocket :=
  match limiter.exceededLimit settings c with
  | some (error, limit) => (c.send error limit).close
  | none => { c with inactivityTTL := true }

end ConnectionLimiter

/-- The limiter and the connections in the order in which they were opened. -/
structure ConnectionState where
  limiter : ConnectionLimiter
  connections : List Websocket

inductive ConnectionEvent where
  /-- A connection from an address, with the number of connections that the server has then. -/
  | opened (ip : String) (connections : ℤ)
  /-- The client starts to close a connection. -/
  | clientCloses (i : ℕ)
  /-- A message resets the timer of a connection. -/
  | message (i : ℕ)
  /-- The timer of a connection runs out. -/
  | inactivityTTL (i : ℕ)
  /-- The close event of a connection. -/
  | closeEvent (i : ℕ)
  deriving DecidableEq

namespace ConnectionState

def init : ConnectionState := ⟨.init, []⟩

variable (settings : ConnectionSettings) (st : ConnectionState)

/-- The limiter when a new connection has been counted, and the connection. -/
def counted (ip : String) (connections : ℤ) : ConnectionLimiter × Websocket :=
  st.limiter.incrementCounters { ip } connections

/-- The connection as the limits leave it. -/
def newConnection (ip : String) (connections : ℤ) : Websocket :=
  (st.counted ip connections).1.applyLimits settings (st.counted ip connections).2

def openConnection (ip : String) (connections : ℤ) : ConnectionState where
  limiter := (st.counted ip connections).1
  connections := st.connections ++ [st.newConnection settings ip connections]

/-- The limits leave the new connection open, with its timer started. -/
def PassesLimits (ip : String) (connections : ℤ) : Prop :=
  (st.newConnection settings ip connections).readyState = .isOpen ∧
    (st.newConnection settings ip connections).inactivityTTL = true

def expire (c : Websocket) : Websocket :=
  if c.readyState ≠ .closed then (c.send TTL_EXPIRED settings.maxInactivityTTL).close else c

/-- The part of `handleConnectionClose` that is about the limiter. -/
def handleConnectionClose (i : ℕ) (c : Websocket) : ConnectionState where
  limiter := st.limiter.decrementCounters c
  connections := st.connections.set i { c with readyState := .closed }

/-- A close event comes once for each connection. -/
def step : ConnectionEvent → Option ConnectionState
  | .opened ip connections => some (st.openConnection settings ip connections)
  | .clientCloses i => st.connections[i]?.map fun c =>
      { st with connections := st.connections.set i c.close }
  | .message i => st.connections[i]?.map fun c =>
      { st with connections := st.connections.set i { c with inactivityTTL := true } }
  | .inactivityTTL i => (st.connections[i]?.filter (·.inactivityTTL)).map fun c =>
      { st with connections := st.connections.set i (expire settings c) }
  | .closeEvent i => (st.connections[i]?.filter (·.readyState ≠ .closed)).map fun c =>
      st.handleConnectionClose i c

def isOpenFrom (ip : String) (c : Websocket) : Bool := c.ip = ip ∧ c.readyState ≠ .closed

def openFrom (ip : String) : ℕ := st.connections.countP (isOpenFrom ip)

end ConnectionState

/-- The counters are the numbers of connections, and there is none for an address without. -/
def CountsExact (limiter : ConnectionLimiter) (openFrom : String → ℕ) : Prop :=
  ∀ ip, limiter.clientIps.lookup ip =
    if openFrom ip = 0 then none else some (some (openFrom ip : ℤ))

section Counters

open ConnectionLimiter

variable {limiter : ConnectionLimiter} {openFrom : String → ℕ} {ip : String} {c : Websocket}

theorem CountsExact.incremented (h : CountsExact limiter openFrom) (ip : String) :
    limiter.incremented ip = some ((openFrom ip + 1 : ℕ) : ℤ) := by
  rw [ConnectionLimiter.incremented, h ip]
  by_cases hzero : openFrom ip = 0
  · simp [hzero]
  · simp [hzero]

theorem CountsExact.incrementCounters (h : CountsExact limiter openFrom) (c : Websocket)
    (connections : ℤ) : CountsExact (limiter.incrementCounters c connections).1
      (Function.update openFrom c.ip (openFrom c.ip + 1)) := by
  intro ip
  rw [ConnectionLimiter.incrementCounters]
  dsimp only
  by_cases hip : ip = c.ip
  · subst hip
    rw [Finmap.lookup_insert, h.incremented, Function.update_self, if_neg (Nat.succ_ne_zero _)]
  · rw [Finmap.lookup_insert_of_ne _ hip, Function.update_of_ne hip, h ip]

private theorem CountsExact.clientIpsWithout (h : CountsExact limiter openFrom)
    (hpos : openFrom ip ≠ 0) :
    limiter.clientIpsWithout ip = if openFrom ip = 1 then limiter.clientIps.erase ip
      else limiter.clientIps.insert ip (some ((openFrom ip - 1 : ℕ) : ℤ)) := by
  rw [ConnectionLimiter.clientIpsWithout, h ip, if_neg hpos]
  dsimp only
  have hone : (openFrom ip : ℤ) - 1 = 0 ↔ openFrom ip = 1 := by omega
  have hsub : (openFrom ip : ℤ) - 1 = ((openFrom ip - 1 : ℕ) : ℤ) := by omega
  simp only [hone]
  rw [hsub]

theorem CountsExact.decrementCounters (h : CountsExact limiter openFrom) (hcounted : c.ipCounted)
    (hpos : openFrom c.ip ≠ 0) : CountsExact (limiter.decrementCounters c)
      (Function.update openFrom c.ip (openFrom c.ip - 1)) := by
  intro ip
  rw [ConnectionLimiter.decrementCounters, if_pos hcounted, h.clientIpsWithout hpos]
  by_cases hip : ip = c.ip
  · subst hip
    rw [Function.update_self]
    split
    · next hone =>
      rw [Finmap.lookup_erase, hone]
      rfl
    · next hone =>
      rw [Finmap.lookup_insert, if_neg (by omega)]
  · rw [Function.update_of_ne hip]
    split
    · rw [Finmap.lookup_erase_ne hip, h ip]
    · rw [Finmap.lookup_insert_of_ne _ hip, h ip]

end Counters

namespace ConnectionState

/-- All connections have been counted, and the counters are exact. -/
structure WellCounted (st : ConnectionState) : Prop where
  counted : ∀ c ∈ st.connections, c.ipCounted = true
  exact : CountsExact st.limiter st.openFrom

section Steps

variable {settings : ConnectionSettings} {st t : ConnectionState} {e : ConnectionEvent} {i : ℕ}
variable {c c' : Websocket} {ip : String} {connections : ℤ}

private theorem wellCounted_init : WellCounted init where
  counted _ h := absurd h List.not_mem_nil
  exact _ := rfl

theorem WellCounted.set (h : st.WellCounted) (hc : st.connections[i]? = some c) (hip : c'.ip = c.ip)
    (hcounted : c'.ipCounted = c.ipCounted)
    (hclosed : c'.readyState = .closed ↔ c.readyState = .closed) :
    WellCounted { st with connections := st.connections.set i c' } := by
  obtain ⟨hi, hget⟩ := List.getElem?_eq_some_iff.mp hc
  have hopen : ∀ ip, isOpenFrom ip c' = isOpenFrom ip c := by
    intro ip
    simp only [isOpenFrom, hip, ne_eq, hclosed]
  constructor
  · intro d hd
    cases List.mem_or_eq_of_mem_set hd with
    | inl hold => exact h.counted d hold
    | inr hnew =>
      rw [hnew, hcounted]
      exact h.counted c (List.mem_of_getElem? hc)
  · have hsame : openFrom { st with connections := st.connections.set i c' } = st.openFrom := by
      funext ip
      rw [openFrom, openFrom, List.countP_set hi, hget, hopen]
      split
      · next hmem =>
        have hpos : 0 < st.connections.countP (isOpenFrom ip) :=
          List.countP_pos_iff.mpr ⟨c, List.mem_of_getElem? hc, hmem⟩
        omega
      · rfl
    rw [hsame]
    exact h.exact

@[simp] theorem close_ip (c : Websocket) : c.close.ip = c.ip := by
  rw [Websocket.close]
  split
  · rfl
  · rfl

@[simp] theorem close_ipCounted (c : Websocket) : c.close.ipCounted = c.ipCounted := by
  rw [Websocket.close]
  split
  · rfl
  · rfl

@[simp] theorem close_closed_iff (c : Websocket) :
    c.close.readyState = .closed ↔ c.readyState = .closed := by
  rw [Websocket.close]
  split
  · next hopen => simp [hopen]
  · rfl

private theorem expire_closed_iff (settings : ConnectionSettings) (c : Websocket) :
    (expire settings c).readyState = .closed ↔ c.readyState = .closed := by
  rw [expire]
  split
  · simp [Websocket.send]
  · rfl

private theorem expire_ip (settings : ConnectionSettings) (c : Websocket) :
    (expire settings c).ip = c.ip ∧ (expire settings c).ipCounted = c.ipCounted := by
  rw [expire]
  split
  · simp [Websocket.send]
  · exact ⟨rfl, rfl⟩

private theorem newConnection_counted (settings : ConnectionSettings) (st : ConnectionState)
    (ip : String) (connections : ℤ) : (st.newConnection settings ip connections).ip = ip ∧
      (st.newConnection settings ip connections).ipCounted = true ∧
        (st.newConnection settings ip connections).readyState ≠ .closed := by
  rw [newConnection, ConnectionLimiter.applyLimits]
  cases (st.counted ip connections).1.exceededLimit settings (st.counted ip connections).2 with
  | none => simp [counted, ConnectionLimiter.incrementCounters]
  | some exceeded => simp [counted, ConnectionLimiter.incrementCounters, Websocket.send]

private theorem PassesLimits.exceededLimit_eq_none (h : st.PassesLimits settings ip connections) :
    (st.counted ip connections).1.exceededLimit settings (st.counted ip connections).2 = none := by
  obtain ⟨hopen, -⟩ := h
  rw [newConnection, ConnectionLimiter.applyLimits] at hopen
  cases hexceeded : (st.counted ip connections).1.exceededLimit settings
      (st.counted ip connections).2 with
  | none => rfl
  | some exceeded =>
    rw [hexceeded] at hopen
    simp [counted, ConnectionLimiter.incrementCounters, Websocket.send, Websocket.close] at hopen

private theorem openFrom_openConnection (settings : ConnectionSettings) (st : ConnectionState)
    (ip : String) (connections : ℤ) : (st.openConnection settings ip connections).openFrom =
      Function.update st.openFrom ip (st.openFrom ip + 1) := by
  have happlied := newConnection_counted settings st ip connections
  funext other
  rw [openFrom, openConnection, List.countP_append, List.countP_singleton, isOpenFrom, happlied.1]
  by_cases hother : other = ip
  · subst hother
    rw [Function.update_self, if_pos (by simpa using happlied.2.2)]
    rfl
  · rw [Function.update_of_ne hother, if_neg (by simp [Ne.symm hother])]
    rfl

private theorem WellCounted.openConnection (h : st.WellCounted) :
    (st.openConnection settings ip connections).WellCounted := by
  constructor
  · intro c hc
    cases List.mem_append.mp hc with
    | inl hold => exact h.counted c hold
    | inr hnew =>
      rw [List.mem_singleton.mp hnew]
      exact (newConnection_counted settings st ip connections).2.1
  · rw [openFrom_openConnection]
    exact h.exact.incrementCounters { ip } connections

private theorem openFrom_handleConnectionClose (hc : st.connections[i]? = some c)
    (hopen : c.readyState ≠ .closed) : (st.handleConnectionClose i c).openFrom =
      Function.update st.openFrom c.ip (st.openFrom c.ip - 1) := by
  obtain ⟨hi, hget⟩ := List.getElem?_eq_some_iff.mp hc
  funext ip
  rw [openFrom, ConnectionState.handleConnectionClose, List.countP_set hi, hget]
  by_cases hip : ip = c.ip
  · subst hip
    simp [isOpenFrom, hopen, openFrom]
  · rw [Function.update_of_ne hip]
    simp [isOpenFrom, Ne.symm hip, openFrom]

theorem WellCounted.handleConnectionClose (h : st.WellCounted) (hc : st.connections[i]? = some c)
    (hopen : c.readyState ≠ .closed) : (st.handleConnectionClose i c).WellCounted := by
  have hmem : c ∈ st.connections := List.mem_of_getElem? hc
  constructor
  · intro d hd
    cases List.mem_or_eq_of_mem_set hd with
    | inl hold => exact h.counted d hold
    | inr hnew =>
      rw [hnew]
      exact h.counted c hmem
  · rw [openFrom_handleConnectionClose hc hopen]
    apply h.exact.decrementCounters (h.counted c hmem)
    have hpos : 0 < st.openFrom c.ip :=
      List.countP_pos_iff.mpr ⟨c, hmem, by simp [isOpenFrom, hopen]⟩
    exact hpos.ne'

theorem WellCounted.step (h : st.WellCounted) (hstep : st.step settings e = some t) :
    t.WellCounted := by
  cases e with
  | opened ip connections =>
    cases hstep
    exact h.openConnection
  | clientCloses i =>
    obtain ⟨c, hc, rfl⟩ := Option.map_eq_some_iff.mp hstep
    exact h.set hc (close_ip c) (close_ipCounted c) (close_closed_iff c)
  | message i =>
    obtain ⟨c, hc, rfl⟩ := Option.map_eq_some_iff.mp hstep
    exact h.set hc rfl rfl Iff.rfl
  | inactivityTTL i =>
    obtain ⟨c, hc, rfl⟩ := Option.map_eq_some_iff.mp hstep
    exact h.set (Option.filter_eq_some_iff.mp hc).1 (expire_ip settings c).1
      (expire_ip settings c).2 (expire_closed_iff settings c)
  | closeEvent i =>
    obtain ⟨c, hc, rfl⟩ := Option.map_eq_some_iff.mp hstep
    have hfound := Option.filter_eq_some_iff.mp hc
    exact h.handleConnectionClose hfound.1 (of_decide_eq_true hfound.2)

private theorem wellCounted_exec {events : List ConnectionEvent} (h : st.WellCounted)
    (hrun : exec (ConnectionState.step settings) st events = some t) : t.WellCounted := by
  induction events generalizing st with
  | nil =>
    cases hrun
    exact h
  | cons e events ih =>
    obtain ⟨u, hstep, hrest⟩ := exec_cons_eq_some.mp hrun
    exact ih (h.step hstep) hrest

private theorem WellCounted.openFrom_le (h : st.WellCounted)
    (hpasses : st.PassesLimits settings ip connections) :
    ((st.openConnection settings ip connections).openFrom ip : ℤ) ≤
      settings.connectionLimitPerIp := by
  have hexact := (@WellCounted.openConnection settings st ip connections h).exact ip
  have hpos : (st.openConnection settings ip connections).openFrom ip ≠ 0 := by
    rw [openFrom_openConnection, Function.update_self]
    exact Nat.succ_ne_zero _
  rw [if_neg hpos] at hexact
  have hnone := hpasses.exceededLimit_eq_none
  rw [ConnectionLimiter.exceededLimit] at hnone
  by_contra hexceeds
  have hany : ((st.counted ip connections).1.clientIps.lookup
      (st.counted ip connections).2.ip).join.any
        (fun n => decide (n ≠ 0 ∧ n > settings.connectionLimitPerIp)) = true := by
    have hlookup : (st.counted ip connections).1.clientIps.lookup
        (st.counted ip connections).2.ip = _ := hexact
    rw [hlookup]
    simpa [hpos] using hexceeds
  rw [hany] at hnone
  split at hnone
  · cases hnone
  · cases hnone

def twoPerIp : ConnectionSettings := ⟨10, 2, 300000⟩

/-- A third connection is refused, and one of the first two is closed. -/
def thirdRefused : List ConnectionEvent :=
  [.opened "10.0.0.1" 1, .opened "10.0.0.1" 2, .opened "10.0.0.1" 3, .clientCloses 0,
    .closeEvent 2, .closeEvent 0]

end Steps

end ConnectionState

end JsonRpcRelay.WsServer
