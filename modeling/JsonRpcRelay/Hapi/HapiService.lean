import JsonRpcRelay.Framework.DoubleFractions
import JsonRpcRelay.Framework.Schedule

/-!
# The HAPI service

Every request to the network goes through the SDK client of the service.  The service replaces its
client after a number of requests, after an error with one of the configured codes, and after some
time.
-/

namespace JsonRpcRelay.Hapi

open Framework

/-- `HAPI_CLIENT_TRANSACTION_RESET`, `HAPI_CLIENT_DURATION_RESET` and `HAPI_CLIENT_ERROR_RESET`. -/
structure HapiSettings where
  transactionReset : Binary64
  durationReset : Binary64
  errorReset : List Binary64

/-- An instance, with the time at which it was made. -/
structure SDKClient where
  serial : ℕ
  madeAt : ℕ
  deriving DecidableEq

structure HAPIService where
  transactionCount : Binary64
  errorCodes : List Binary64
  resetDuration : Binary64
  shouldReset : Bool
  isReinitEnabled : Bool
  isTimeResetDisabled : Bool
  initialTransactionCount : Binary64
  initialErrorCodes : List Binary64
  initialResetDuration : Binary64
  client : SDKClient
  deriving DecidableEq

namespace HAPIService

/-- The constructor, with the client that it has made. -/
def create (settings : HapiSettings) (client : SDKClient) (currentDateNow : ℕ) : HAPIService :=
  let transactionCount := settings.transactionReset
  let errorCodes := settings.errorReset
  let resetDuration := (Binary64.ofNat currentDateNow).add settings.durationReset
  let isTimeResetDisabled := resetDuration.equals (.ofNat currentDateNow)
  { initialTransactionCount := transactionCount
    initialResetDuration := settings.durationReset
    initialErrorCodes := errorCodes
    transactionCount
    resetDuration
    errorCodes
    isReinitEnabled :=
      !(transactionCount.equals (.ofNat 0) && errorCodes.isEmpty && isTimeResetDisabled)
    isTimeResetDisabled
    shouldReset := false
    client }

variable (hapi : HAPIService) (now : ℕ)

def decrementTransactionCounter : HAPIService :=
  if hapi.transactionCount.equals (.ofNat 0) then hapi
  else
    let transactionCount := hapi.transactionCount.sub (.ofNat 1)
    if transactionCount.le (.ofNat 0) then { hapi with transactionCount, shouldReset := true }
    else { hapi with transactionCount }

/-- `includes` finds `NaN`, as the equality of Lean does. -/
def decrementErrorCounter (statusCode : Binary64) : HAPIService :=
  if !hapi.isReinitEnabled || hapi.errorCodes.isEmpty then hapi
  else if statusCode ∈ hapi.errorCodes then { hapi with shouldReset := true }
  else hapi

def checkResetDuration : HAPIService :=
  if hapi.isTimeResetDisabled then hapi
  else if hapi.resetDuration.lt (.ofNat now) then { hapi with shouldReset := true }
  else hapi

/-- The service with a new client, from which everything is counted again. -/
def resetClient (client : SDKClient) : HAPIService :=
  { hapi with
    client
    transactionCount := hapi.initialTransactionCount
    resetDuration := (Binary64.ofNat now).add hapi.initialResetDuration
    shouldReset := false }

end HAPIService

/-- The service, the number of clients that were made, and the clock in milliseconds. -/
structure HapiState where
  hapi : HAPIService
  clients : ℕ
  now : ℕ
  deriving DecidableEq

namespace HapiState

def start (settings : HapiSettings) (now : ℕ) : HapiState where
  hapi := .create settings ⟨0, now⟩ now
  clients := 1
  now := now

variable (s : HapiState)

/-- The next instance of the client. -/
def initSDKClient : SDKClient := ⟨s.clients, s.now⟩

def resetClient : HapiState :=
  { s with hapi := s.hapi.resetClient s.now s.initSDKClient, clients := s.clients + 1 }

/-- The state in which a request takes the client. -/
def renewed : HapiState := if s.hapi.shouldReset then s.resetClient else s

/-- The client that a request takes.  Some time may pass until the clock is read for the second
time. -/
def getSDKClient (elapsed : ℕ) : SDKClient × HapiState :=
  if !s.hapi.isReinitEnabled then (s.hapi.client, s)
  else
    let s := s.renewed
    let now := s.now + elapsed
    let hapi := s.hapi.decrementTransactionCounter.checkResetDuration now
    (hapi.client, { s with hapi, now })

end HapiState

inductive HapiEvent where
  | request (elapsed : ℕ)
  | error (statusCode : Binary64)
  | advance (milliseconds : ℕ)

def HapiEvent.isRequest : HapiEvent → Bool
  | .request _ => true
  | .error _ | .advance _ => false

namespace HapiState

def next (s : HapiState) : HapiEvent → HapiState
  | .request elapsed => (s.getSDKClient elapsed).2
  | .error statusCode => { s with hapi := s.hapi.decrementErrorCounter statusCode }
  | .advance milliseconds => { s with now := s.now + milliseconds }

def given (s : HapiState) : HapiEvent → List SDKClient
  | .request elapsed => [(s.getSDKClient elapsed).1]
  | .error _ | .advance _ => []

end HapiState

section Runs

variable (settings : HapiSettings) (start : ℕ) (events : List HapiEvent)

def after : HapiState := events.foldl HapiState.next (.start settings start)

/-- The clients that requests got, in order. -/
def handedOut : List SDKClient :=
  trace (total HapiState.next) HapiState.given (.start settings start) events

/-- The client that a request gets after the events. -/
def clientAfter (elapsed : ℕ) : SDKClient := ((after settings start events).getSDKClient elapsed).1

/-- A request after the events gets a client that no request has got before. -/
def IsFresh (elapsed : ℕ) : Prop :=
  clientAfter settings start events elapsed ∉ handedOut settings start events

instance (elapsed : ℕ) : Decidable (IsFresh settings start events elapsed) :=
  inferInstanceAs (Decidable (_ ∉ _))

end Runs

end JsonRpcRelay.Hapi
