import JsonRpcRelay.Hapi.HapiService

/-!
# Reuse of the SDK client

A client is handed out as often as the count says at most.  After an error with a configured code,
and after a request with a client whose time is over, the next request gets a new client.  The time
starts anew with every client.
-/

namespace JsonRpcRelay.Hapi

open Framework Binary64

namespace HapiSettings

variable (settings : HapiSettings)

/-- The duration is long enough to change the time of the start. -/
def TimeResets (start : ℕ) : Prop :=
  ((ofNat start).add settings.durationReset).equals (ofNat start) = false

/-- The reset duration has elapsed since the client was made. -/
def IsOver (client : SDKClient) (now : ℕ) : Prop :=
  ((ofNat client.madeAt).add settings.durationReset).lt (ofNat now) = true

instance (start : ℕ) : Decidable (settings.TimeResets start) := inferInstanceAs (Decidable (_ = _))

instance (client : SDKClient) (now : ℕ) : Decidable (settings.IsOver client now) :=
  inferInstanceAs (Decidable (_ = _))

theorem timeResets_iff {duration start : ℕ} (hduration : settings.durationReset = ofNat duration)
    (hend : start + duration ≤ 2 ^ 53) : settings.TimeResets start ↔ duration ≠ 0 := by
  have hequals := ofNat_equals_ofNat hend (show start ≤ 2 ^ 53 by omega)
  rw [TimeResets, hduration, ofNat_add hend, ← Bool.not_eq_true, hequals]
  omega

theorem isOver_iff {duration now : ℕ} {client : SDKClient}
    (hduration : settings.durationReset = ofNat duration)
    (hend : client.madeAt + duration ≤ 2 ^ 53) (hnow : now ≤ 2 ^ 53) :
    settings.IsOver client now ↔ client.madeAt + duration < now := by
  rw [IsOver, hduration, ofNat_add hend, ofNat_lt_ofNat hend hnow]

end HapiSettings

section Steps

variable {settings : HapiSettings} {start now : ℕ} {hapi : HAPIService} {statusCode : Binary64}

/-- What does not change, or changes with the client only. -/
structure Configured (settings : HapiSettings) (start : ℕ) (hapi : HAPIService) : Prop where
  errorCodes : hapi.errorCodes = settings.errorReset
  initialTransactionCount : hapi.initialTransactionCount = settings.transactionReset
  initialResetDuration : hapi.initialResetDuration = settings.durationReset
  isTimeResetDisabled : hapi.isTimeResetDisabled = true ↔ ¬settings.TimeResets start
  isReinitEnabled : hapi.isReinitEnabled = false ↔
    settings.transactionReset.equals (ofNat 0) = true ∧ settings.errorReset = [] ∧
      ¬settings.TimeResets start
  resetDuration : hapi.resetDuration = (ofNat hapi.client.madeAt).add settings.durationReset

private theorem configured_create (client : SDKClient) :
    Configured settings client.madeAt (.create settings client client.madeAt) where
  errorCodes := rfl
  initialTransactionCount := rfl
  initialResetDuration := rfl
  isTimeResetDisabled := by simp [HAPIService.create, HapiSettings.TimeResets]
  isReinitEnabled := by simp [HAPIService.create, HapiSettings.TimeResets, and_assoc]
  resetDuration := rfl

/-- All that these methods change are the counter and the flag. -/
theorem decrementTransactionCounter_eq : hapi.decrementTransactionCounter =
    { hapi with
      transactionCount := hapi.decrementTransactionCounter.transactionCount
      shouldReset := hapi.decrementTransactionCounter.shouldReset } := by
  unfold HAPIService.decrementTransactionCounter
  split
  · rfl
  · dsimp only
    split <;> rfl

private theorem with_shouldReset_eq {flag : Bool} (h : flag = hapi.shouldReset) :
    { hapi with shouldReset := flag } = hapi := by
  rw [h]

private theorem checkResetDuration_eq : hapi.checkResetDuration now =
    { hapi with shouldReset :=
        hapi.shouldReset || !hapi.isTimeResetDisabled && hapi.resetDuration.lt (ofNat now) } := by
  rw [HAPIService.checkResetDuration]
  split
  · rename_i hdisabled
    rw [with_shouldReset_eq (by simp [hdisabled])]
  · rename_i hdisabled
    split
    · rename_i hover
      rw [Bool.not_eq_true] at hdisabled
      rw [hdisabled, hover, Bool.not_false, Bool.true_and, Bool.or_true]
    · rename_i hover
      rw [with_shouldReset_eq (by simp [hover])]

private theorem decrementErrorCounter_eq : hapi.decrementErrorCounter statusCode = { hapi with
    shouldReset :=
      hapi.shouldReset || hapi.isReinitEnabled && decide (statusCode ∈ hapi.errorCodes) } := by
  rw [HAPIService.decrementErrorCounter]
  split
  · rename_i hdisabled
    have hmissed : (hapi.isReinitEnabled && decide (statusCode ∈ hapi.errorCodes)) = false := by
      rcases (Bool.or_eq_true _ _).mp hdisabled with hreinit | hempty
      · rw [Bool.not_eq_true'] at hreinit
        rw [hreinit, Bool.false_and]
      · simp [List.isEmpty_iff.mp hempty]
    rw [hmissed, with_shouldReset_eq (Bool.or_false _)]
  · rename_i hactive
    simp only [Bool.or_eq_true, Bool.not_eq_true', not_or, Bool.not_eq_false] at hactive
    split
    · rename_i hmem
      rw [hactive.1, decide_eq_true hmem, Bool.true_and, Bool.or_true]
    · rename_i hmem
      rw [with_shouldReset_eq (by simp [hmem])]

@[simp] theorem decrementTransactionCounter_client :
    hapi.decrementTransactionCounter.client = hapi.client := by
  rw [decrementTransactionCounter_eq]

@[simp] theorem checkResetDuration_client : (hapi.checkResetDuration now).client = hapi.client := by
  rw [checkResetDuration_eq]

private theorem decrementTransactionCounter_of_pos
    (hpos : (ofNat 0).lt hapi.transactionCount = true) :
    hapi.decrementTransactionCounter = { hapi with
      transactionCount := hapi.transactionCount.sub (ofNat 1)
      shouldReset := hapi.shouldReset || (hapi.transactionCount.sub (ofNat 1)).le (ofNat 0) } := by
  rw [HAPIService.decrementTransactionCounter, equals_eq_false_of_lt hpos]
  cases hle : (hapi.transactionCount.sub (ofNat 1)).le (ofNat 0) with
  | true => simp [hle]
  | false => simp [hle]

private theorem Configured.recount (h : Configured settings start hapi)
    (transactionCount : Binary64)
    (shouldReset : Bool) : Configured settings start { hapi with transactionCount, shouldReset } :=
  ⟨h.errorCodes, h.initialTransactionCount, h.initialResetDuration, h.isTimeResetDisabled,
    h.isReinitEnabled, h.resetDuration⟩

theorem Configured.decrementTransactionCounter (h : Configured settings start hapi) :
    Configured settings start hapi.decrementTransactionCounter := by
  rw [decrementTransactionCounter_eq]
  exact h.recount _ _

theorem Configured.checkResetDuration (h : Configured settings start hapi) :
    Configured settings start (hapi.checkResetDuration now) := by
  rw [checkResetDuration_eq]
  exact h.recount _ _

theorem Configured.decrementErrorCounter (h : Configured settings start hapi) :
    Configured settings start (hapi.decrementErrorCounter statusCode) := by
  rw [decrementErrorCounter_eq]
  exact h.recount _ _

theorem Configured.resetClient (h : Configured settings start hapi) (client : SDKClient) :
    Configured settings start (hapi.resetClient client.madeAt client) where
  errorCodes := h.errorCodes
  initialTransactionCount := h.initialTransactionCount
  initialResetDuration := h.initialResetDuration
  isTimeResetDisabled := h.isTimeResetDisabled
  isReinitEnabled := h.isReinitEnabled
  resetDuration := congrArg (add _) h.initialResetDuration

end Steps

section States

variable {settings : HapiSettings} {start elapsed : ℕ} {s : HapiState} {given : List SDKClient}

/-- The clients that were given to requests were made before the next one. -/
structure Sound (settings : HapiSettings) (start : ℕ) (s : HapiState) (given : List SDKClient) :
    Prop extends Configured settings start s.hapi where
  serial : s.hapi.client.serial < s.clients
  serials : ∀ client ∈ given, client.serial < s.clients

private theorem sound_start : Sound settings start (.start settings start) [] where
  toConfigured := configured_create ⟨0, start⟩
  serial := Nat.zero_lt_one
  serials := by simp

theorem Sound.renewed (h : Sound settings start s given) :
    Sound settings start s.renewed given := by
  rw [HapiState.renewed]
  split
  · exact {
      toConfigured := h.toConfigured.resetClient s.initSDKClient
      serial := Nat.lt_succ_self _
      serials := fun client hmem => Nat.lt_succ_of_lt (h.serials client hmem) }
  · exact h

private theorem getSDKClient_of_disabled (hdisabled : s.hapi.isReinitEnabled = false) :
    s.getSDKClient elapsed = (s.hapi.client, s) := by
  simp [HapiState.getSDKClient, hdisabled]

private theorem getSDKClient_of_enabled (henabled : s.hapi.isReinitEnabled = true) :
    s.getSDKClient elapsed = (s.renewed.hapi.client, { s.renewed with
      hapi := s.renewed.hapi.decrementTransactionCounter.checkResetDuration
        (s.renewed.now + elapsed)
      now := s.renewed.now + elapsed }) := by
  simp [HapiState.getSDKClient, henabled]

theorem Sound.getSDKClient (h : Sound settings start s given) :
    Sound settings start (s.getSDKClient elapsed).2
      (given ++ [(s.getSDKClient elapsed).1]) := by
  cases henabled : s.hapi.isReinitEnabled with
  | false =>
    rw [getSDKClient_of_disabled henabled]
    refine ⟨h.toConfigured, h.serial, ?_⟩
    simpa [or_imp, forall_and] using ⟨h.serials, h.serial⟩
  | true =>
    rw [getSDKClient_of_enabled henabled]
    have hrenewed := h.renewed
    refine ⟨hrenewed.toConfigured.decrementTransactionCounter.checkResetDuration, ?_, ?_⟩
    · simpa using hrenewed.serial
    · simpa [or_imp, forall_and] using ⟨hrenewed.serials, hrenewed.serial⟩

theorem Sound.next (h : Sound settings start s given) (e : HapiEvent) :
    Sound settings start (s.next e) (given ++ s.given e) := by
  cases e with
  | request elapsed => exact h.getSDKClient
  | error statusCode =>
    rw [HapiState.given, List.append_nil]
    refine ⟨h.toConfigured.decrementErrorCounter, ?_, h.serials⟩
    rw [HapiState.next, decrementErrorCounter_eq]
    exact h.serial
  | advance milliseconds =>
    rw [HapiState.given, List.append_nil]
    exact ⟨h.toConfigured, h.serial, h.serials⟩

private theorem sound_after (settings : HapiSettings) (start : ℕ) (events : List HapiEvent) :
    Sound settings start (after settings start events) (handedOut settings start events) :=
  total_trace_invariant HapiState.given (fun _ e _ h => h.next e) sound_start events

/-- A service that cannot be reset keeps its client, and counts nothing. -/
theorem handedOut_of_disabled (events : List HapiEvent)
    (hdisabled : (HapiState.start settings start).hapi.isReinitEnabled = false) :
    (after settings start events).hapi = .create settings ⟨0, start⟩ start ∧
      ∀ client ∈ handedOut settings start events, client = ⟨0, start⟩ := by
  refine total_trace_invariant HapiState.given (I := fun s given =>
    s.hapi = .create settings ⟨0, start⟩ start ∧ ∀ client ∈ given, client = ⟨0, start⟩)
    (fun s e given h => ?_) ⟨rfl, by simp⟩ events
  obtain ⟨hhapi, hgiven⟩ := h
  have hkept : s.hapi.isReinitEnabled = false := hhapi ▸ hdisabled
  cases e with
  | request elapsed =>
    have hclient : s.hapi.client = ⟨0, start⟩ := hhapi ▸ rfl
    rw [HapiState.next, HapiState.given, getSDKClient_of_disabled hkept, hclient]
    refine ⟨hhapi, ?_⟩
    simpa [or_imp, forall_and] using hgiven
  | error statusCode =>
    rw [HapiState.next, HapiState.given, List.append_nil, HAPIService.decrementErrorCounter, hkept]
    exact ⟨hhapi, hgiven⟩
  | advance milliseconds =>
    rw [HapiState.given, List.append_nil]
    exact ⟨hhapi, hgiven⟩

end States

section Count

variable {settings : HapiSettings} {start m uses elapsed : ℕ} {s : HapiState}
  {given : List SDKClient} {count : Binary64}

/-- A client that was handed out `uses` times can be handed out at least once more, and no more
often than the counter says, which makes `m` times at most. -/
def Room (m : ℕ) (count : Binary64) (uses : ℕ) : Prop :=
  (ofNat 0).lt count = true ∧ ∃ left, count.le (ofNat left) = true ∧ uses + left ≤ m

private theorem Room.exists_succ (h : Room m count uses) :
    ∃ left, count.le (ofNat (left + 1)) = true ∧ uses + 1 + left ≤ m := by
  obtain ⟨hpos, left, hle, hsum⟩ := h
  cases left with
  | zero =>
    rw [not_lt_of_le hle] at hpos
    cases hpos
  | succ left => exact ⟨left, hle, by omega⟩

private theorem Room.uses_lt (h : Room m count uses) : uses < m := by
  obtain ⟨left, -, hsum⟩ := h.exists_succ
  omega

private theorem Room.sub_one (h : Room m count uses) (hm : m ≤ 2 ^ 53 + 2)
    (hmore : (count.sub (ofNat 1)).le (ofNat 0) = false) :
    Room m (count.sub (ofNat 1)) (uses + 1) := by
  obtain ⟨left, hle, hsum⟩ := h.exists_succ
  have hless : (count.sub (ofNat 1)).le (ofNat left) = true := sub_one_le hle (by omega)
  exact ⟨lt_of_not_le (le_iff.mp hless).1 (round_ne_nan _) hmore, left, hless, hsum⟩

/-- No client was handed out more than `m` times, and there is room if the client of the service
is not to be replaced. -/
structure Bounded (m : ℕ) (s : HapiState) (given : List SDKClient) : Prop where
  most : ∀ client, given.count client ≤ m
  room : s.hapi.shouldReset = false → Room m s.hapi.transactionCount (given.count s.hapi.client)

private theorem room_start (hpos : (ofNat 0).lt settings.transactionReset = true)
    (hle : settings.transactionReset.le (ofNat m) = true) : Room m settings.transactionReset 0 :=
  ⟨hpos, m, hle, (Nat.zero_add m).le⟩

private theorem room_renewed (hs : Sound settings start s given) (h : Bounded m s given)
    (hroom : Room m settings.transactionReset 0) :
    Room m s.renewed.hapi.transactionCount (given.count s.renewed.hapi.client) := by
  rw [HapiState.renewed]
  split
  · have hnew : given.count s.initSDKClient = 0 := by
      rw [List.count_eq_zero]
      exact fun hmem => Nat.lt_irrefl _ (hs.serials _ hmem)
    change Room m s.hapi.initialTransactionCount (given.count s.initSDKClient)
    rw [hs.initialTransactionCount, hnew]
    exact hroom
  · rename_i hkeep
    exact h.room (Bool.eq_false_iff.mpr hkeep)

private theorem isReinitEnabled_of_room (hs : Sound settings start s given)
    (hroom : Room m settings.transactionReset 0) : s.hapi.isReinitEnabled = true := by
  by_contra hdisabled
  have hzero := (hs.isReinitEnabled.mp (Bool.eq_false_iff.mpr hdisabled)).1
  rw [equals_eq_false_of_lt hroom.1] at hzero
  cases hzero

theorem Bounded.getSDKClient (hs : Sound settings start s given) (h : Bounded m s given)
    (hroom : Room m settings.transactionReset 0) (hm : m ≤ 2 ^ 53 + 2) :
    Bounded m (s.getSDKClient elapsed).2 (given ++ [(s.getSDKClient elapsed).1]) := by
  have hrenewed := room_renewed hs h hroom
  rw [getSDKClient_of_enabled (isReinitEnabled_of_room hs hroom)]
  refine ⟨fun client => ?_, fun hkeep => ?_⟩
  · rw [List.count_append]
    rcases eq_or_ne s.renewed.hapi.client client with rfl | hne
    · rw [List.count_singleton_self]
      exact hrenewed.uses_lt
    · rw [List.count_singleton, if_neg (by simpa using hne)]
      exact h.most client
  · rw [checkResetDuration_eq, decrementTransactionCounter_of_pos hrenewed.1] at hkeep ⊢
    simp only [Bool.or_eq_false_iff] at hkeep
    rw [List.count_append, List.count_singleton_self]
    exact hrenewed.sub_one hm hkeep.1.2

theorem Bounded.next (hs : Sound settings start s given) (h : Bounded m s given)
    (hroom : Room m settings.transactionReset 0) (hm : m ≤ 2 ^ 53 + 2) (e : HapiEvent) :
    Bounded m (s.next e) (given ++ s.given e) := by
  cases e with
  | request elapsed => exact h.getSDKClient hs hroom hm
  | error statusCode =>
    rw [HapiState.given, List.append_nil]
    refine ⟨h.most, fun hkeep => ?_⟩
    rw [HapiState.next, decrementErrorCounter_eq] at hkeep ⊢
    exact h.room (Bool.or_eq_false_iff.mp hkeep).1
  | advance milliseconds =>
    rw [HapiState.given, List.append_nil]
    exact ⟨h.most, h.room⟩

private theorem bounded_after (hroom : Room m settings.transactionReset 0) (hm : m ≤ 2 ^ 53 + 2)
    (events : List HapiEvent) :
    Bounded m (after settings start events) (handedOut settings start events) := by
  have hstart : Bounded m (.start settings start) [] := ⟨by simp, fun _ => hroom⟩
  exact (total_trace_invariant HapiState.given
    (I := fun s given => Sound settings start s given ∧ Bounded m s given)
    (fun s e given h => ⟨h.1.next e, h.2.next h.1 hroom hm e⟩) ⟨sound_start, hstart⟩ events).2

end Count

section Fresh

variable {settings : HapiSettings} {start elapsed : ℕ} {s : HapiState}
  {events between : List HapiEvent} {statusCode : Binary64}

/-- A request gets a new client if the service is to be reset. -/
theorem isFresh_of_shouldReset
    (henabled : (after settings start events).hapi.isReinitEnabled = true)
    (hreset : (after settings start events).hapi.shouldReset = true) :
    IsFresh settings start events elapsed := by
  have hclient : clientAfter settings start events elapsed =
      (after settings start events).initSDKClient := by
    rw [clientAfter, getSDKClient_of_enabled henabled, HapiState.renewed, if_pos hreset]
    rfl
  rw [IsFresh, hclient]
  intro hmem
  exact Nat.lt_irrefl _ ((sound_after settings start events).serials _ hmem)

private theorem shouldReset_next {e : HapiEvent} (hother : e.isRequest = false)
    (hreset : s.hapi.shouldReset = true) : (s.next e).hapi.shouldReset = true := by
  cases e with
  | request elapsed => cases hother
  | error statusCode =>
    rw [HapiState.next, decrementErrorCounter_eq, hreset, Bool.true_or]
  | advance milliseconds => exact hreset

private theorem shouldReset_foldl (hbetween : ∀ e ∈ between, e.isRequest = false)
    (hreset : s.hapi.shouldReset = true) :
    (between.foldl HapiState.next s).hapi.shouldReset = true := by
  induction between generalizing s with
  | nil => exact hreset
  | cons e between ih =>
    have hnext := shouldReset_next (hbetween e List.mem_cons_self) hreset
    exact ih (fun f hf => hbetween f (List.mem_cons_of_mem e hf)) hnext

private theorem shouldReset_error {given : List SDKClient} (hs : Sound settings start s given)
    (henabled : s.hapi.isReinitEnabled = true) (hmem : statusCode ∈ settings.errorReset) :
    (s.next (.error statusCode)).hapi.shouldReset = true := by
  rw [HapiState.next, decrementErrorCounter_eq, henabled, hs.errorCodes, decide_eq_true hmem,
    Bool.true_and, Bool.or_true]

private theorem shouldReset_request {given : List SDKClient} (hs : Sound settings start s given)
    (henabled : s.hapi.isReinitEnabled = true) (htime : settings.TimeResets start)
    (hover : settings.IsOver (s.getSDKClient elapsed).1 (s.getSDKClient elapsed).2.now) :
    (s.next (.request elapsed)).hapi.shouldReset = true := by
  have hcount := hs.renewed.toConfigured.decrementTransactionCounter
  have hactive : s.renewed.hapi.decrementTransactionCounter.isTimeResetDisabled = false :=
    Bool.eq_false_iff.mpr fun hdisabled => hcount.isTimeResetDisabled.mp hdisabled htime
  rw [getSDKClient_of_enabled henabled] at hover
  rw [HapiState.next, getSDKClient_of_enabled henabled, checkResetDuration_eq,
    hcount.resetDuration, decrementTransactionCounter_client, hactive]
  simp only [Bool.not_false, Bool.true_and, Bool.or_eq_true]
  exact Or.inr hover

private theorem after_append (e : HapiEvent) :
    after settings start (events ++ e :: between) =
      between.foldl HapiState.next ((after settings start events).next e) := by
  rw [after, List.foldl_append, List.foldl_cons, ← after]

/-- The client that a request gets is handed out after those of the requests before. -/
theorem handedOut_request : handedOut settings start (events ++ [.request elapsed]) =
    handedOut settings start events ++ [clientAfter settings start events elapsed] := by
  rw [handedOut, trace_total_append]
  rfl

/-- Settings with a code or a duration enable the service to replace its client. -/
theorem isReinitEnabled_of_trigger
    (h : settings.errorReset ≠ [] ∨ settings.TimeResets start) :
    (after settings start events).hapi.isReinitEnabled = true := by
  by_contra hdisabled
  have hs := sound_after settings start events
  obtain ⟨-, hcodes, htime⟩ := hs.isReinitEnabled.mp (Bool.eq_false_iff.mpr hdisabled)
  rcases h with hne | htrue
  · exact hne hcodes
  · exact htime htrue

private theorem isFresh_of_trigger {e : HapiEvent} (hbetween : ∀ f ∈ between, f.isRequest = false)
    (htrigger : settings.errorReset ≠ [] ∨ settings.TimeResets start)
    (hreset : ((after settings start events).next e).hapi.shouldReset = true) :
    IsFresh settings start (events ++ e :: between) elapsed := by
  apply isFresh_of_shouldReset (isReinitEnabled_of_trigger htrigger)
  rw [after_append]
  exact shouldReset_foldl hbetween hreset

end Fresh

section Reuse

variable (settings : HapiSettings) (start : ℕ) (events : List HapiEvent)

/-- The state after a request that follows the events. -/
def afterRequest (elapsed : ℕ) : HapiState := after settings start (events ++ [.request elapsed])

private theorem afterRequest_eq (elapsed : ℕ) : afterRequest settings start events elapsed =
    ((after settings start events).getSDKClient elapsed).2 := after_append (.request elapsed)

/-- With a count of at most `m` no client is handed out more than `m` times.  The request that
follows an error with a configured code gets a client that no request has got before, and so does
the request that follows one with a client whose time is over. -/
theorem reuse_bounded :
    (∀ m ≤ 2 ^ 53 + 2, (ofNat 0).lt settings.transactionReset = true →
      settings.transactionReset.le (ofNat m) = true →
      ∀ client, (handedOut settings start events).count client ≤ m) ∧
    (∀ statusCode between elapsed, statusCode ∈ settings.errorReset →
      (∀ e ∈ between, e.isRequest = false) →
      IsFresh settings start (events ++ .error statusCode :: between) elapsed) ∧
    (∀ elapsed between elapsed', settings.TimeResets start →
      settings.IsOver (clientAfter settings start events elapsed)
        (afterRequest settings start events elapsed).now →
      (∀ e ∈ between, e.isRequest = false) →
      IsFresh settings start (events ++ .request elapsed :: between) elapsed') := by
  have hs := sound_after settings start events
  refine ⟨fun m hm hpos hle => ?_, fun statusCode between elapsed hmem hbetween => ?_,
    fun elapsed between elapsed' htime hover hbetween => ?_⟩
  · exact (bounded_after (room_start hpos hle) hm events).most
  · have htrigger : settings.errorReset ≠ [] ∨ settings.TimeResets start :=
      Or.inl (List.ne_nil_of_mem hmem)
    have henabled : (after settings start events).hapi.isReinitEnabled = true :=
      isReinitEnabled_of_trigger htrigger
    exact isFresh_of_trigger hbetween htrigger (shouldReset_error hs henabled hmem)
  · have henabled : (after settings start events).hapi.isReinitEnabled = true :=
      isReinitEnabled_of_trigger (Or.inr htime)
    rw [afterRequest_eq] at hover
    exact isFresh_of_trigger hbetween (Or.inr htime)
      (shouldReset_request hs henabled htime hover)

/-- Two requests, an error with a code of the list, a request, and one when the time of the client
is over. -/
theorem reuse_bounded_of_two :
    let settings : HapiSettings := ⟨ofNat 2, ofNat 100, [ofNat 50]⟩
    let events : List HapiEvent := [.request 0, .request 0, .error (ofNat 50), .request 0]
    (∀ client, (handedOut settings 0 events).count client ≤ 2) ∧
      IsFresh settings 0 [.request 0, .error (ofNat 50)] 0 ∧
      IsFresh settings 0 [.advance 101, .request 0] 0 :=
  have hover : HapiSettings.IsOver ⟨ofNat 2, ofNat 100, [ofNat 50]⟩
      (clientAfter ⟨ofNat 2, ofNat 100, [ofNat 50]⟩ 0 [.advance 101] 0)
      (afterRequest ⟨ofNat 2, ofNat 100, [ofNat 50]⟩ 0 [.advance 101] 0).now := by decide +kernel
  ⟨(reuse_bounded ⟨ofNat 2, ofNat 100, [ofNat 50]⟩ 0 _).1 2 (by decide) (by decide +kernel)
      (by decide +kernel),
    (reuse_bounded ⟨ofNat 2, ofNat 100, [ofNat 50]⟩ 0 [.request 0]).2.1 (ofNat 50) [] 0
      List.mem_cons_self (by simp),
    (reuse_bounded ⟨ofNat 2, ofNat 100, [ofNat 50]⟩ 0 [.advance 101]).2.2 0 [] 0
      (by decide +kernel) hover (by simp)⟩

private theorem trace_replicate {s : HapiState} {client : SDKClient} {elapsed : ℕ}
    (hsame : s.getSDKClient elapsed = (client, s)) (k : ℕ) :
    trace (total HapiState.next) HapiState.given s (List.replicate k (.request elapsed)) =
      List.replicate k client := by
  induction k with
  | zero => rfl
  | succ k ih =>
    rw [List.replicate_succ, trace, total, HapiState.given, HapiState.next, hsame,
      Option.elim_some, ih]
    rfl

/-- One cannot be taken away from `2 ^ 53 + 4`. -/
theorem handedOut_of_large_count (k : ℕ) :
    handedOut ⟨ofNat (2 ^ 53 + 4), ofNat 0, []⟩ 0 (List.replicate k (.request 0)) =
      List.replicate k ⟨0, 0⟩ :=
  trace_replicate (by decide +kernel) k

/-- The time of a client is over when the third request is made, but that request gets a new
client, whose time starts then.  A count of one and a half makes two requests, a count of
`2 ^ 53 + 4` any number of them, and a duration of zero makes no request get a new client. -/
theorem reuse_exceeds :
    (HapiSettings.IsOver ⟨ofNat 2, ofNat 100, []⟩
        (after ⟨ofNat 2, ofNat 100, []⟩ 0 [.request 0, .request 0, .advance 200]).hapi.client 200 ∧
      ¬IsFresh ⟨ofNat 2, ofNat 100, []⟩ 0
        [.request 0, .request 0, .advance 200, .request 0] 0) ∧
    (handedOut ⟨Binary64.round (3 * 2 ^ 1073), ofNat 0, []⟩ 0
      [.request 0, .request 0]).count ⟨0, 0⟩ = 2 ∧
    (∃ events, 2 ^ 53 + 4 <
      (handedOut ⟨ofNat (2 ^ 53 + 4), ofNat 0, []⟩ 0 events).count ⟨0, 0⟩) ∧
    (HapiSettings.IsOver ⟨ofNat 2, ofNat 0, []⟩ ⟨0, 0⟩ 1 ∧
      ¬IsFresh ⟨ofNat 2, ofNat 0, []⟩ 0 [.advance 1, .request 0] 0) := by
  refine ⟨by decide +kernel, by decide +kernel, ?_, by decide +kernel⟩
  refine ⟨List.replicate (2 ^ 53 + 5) (.request 0), ?_⟩
  rw [handedOut_of_large_count, List.count_replicate_self]
  exact Nat.lt_succ_self _

end Reuse

end JsonRpcRelay.Hapi
