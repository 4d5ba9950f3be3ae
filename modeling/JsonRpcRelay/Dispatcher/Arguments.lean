import JsonRpcRelay.Dispatcher.RpcMethodRegistry
import JsonRpcRelay.Validators.Accepted

/-!
# The arguments of a method

Whether the parameters of a request and the details of the request reach the parameters that they
are meant for.  The layout and the rules of a method can be checked for it once and for all
requests; one method of the registry does not pass.
-/

namespace JsonRpcRelay.Dispatcher

open Framework Validators Cache

section Lengths

variable {rules : List IParamValidation} {params left : List Json}

private theorem length_of_checked (h : Checked rules params left) :
    left.length = params.length ∧ left.length ≤ rules.length := by
  induction h with
  | missing h => simp
  | param h hs ih => simpa using ih

private theorem length_of_required (h : Checked rules params left)
    (hrequired : rules.all (·.required) = true) : left.length = rules.length := by
  induction h with
  | missing hmissing =>
    rename_i rules
    cases rules with
    | nil => rfl
    | cons rule rules =>
      have hfirst := hmissing rule List.mem_cons_self
      simp [hfirst] at hrequired
  | param h hs ih =>
    simp only [List.all_cons, Bool.and_eq_true] at hrequired
    simp [ih hrequired.2]

private theorem length_validated {method : OperationHandler}
    (h : method.validated params = .ok left) :
    left.length = params.length := by
  cases hrules : method.rules with
  | none =>
    simp only [OperationHandler.validated, hrules, Except.ok.injEq] at h
    rw [h]
  | some rules =>
    simp only [OperationHandler.validated, hrules] at h
    exact (length_of_checked (checked_of_validateParams h)).1

end Lengths

section Arrangement

variable (toNumber : Arg → Number) (method : OperationHandler)

def Pick.index : Pick → ℕ
  | .param index | .numberOf index => index

/-- `params[index]` as the layout passes it. -/
def OperationHandler.passed (params : List Json) (index : ℕ) : Arg :=
  match method.layout with
  | .custom picks =>
      match picks[index]? with
      | some (.numberOf _) => .json (.number (toNumber (CachedMethod.param params index)))
      | _ => CachedMethod.param params index
  | _ => CachedMethod.param params index

/-- The details of the request and its parameters are bound to the parameters of the method that
they are meant for, and what is left out in front of the details is undefined. -/
structure Reaches (params : List Json) : Prop where
  requestDetails : method.takesRequestDetails = true →
    (arrangeRpcParams toNumber method params)[method.parameters.length]? = some .requestDetails
  param : ∀ i < method.parameters.length, i < params.length ∨ method.takesRequestDetails = true →
    (arrangeRpcParams toNumber method params)[i]? = some (method.passed toNumber params i)

/-- The layout fits the parameters of the method.  Without a layout the details are behind the
parameters of the request, so that all of them have to be there. -/
def OperationHandler.isArranged : Bool :=
  match method.layout with
  | .requestDetailsOnly => method.parameters.length = 0
  | .custom picks => picks.map Pick.index = List.range method.parameters.length
  | .standard => method.takesRequestDetails = true →
      (method.rules.any fun rules => rules.length = method.parameters.length ∧
        rules.all (·.required)) = true

variable {toNumber method} {params left : List Json} {picks : List Pick}

private theorem reaches_requestDetailsOnly (hlayout : method.layout = .requestDetailsOnly)
    (hnone : method.parameters.length = 0) : Reaches toNumber method left := by
  constructor
  · intro _
    simp [arrangeRpcParams, hlayout, hnone]
  · intro i hi
    omega

private theorem reaches_custom (hlayout : method.layout = .custom picks)
    (hpicks : picks.map Pick.index = List.range method.parameters.length) :
    Reaches toNumber method left := by
  have hlength : picks.length = method.parameters.length := by
    simpa using congrArg List.length hpicks
  constructor
  · intro _
    simp [arrangeRpcParams, hlayout, ← hlength]
  · intro i hi _
    have hindex : (picks.map Pick.index)[i]? = some i := by
      rw [hpicks, List.getElem?_range hi]
    rw [List.getElem?_map, Option.map_eq_some_iff] at hindex
    obtain ⟨pick, hpick, hindex⟩ := hindex
    have hbound : (arrangeRpcParams toNumber method left)[i]? = some (pick.arg toNumber left) := by
      simp only [arrangeRpcParams, hlayout]
      rw [List.getElem?_append_left (by simpa [hlength] using hi), List.getElem?_map, hpick]
      rfl
    rw [hbound, OperationHandler.passed, hlayout]
    cases pick with
    | param index =>
      obtain rfl : index = i := hindex
      simp [hpick, Pick.arg]
    | numberOf index =>
      obtain rfl : index = i := hindex
      simp [hpick, Pick.arg]

private theorem getElem?_standard (hlayout : method.layout = .standard) {i : ℕ}
    (hi : i < left.length) :
    (arrangeRpcParams toNumber method left)[i]? = some (method.passed toNumber left i) := by
  simp only [arrangeRpcParams, OperationHandler.passed, hlayout]
  rw [List.getElem?_append_left (by simpa using hi), List.getElem?_map, CachedMethod.param,
    List.getElem?_eq_getElem hi]
  rfl

private theorem getElem?_standard_length (hlayout : method.layout = .standard) :
    (arrangeRpcParams toNumber method left)[left.length]? = some .requestDetails := by
  simp [arrangeRpcParams, hlayout]

private theorem reaches_standard (hlayout : method.layout = .standard)
    (hlength : method.takesRequestDetails = true → left.length = method.parameters.length) :
    Reaches toNumber method left := by
  constructor
  · intro htakes
    rw [← hlength htakes]
    exact getElem?_standard_length hlayout
  · intro i hi hgiven
    apply getElem?_standard hlayout
    rcases hgiven with hgiven | htakes
    · exact hgiven
    · rw [hlength htakes]
      exact hi

/-- The check of a method holds for all requests. -/
theorem reaches_of_isArranged (h : method.isArranged = true)
    (hvalid : method.validated params = .ok left) : Reaches toNumber method left := by
  unfold OperationHandler.isArranged at h
  cases hlayout : method.layout with
  | requestDetailsOnly =>
    rw [hlayout] at h
    exact reaches_requestDetailsOnly hlayout (by simpa using h)
  | custom picks =>
    rw [hlayout] at h
    exact reaches_custom hlayout (by simpa using h)
  | standard =>
    rw [hlayout] at h
    apply reaches_standard hlayout
    intro htakes
    have hrules := of_decide_eq_true h htakes
    cases hsome : method.rules with
    | none => simp [hsome] at hrules
    | some rules =>
      simp only [hsome, Option.any_some, decide_eq_true_eq] at hrules
      simp only [OperationHandler.validated, hsome] at hvalid
      rw [length_of_required (checked_of_validateParams hvalid) hrules.2, hrules.1]

end Arrangement

section Registry

variable (toNumber : Arg → Number) {name : String} {method : OperationHandler}
  {params left : List Json}

/-- The cached methods are registered with their rules and the arguments that their results are
stored under. -/
theorem cached_registered (cachedMethod : CachedMethod) :
    ∃ namespaceName method,
      methodRegistry.lookup (namespaceName ++ "_" ++ cachedMethod.name) = some method ∧
      method.rules = some cachedMethod.rules ∧
      ∀ params, arrangeRpcParams toNumber method params =
        cachedMethod.layout toNumber params ++ [.requestDetails] := by
  cases cachedMethod with
  | feeHistory => exact ⟨"eth", eth.feeHistory, rfl, rfl, fun _ => rfl⟩
  | getStorageAt => exact ⟨"eth", eth.getStorageAt, rfl, rfl, fun _ => rfl⟩
  | getBalance => exact ⟨"eth", eth.getBalance, rfl, rfl, fun _ => rfl⟩
  | getCode => exact ⟨"eth", eth.getCode, rfl, rfl, fun _ => rfl⟩
  | getBlockByHash => exact ⟨"eth", eth.getBlockByHash, rfl, rfl, fun _ => rfl⟩
  | getBlockTransactionCountByHash => exact ⟨"eth", eth.getBlockTransactionCountByHash, rfl, rfl, fun _ => rfl⟩
  | getBlockTransactionCountByNumber => exact ⟨"eth", eth.getBlockTransactionCountByNumber, rfl, rfl, fun _ => rfl⟩
  | getTransactionByBlockHashAndIndex => exact ⟨"eth", eth.getTransactionByBlockHashAndIndex, rfl, rfl, fun _ => rfl⟩
  | getTransactionByBlockNumberAndIndex => exact ⟨"eth", eth.getTransactionByBlockNumberAndIndex, rfl, rfl, fun _ => rfl⟩
  | getBlockByNumber => exact ⟨"eth", eth.getBlockByNumber, rfl, rfl, fun _ => rfl⟩
  | getTransactionCount => exact ⟨"eth", eth.getTransactionCount, rfl, rfl, fun _ => rfl⟩
  | call => exact ⟨"eth", eth.call, rfl, rfl, fun _ => rfl⟩
  | getTransactionByHash => exact ⟨"eth", eth.getTransactionByHash, rfl, rfl, fun _ => rfl⟩
  | getTransactionReceipt => exact ⟨"eth", eth.getTransactionReceipt, rfl, rfl, fun _ => rfl⟩
  | getLogs => exact ⟨"eth", eth.getLogs, rfl, rfl, fun _ => rfl⟩
  | getBlockReceipts => exact ⟨"eth", eth.getBlockReceipts, rfl, rfl, fun _ => rfl⟩
  | traceTransaction => exact ⟨"debug", debug.traceTransaction, rfl, rfl, fun _ => rfl⟩
  | traceBlockByNumber => exact ⟨"debug", debug.traceBlockByNumber, rfl, rfl, fun _ => rfl⟩

private theorem isArranged_of_ne : ∀ entry ∈ methodRegistry, entry.1 ≠ "eth_call" →
    entry.2.isArranged = true := by
  decide

private theorem length_call (hvalid : eth.call.validated params = .ok left) :
    left.length = 2 ∨ left.length = 3 := by
  have hchecked : Checked CachedMethod.call.rules params left := checked_of_validateParams hvalid
  have hle : left.length ≤ 3 := (length_of_checked hchecked).2
  obtain ⟨call, _, left, _, rfl, _, _, hchecked⟩ := hchecked.exists_param rfl
  obtain ⟨blockParam, _, left, _, rfl, _, _, _⟩ := hchecked.exists_param rfl
  simp only [List.length_cons] at hle ⊢
  omega

/-- A state override is bound to the details of the request. -/
theorem reaches_call_iff (hvalid : eth.call.validated params = .ok left) :
    Reaches toNumber eth.call left ↔ params.length ≠ 3 := by
  rw [← length_validated hvalid]
  constructor
  · intro hreaches hlength
    have hdetails : (arrangeRpcParams toNumber eth.call left)[2]? = some .requestDetails :=
      hreaches.requestDetails rfl
    have hoverride : (arrangeRpcParams toNumber eth.call left)[2]? =
        some (eth.call.passed toNumber left 2) := getElem?_standard rfl (by omega)
    have hjson : eth.call.passed toNumber left 2 = .json left[2] := by
      simp [OperationHandler.passed, eth.call, cached, CachedMethod.param,
        List.getElem?_eq_getElem (show 2 < left.length by omega)]
    rw [hoverride, hjson] at hdetails
    cases hdetails
  · intro hlength
    apply reaches_standard rfl
    intro _
    have htwo := (length_call hvalid).resolve_right hlength
    exact htwo

/-- The arguments of every method reach its parameters, unless `eth_call` is given a state
override. -/
theorem arguments_reach_iff (hget : methodRegistry.lookup name = some method)
    (hvalid : method.validated params = .ok left) :
    Reaches toNumber method left ↔ ¬(name = "eth_call" ∧ params.length = 3) := by
  by_cases hname : name = "eth_call"
  · subst hname
    obtain rfl : eth.call = method := Option.some.inj (Eq.trans rfl hget)
    rw [reaches_call_iff toNumber hvalid]
    simp
  · obtain ⟨before, after, happend, _⟩ := List.lookup_eq_some_iff.mp hget
    have hmem : (name, method) ∈ methodRegistry := by
      rw [happend]
      simp
    have harranged := isArranged_of_ne (name, method) hmem hname
    simp [hname, reaches_of_isArranged harranged hvalid]

/-- An address and the latest block. -/
theorem arguments_reach_iff_getBalance :
    ∃ left, eth.getBalance.validated [.string ("0x" ++ String.ofList (List.replicate 40 'a')),
        .string "latest"] = .ok left ∧
      (Reaches (fun _ => .nan) eth.getBalance left ↔
        ¬("eth_getBalance" = "eth_call" ∧
          [Json.string ("0x" ++ String.ofList (List.replicate 40 'a')),
            .string "latest"].length = 3)) :=
  ⟨_, by rfl, arguments_reach_iff (fun _ => .nan) rfl rfl⟩

/-- An empty state override, which is an object of the client, takes the place of the details. -/
theorem override_bound_to_details :
    methodRegistry.lookup "eth_call" = some eth.call ∧
      eth.call.validated [.object [], .string "latest", .object []] =
        .ok [.object [], .string "latest", .object []] ∧
      eth.call.parameters.length = 2 ∧ eth.call.takesRequestDetails = true ∧
      (arrangeRpcParams (fun _ => .nan) eth.call [.object [], .string "latest", .object []])[2]? =
        some (.json (.object [])) := by
  refine ⟨rfl, ?_, rfl, rfl, rfl⟩
  rfl

end Registry

end JsonRpcRelay.Dispatcher
