import JsonRpcRelay.Cache.CachedMethods
import JsonRpcRelay.Validators.Accepted

/-!
# Cache keys

Which requests share a cache key.  The arguments are joined by an underscore, which occurs in no
name of a method and in no argument that is written as it is; an array or an object is written
as JSON, which shows where it ends.
-/

namespace JsonRpcRelay.Cache

open Framework Validators Js
open Common.BlockParam (isBlockNumberText)

section Parts

/-- What may stand at one position of the arguments of a method, apart from arrays and objects. -/
inductive Slot where
  | text
  | boolean
  | number
  | absent

/-- The argument is written as JSON. -/
def Arg.IsStructured : Arg → Prop
  | .json (.array _) | .json (.object _) => True
  | _ => False

/-- The text has no separator and does not begin like an array or an object. -/
structure Unbroken (text : List Char) : Prop where
  separator : ∀ c ∈ text, c ≠ '_'
  bracket : Stops (fun c => c = '[' ∨ c = '\x7b') text

def Slot.Plain : Slot → Arg → Prop
  | .text, a => ∃ s : String, a = .json (.string s) ∧ Unbroken s.toList
  | .boolean, a => ∃ b, a = .json (.bool b)
  | .number, a => ∃ x, a = .json (.number x)
  | .absent, a => a = .undefined

def Slot.Admits (slot : Slot) (a : Arg) : Prop := a.IsStructured ∨ slot.Plain a

/-- The argument with `null` for the numbers within an array or an object that are not finite. -/
def Arg.plain : Arg → Arg
  | .json (.array items) => .json (Json.array items).plain
  | .json (.object fields) => .json (Json.object fields).plain
  | a => a

variable {slot : Slot} {a b : Arg} {r s : List Char}

private theorem keyPart_plain (a : Arg) : a.plain.keyPart = a.keyPart := by
  match a with
  | .json (.array items) => exact congrArg (List.cons '_') (Json.text_plain (.array items))
  | .json (.object fields) => exact congrArg (List.cons '_') (Json.text_plain (.object fields))
  | .json .null => rfl
  | .json (.bool _) => rfl
  | .json (.number _) => rfl
  | .json (.string _) => rfl
  | .undefined => rfl
  | .requestDetails => rfl

private theorem mem_number_text {x : Number} {c : Char} (h : c ∈ x.text) :
    isNumberChar c = true ∨ c ∈ ['N', 'a', 'I', 'n', 'f', 'i', 't', 'y'] := by
  have hspecial : ∀ x ∈ [Number.nan, .infinity false, .infinity true],
      x.text.all (fun c => isNumberChar c || c ∈ ['N', 'a', 'I', 'n', 'f', 'i', 't', 'y']) := by
    decide
  have hinfinite (hx : x ∈ [Number.nan, .infinity false, .infinity true]) :
      isNumberChar c = true ∨ c ∈ ['N', 'a', 'I', 'n', 'f', 'i', 't', 'y'] := by
    simpa only [Bool.or_eq_true, decide_eq_true_eq] using
      List.all_eq_true.mp (hspecial x hx) c h
  cases x with
  | nan => exact hinfinite (by decide)
  | infinity negative => exact hinfinite (by cases negative <;> decide)
  | zero => exact .inl (Number.isNumberChar_text rfl c h)
  | decimal d => exact .inl (Number.isNumberChar_text rfl c h)

private theorem unbroken_of_notMem {text : List Char} (hseparator : '_' ∉ text)
    (hbracket : text.head? ∉ [some '[', some '\x7b']) : Unbroken text := by
  constructor
  · exact fun c hc => ne_of_mem_of_not_mem hc hseparator
  · rintro c hc (rfl | rfl)
    · exact hbracket (by simp [Option.mem_def.mp hc])
    · exact hbracket (by simp [Option.mem_def.mp hc])

private theorem unbroken_number (x : Number) : Unbroken x.text := by
  constructor
  · rintro c hc rfl
    exact absurd (mem_number_text hc) (by decide)
  · rintro c hc (rfl | rfl)
    · exact absurd (mem_number_text (List.mem_of_mem_head? hc)) (by decide)
    · exact absurd (mem_number_text (List.mem_of_mem_head? hc)) (by decide)

private theorem keyPart_of_plain (h : slot.Plain a) :
    ∃ text, a.keyPart = '_' :: text ∧ Unbroken text := by
  cases slot with
  | text =>
    obtain ⟨s, rfl, hs⟩ := h
    exact ⟨s.toList, rfl, hs⟩
  | boolean =>
    obtain ⟨b, rfl⟩ := h
    cases b with
    | false => exact ⟨_, rfl, unbroken_of_notMem (by decide) (by decide)⟩
    | true => exact ⟨_, rfl, unbroken_of_notMem (by decide) (by decide)⟩
  | number =>
    obtain ⟨x, rfl⟩ := h
    exact ⟨x.text, rfl, unbroken_number x⟩
  | absent =>
    obtain rfl := h
    exact ⟨_, rfl, unbroken_of_notMem (by decide) (by decide)⟩

private theorem keyPart_of_structured (h : a.IsStructured) :
    ∃ (x : Json) (c : Char) (cs : List Char),
    a = .json x ∧ a.plain = .json x.plain ∧ a.keyPart = '_' :: x.text ∧ x.text = c :: cs ∧
      (c = '[' ∨ c = '\x7b') := by
  match a, h with
  | .json (.array []), _ => exact ⟨_, _, _, rfl, rfl, rfl, rfl, .inl rfl⟩
  | .json (.array (_ :: _)), _ => exact ⟨_, _, _, rfl, rfl, rfl, rfl, .inl rfl⟩
  | .json (.object []), _ => exact ⟨_, _, _, rfl, rfl, rfl, rfl, .inr rfl⟩
  | .json (.object ((_, _) :: _)), _ => exact ⟨_, _, _, rfl, rfl, rfl, rfl, .inr rfl⟩

private theorem exists_keyPart (h : slot.Admits a) : ∃ text, a.keyPart = '_' :: text := by
  cases h with
  | inl h =>
    obtain ⟨x, _, _, _, _, hkey, _⟩ := keyPart_of_structured h
    exact ⟨x.text, hkey⟩
  | inr h =>
    obtain ⟨text, hkey, _⟩ := keyPart_of_plain h
    exact ⟨text, hkey⟩

private theorem eq_of_keyPart (ha : slot.Plain a) (hb : slot.Plain b) (h : a.keyPart = b.keyPart) :
    a = b := by
  cases slot with
  | text =>
    obtain ⟨s, rfl, _⟩ := ha
    obtain ⟨s', rfl, _⟩ := hb
    rw [String.toList_inj.mp (List.cons_eq_cons.mp h).2]
  | boolean =>
    obtain ⟨x, rfl⟩ := ha
    obtain ⟨y, rfl⟩ := hb
    cases x <;> cases y <;> first | rfl | cases h
  | number =>
    obtain ⟨x, rfl⟩ := ha
    obtain ⟨y, rfl⟩ := hb
    rw [Number.text_inj (List.cons_eq_cons.mp h).2]
  | absent => rw [show a = .undefined from ha, show b = .undefined from hb]

/-- No further argument, or the separator before it. -/
abbrev AtSeparator (r : List Char) : Prop := Stops (fun c : Char => c ≠ '_') r

private theorem ends_of_atSeparator (h : AtSeparator r) : Json.Ends r := by
  intro c hc hnumber
  have hc' := Classical.not_not.mp (h c hc)
  rw [hc'] at hnumber
  cases hnumber

/-- A text as it is does not begin like an array or an object. -/
theorem ne_of_bracket {text cs : List Char} {c : Char} (htext : Unbroken text)
    (hs : AtSeparator s) (hc : c = '[' ∨ c = '\x7b') : c :: cs ++ r ≠ text ++ s := by
  intro h
  cases text with
  | nil =>
    have hhead : c = '_' := by
      have hstops : Stops (fun d : Char => d ≠ '_') (c :: (cs ++ r)) := by
        rw [← List.cons_append, h]
        exact hs
      exact Classical.not_not.mp (hstops c rfl)
    rw [hhead] at hc
    exact absurd hc (by decide)
  | cons d text =>
    have hbracket := stops_cons.mp htext.bracket
    rw [← (List.cons_eq_cons.mp h).1] at hbracket
    exact hbracket hc

private theorem keyPart_append_inj (ha : slot.Admits a) (hb : slot.Admits b) (hr : AtSeparator r)
    (hs : AtSeparator s) (h : a.keyPart ++ r = b.keyPart ++ s) : a.plain = b.plain ∧ r = s := by
  cases ha with
  | inl ha =>
    obtain ⟨x, c, cs, _, hplain, hkey, hc, hbracket⟩ := keyPart_of_structured ha
    rw [hkey] at h
    cases hb with
    | inl hb =>
      obtain ⟨y, _, _, _, hplain', hkey', _⟩ := keyPart_of_structured hb
      rw [hkey'] at h
      obtain ⟨hxy, hrs⟩ := Json.text_append_inj x y (ends_of_atSeparator hr)
        (ends_of_atSeparator hs) (List.cons_eq_cons.mp h).2
      exact ⟨by rw [hplain, hplain', hxy], hrs⟩
    | inr hb =>
      obtain ⟨text, hkey', htext⟩ := keyPart_of_plain hb
      rw [hkey', hc] at h
      exact absurd (List.cons_eq_cons.mp h).2 (ne_of_bracket htext hs hbracket)
  | inr ha =>
    obtain ⟨text, hkey, htext⟩ := keyPart_of_plain ha
    rw [hkey] at h
    cases hb with
    | inl hb =>
      obtain ⟨y, c, cs, _, _, hkey', hc, hbracket⟩ := keyPart_of_structured hb
      rw [hkey', hc] at h
      exact absurd (List.cons_eq_cons.mp h).2.symm (ne_of_bracket htext hr hbracket)
    | inr hb =>
      obtain ⟨text', hkey', htext'⟩ := keyPart_of_plain hb
      rw [hkey'] at h
      obtain ⟨heq, hrs⟩ := append_inj_of_stops htext.separator htext'.separator hr hs
        (List.cons_eq_cons.mp h).2
      rw [eq_of_keyPart ha hb (by rw [hkey, hkey', heq])]
      exact ⟨rfl, hrs⟩

end Parts

section Lists

/-- The arguments are admitted position by position; some may be missing at the end. -/
inductive AdmittedBy : List Slot → List Arg → Prop
  | nil {slots : List Slot} : AdmittedBy slots []
  | cons {slot : Slot} {slots : List Slot} {a : Arg} {args : List Arg} (h : slot.Admits a)
      (hs : AdmittedBy slots args) : AdmittedBy (slot :: slots) (a :: args)

variable {slots : List Slot} {args args' : List Arg}

private theorem atSeparator_keyParts (h : AdmittedBy slots args) :
    AtSeparator (args.flatMap Arg.keyPart) := by
  cases h with
  | nil => exact stops_nil
  | cons h _ =>
    obtain ⟨text, hkey⟩ := exists_keyPart h
    rw [List.flatMap_cons, hkey]
    exact stops_cons.mpr (by decide)

private theorem keyParts_inj (h : AdmittedBy slots args) (h' : AdmittedBy slots args')
    (heq : args.flatMap Arg.keyPart = args'.flatMap Arg.keyPart) :
    args.map Arg.plain = args'.map Arg.plain := by
  induction h generalizing args' with
  | nil =>
    cases h' with
    | nil => rfl
    | cons ha _ =>
      obtain ⟨text, hkey⟩ := exists_keyPart ha
      rw [List.flatMap_cons, hkey] at heq
      cases heq
  | cons ha hs ih =>
    cases h' with
    | nil =>
      obtain ⟨text, hkey⟩ := exists_keyPart ha
      rw [List.flatMap_cons, hkey] at heq
      cases heq
    | cons hb hs' =>
      rw [List.flatMap_cons, List.flatMap_cons] at heq
      obtain ⟨hplain, hrest⟩ := keyPart_append_inj ha hb (atSeparator_keyParts hs)
        (atSeparator_keyParts hs') heq
      rw [List.map_cons, List.map_cons, hplain, ih hs' hrest]

private theorem keyParts_plain (args : List Arg) :
    (args.map Arg.plain).flatMap Arg.keyPart = args.flatMap Arg.keyPart := by
  rw [List.flatMap_map]
  simp only [keyPart_plain]

end Lists

section Accepted

variable {x y : Json} {text : List Char}

private theorem exists_of_isBlockNumberText (h : isBlockNumberText (String.ofList text) = true) :
    ∃ c digits, text = '0' :: c :: digits ∧ (c = 'x' ∨ c = 'X') ∧
      ∀ d ∈ digits, isHexDigit d = true := by
  unfold isBlockNumberText at h
  rw [String.toList_ofList] at h
  split at h
  · rename_i c digits
    simp only [decide_eq_true_eq, List.all_eq_true] at h
    exact ⟨c, digits, rfl, h.1, h.2.2.2.1⟩
  · cases h

private theorem admits_of_hexText
    (h : ∃ c digits, x.toText = '0' :: c :: digits ∧ (c = 'x' ∨ c = 'X') ∧
    ∀ d ∈ digits, isHexDigit d = true) : Slot.text.Admits (.json x) := by
  obtain ⟨c, digits, htext, hc, hdigits⟩ := h
  cases x with
  | array items => exact .inl trivial
  | object fields => exact .inl trivial
  | null => cases htext
  | bool b => cases b <;> cases htext
  | number x =>
    have hmem : c ∈ x.text := by
      rw [show x.text = '0' :: c :: digits from htext]
      simp
    rcases hc with rfl | rfl <;> exact absurd (mem_number_text hmem) (by decide)
  | string s =>
    refine .inr ⟨s, rfl, ?_, ?_⟩
    · rw [show s.toList = '0' :: c :: digits from htext]
      intro d hd
      rcases List.mem_cons.mp hd with rfl | hd
      · decide
      rcases List.mem_cons.mp hd with rfl | hd
      · rcases hc with rfl | rfl <;> decide
      · rintro rfl
        exact absurd (hdigits _ hd) (by decide)
    · rw [show s.toList = '0' :: c :: digits from htext]
      exact stops_cons.mpr (by decide)

private theorem admits_of_isBaseHex {quantifier : ℕ → Bool}
    (h : isBaseHex quantifier x.toText = true) :
    Slot.text.Admits (.json x) := by
  obtain ⟨c, digits, htext, hc, hdigits, _⟩ := exists_of_isBaseHex h
  exact admits_of_hexText ⟨c, digits, htext, hc, hdigits⟩

private theorem admits_of_blockTag (h : isOneOf blockTags x = true) :
    Slot.text.Admits (.json x) := by
  have htags : ∀ s ∈ blockTags, '_' ∉ s.toList ∧
      s.toList.head? ∉ [some '[', some '\x7b'] := by decide
  cases x with
  | string s =>
    obtain ⟨hseparator, hbracket⟩ := htags s (of_decide_eq_true h)
    exact .inr ⟨s, rfl, unbroken_of_notMem hseparator hbracket⟩
  | _ => cases h

private theorem admits_blockNumber (h : TYPES.blockNumber.test x = .ok true) :
    Slot.text.Admits (.json x) := by
  have h := Except.ok.inj h
  rw [Bool.or_eq_true] at h
  cases h with
  | inl h => exact admits_of_hexText (exists_of_isBlockNumberText h)
  | inr h => exact admits_of_blockTag h

/-- The rule only lets through what may stand in the slot. -/
def Slot.FilledBy (slot : Slot) (rule : IParamValidation) : Prop :=
  ∀ x y, rule.Accepts x y → slot.Admits (.json y)

open CachedMethod

private theorem filledBy_required {slot : Slot} {type : IType} (hleft : type.left = id)
    (h : ∀ x, type.test x = .ok true → slot.Admits (.json x)) : slot.FilledBy (required type) := by
  rintro x y ⟨_, htest, rfl⟩
  rw [show (required type).type.left x = type.left x from rfl, hleft]
  exact h x htest

private theorem filledBy_hex : Slot.text.FilledBy (required TYPES.hex) :=
  filledBy_required rfl fun _ h => admits_of_isBaseHex (Except.ok.inj h)

private theorem filledBy_hex64 : Slot.text.FilledBy (required TYPES.hex64) :=
  filledBy_required rfl fun _ h => admits_of_isBaseHex (Except.ok.inj h)

private theorem filledBy_address : Slot.text.FilledBy (required TYPES.address) :=
  filledBy_required rfl fun _ h => admits_of_isBaseHex (Except.ok.inj h)

private theorem filledBy_blockHash : Slot.text.FilledBy (required TYPES.blockHash) :=
  filledBy_required rfl fun _ h => admits_of_isBaseHex (Except.ok.inj h)

private theorem filledBy_transactionHash : Slot.text.FilledBy (required TYPES.transactionHash) :=
  filledBy_required rfl fun _ h => admits_of_isBaseHex (Except.ok.inj h)

private theorem filledBy_blockNumber : Slot.text.FilledBy (required TYPES.blockNumber) :=
  filledBy_required rfl fun _ h => admits_blockNumber h

private theorem filledBy_blockNumberOrHash : Slot.text.FilledBy blockNumberOrHash := by
  rintro x y ⟨_, ⟨type, htype, htest⟩, rfl⟩
  rcases List.mem_cons.mp htype with rfl | htype
  · exact admits_blockNumber htest
  · rw [List.mem_singleton.mp htype] at htest
    exact admits_of_isBaseHex (Except.ok.inj htest)

private theorem filledBy_boolean : Slot.boolean.FilledBy (required TYPES.boolean) := by
  apply filledBy_required rfl
  intro x h
  cases x with
  | bool b => exact .inr ⟨b, rfl⟩
  | _ => cases h

private theorem filledBy_transaction : Slot.text.FilledBy (required TYPES.transaction) := by
  rintro x y ⟨_, htest, rfl⟩
  cases x with
  | object fields => exact .inl trivial
  | _ => cases htest

private theorem filledBy_filter : Slot.text.FilledBy (required TYPES.filter) := by
  apply filledBy_required rfl
  intro x h
  cases x with
  | object fields => exact .inl trivial
  | _ => cases h

theorem filledBy_blockParams : Slot.text.FilledBy (required TYPES.blockParams) := by
  apply filledBy_required rfl
  intro x h
  have hparam (hblock : TYPES.isBlockParam x = true) : Slot.text.Admits (.json x) := by
    rw [TYPES.isBlockParam, Bool.or_eq_true] at hblock
    cases hblock with
    | inl hblock =>
      obtain ⟨c, digits, htext, hc, hdigits, _⟩ := exists_of_isBlockParamText hblock
      rw [String.toList_ofList] at htext
      exact admits_of_hexText ⟨c, digits, htext, hc, hdigits⟩
    | inr hblock => exact admits_of_blockTag hblock
  cases x with
  | object fields => exact .inl trivial
  | _ => exact hparam (Except.ok.inj h)

private theorem filledBy_optional {type : IType}
    (h : type = TYPES.array ∨ type = TYPES.stateOverride ∨
    type = TYPES.tracerConfigWrapper) : Slot.absent.FilledBy (optional type) := by
  rintro x y ⟨hnull, htest, rfl⟩
  rcases h with rfl | rfl | rfl
  · cases x with
    | array items => exact .inl trivial
    | _ => cases htest
  · cases x with
    | object fields => exact .inl trivial
    | null => cases hnull
    | _ => cases htest
  · cases x with
    | array items => exact .inl trivial
    | object fields => exact .inl trivial
    | _ => cases htest

end Accepted

section Methods

open CachedMethod

/-- What may stand at the positions of the arguments of a method. -/
def CachedMethod.slots : CachedMethod → List Slot
  | feeHistory => [.number, .text, .absent]
  | getStorageAt => [.text, .text, .text]
  | getBalance | getCode | getTransactionCount => [.text, .text]
  | getBlockByHash | getBlockByNumber => [.text, .boolean]
  | getTransactionByBlockHashAndIndex | getTransactionByBlockNumberAndIndex => [.text, .text]
  | call => [.text, .text, .absent]
  | getBlockTransactionCountByHash | getBlockTransactionCountByNumber | getTransactionByHash
  | getTransactionReceipt | getLogs | getBlockReceipts => [.text]
  | traceTransaction | traceBlockByNumber => [.text, .absent]

variable {toNumber : Arg → Number} {m m' : CachedMethod} {params params' left : List Json}
  {args args' : List Arg}

private theorem admittedBy_map {slots : List Slot} {rules : List IParamValidation}
    (h : List.Forall₂ Slot.FilledBy slots rules) (hchecked : Checked rules params left) :
    AdmittedBy slots (left.map .json) := by
  induction hchecked generalizing slots with
  | missing _ => exact .nil
  | param haccepts _ ih =>
    cases h with
    | cons hslot hslots => exact .cons (hslot _ _ haccepts) (ih hslots)

private theorem admits_number (x : Number) : Slot.number.Admits (.json (.number x)) := .inr ⟨x, rfl⟩

private theorem admits_undefined : Slot.absent.Admits .undefined := .inr rfl

private theorem admits_last {type : IType} (h : Slot.absent.FilledBy (optional type))
    (hchecked : Checked [optional type] params left) : Slot.absent.Admits (param left 0) := by
  cases hchecked with
  | missing _ => exact admits_undefined
  | param haccepts _ => exact h _ _ haccepts

private theorem admittedBy_trace {rule : IParamValidation} (hrequired : rule.required = true)
    (hrule : Slot.text.FilledBy rule)
    (h : Checked [rule, optional TYPES.tracerConfigWrapper] params left) :
    AdmittedBy [.text, .absent] [param left 0, param left 1] := by
  obtain ⟨y, x, ys, xs, rfl, rfl, haccepts, htail⟩ := Checked.exists_param hrequired h
  apply AdmittedBy.cons (hrule _ _ haccepts)
  exact .cons (admits_last (filledBy_optional (.inr (.inr rfl))) htail) .nil

private theorem admittedBy_slots (h : Checked m.rules params left) :
    AdmittedBy m.slots (layout toNumber left m) := by
  cases m with
  | feeHistory =>
    obtain ⟨y, x, ys, xs, rfl, rfl, _, htail⟩ := Checked.exists_param rfl h
    obtain ⟨z, w, zs, ws, rfl, rfl, haccepts, htail⟩ := Checked.exists_param rfl htail
    apply AdmittedBy.cons (admits_number _)
    apply AdmittedBy.cons (filledBy_blockNumber _ _ haccepts)
    exact .cons (admits_last (filledBy_optional (.inl rfl)) htail) .nil
  | getStorageAt =>
    obtain ⟨y, x, ys, xs, rfl, rfl, hy, htail⟩ := Checked.exists_param rfl h
    obtain ⟨z, w, zs, ws, rfl, rfl, hz, htail⟩ := Checked.exists_param rfl htail
    obtain ⟨u, v, us, vs, rfl, rfl, hu, _⟩ := Checked.exists_param rfl htail
    apply AdmittedBy.cons (filledBy_address _ _ hy)
    apply AdmittedBy.cons (filledBy_hex64 _ _ hz)
    exact .cons (filledBy_blockNumberOrHash _ _ hu) .nil
  | traceTransaction => exact admittedBy_trace rfl filledBy_transactionHash h
  | traceBlockByNumber => exact admittedBy_trace rfl filledBy_blockNumber h
  | getBalance | getCode | getTransactionCount =>
    exact admittedBy_map (.cons filledBy_address (.cons filledBy_blockNumberOrHash .nil)) h
  | getBlockByHash => exact admittedBy_map (.cons filledBy_blockHash (.cons filledBy_boolean .nil)) h
  | getBlockByNumber =>
    exact admittedBy_map (.cons filledBy_blockNumber (.cons filledBy_boolean .nil)) h
  | getTransactionByBlockHashAndIndex =>
    exact admittedBy_map (.cons filledBy_blockHash (.cons filledBy_hex .nil)) h
  | getTransactionByBlockNumberAndIndex =>
    exact admittedBy_map (.cons filledBy_blockNumber (.cons filledBy_hex .nil)) h
  | call =>
    exact admittedBy_map (.cons filledBy_transaction (.cons filledBy_blockParams
      (.cons (filledBy_optional (.inr (.inl rfl))) .nil))) h
  | getBlockTransactionCountByHash => exact admittedBy_map (.cons filledBy_blockHash .nil) h
  | getBlockTransactionCountByNumber => exact admittedBy_map (.cons filledBy_blockNumber .nil) h
  | getTransactionByHash | getTransactionReceipt =>
    exact admittedBy_map (.cons filledBy_transactionHash .nil) h
  | getLogs => exact admittedBy_map (.cons filledBy_filter .nil) h
  | getBlockReceipts => exact admittedBy_map (.cons filledBy_blockNumberOrHash .nil) h

private theorem admittedBy_of_args (h : m.args toNumber params = .ok args) :
    AdmittedBy m.slots args := by
  obtain ⟨left, hleft, h⟩ := exists_of_bind_ok h
  cases h
  exact admittedBy_slots (checked_of_validateParams hleft)

private theorem toList_cacheKey (m : CachedMethod) (args : List Arg) :
    (m.cacheKey args).toList = m.name.toList ++ args.flatMap Arg.keyPart := by
  rw [cacheKey, generateCacheKey, String.toList_ofList, List.flatMap_append]
  simp [Arg.keyPart]

private theorem separator_notMem_name (m : CachedMethod) : ∀ c ∈ m.name.toList, c ≠ '_' := by
  have hnot : '_' ∉ m.name.toList := by cases m <;> decide
  exact fun c hc => ne_of_mem_of_not_mem hc hnot

private theorem name_inj (h : m.name = m'.name) : m = m' := by
  revert h
  cases m <;> cases m' <;> decide

/-- The key determines the method, and the arguments as far as they are written. -/
theorem cacheKey_inj (h : AdmittedBy m.slots args) (h' : AdmittedBy m'.slots args')
    (hkey : m.cacheKey args = m'.cacheKey args') :
    m = m' ∧ args.map Arg.plain = args'.map Arg.plain := by
  have hlist := congrArg String.toList hkey
  rw [toList_cacheKey, toList_cacheKey] at hlist
  obtain ⟨hname, hparts⟩ := append_inj_of_stops (separator_notMem_name m)
    (separator_notMem_name m') (atSeparator_keyParts h) (atSeparator_keyParts h') hlist
  obtain rfl := name_inj (String.toList_inj.mp hname)
  exact ⟨rfl, keyParts_inj h h' hparts⟩

private theorem cacheKey_plain (h : args.map Arg.plain = args'.map Arg.plain) :
    m.cacheKey args = m.cacheKey args' := by
  apply String.toList_inj.mp
  rw [toList_cacheKey, toList_cacheKey, ← keyParts_plain args, h, keyParts_plain]

/-- The keys keep two requests apart unless they are calls of one method whose arguments only
differ in `null` and numbers that are not finite, within arrays and objects. -/
theorem cacheKey_separates_iff (h : m.args toNumber params = .ok args)
    (h' : m'.args toNumber params' = .ok args') :
    (m.cacheKey args = m'.cacheKey args' → m = m' ∧ args = args') ↔
      ¬(m = m' ∧ args.map Arg.plain = args'.map Arg.plain ∧ args ≠ args') := by
  constructor
  · rintro hseparates ⟨rfl, hplain, hne⟩
    exact hne (hseparates (cacheKey_plain hplain)).2
  · intro hnot hkey
    obtain ⟨rfl, hplain⟩ := cacheKey_inj (admittedBy_of_args h) (admittedBy_of_args h') hkey
    refine ⟨rfl, ?_⟩
    by_contra hne
    exact hnot ⟨rfl, hplain, hne⟩

theorem cacheKey_separates_iff_byNumber :
    CachedMethod.getBlockByNumber.cacheKey [.json (.string "0x5"), .json (.bool true)] ≠
      CachedMethod.getBlockReceipts.cacheKey [.json (.string "0x5")] := by
  have h : getBlockByNumber.args (fun _ => .nan) [.string "0x5", .bool true] =
      .ok [.json (.string "0x5"), .json (.bool true)] := by rfl
  have h' : getBlockReceipts.args (fun _ => .nan) [.string "0x5"] = .ok [.json (.string "0x5")] := by
    rfl
  intro heq
  obtain ⟨hmethod, _⟩ := (cacheKey_separates_iff h h').mpr (fun hcase => by cases hcase.1) heq
  cases hmethod

/-- A percentile that is too large for a number is written as `null`. -/
theorem infinite_percentile_written_as_null : ¬∀ (toNumber : Arg → Number) (m m' : CachedMethod)
    (params params' : List Json) (args args' : List Arg), m.args toNumber params = .ok args →
      m'.args toNumber params' = .ok args' → m.cacheKey args = m'.cacheKey args' →
        m = m' ∧ args = args' := by
  intro hall
  have hargs := (hall (fun _ => .zero) .feeHistory .feeHistory
    [.string "0x1", .string "0x10", .array [.number (.infinity false)]]
    [.string "0x1", .string "0x10", .array [.null]] _ _ rfl rfl rfl).2
  cases hargs

end Methods

end JsonRpcRelay.Cache
