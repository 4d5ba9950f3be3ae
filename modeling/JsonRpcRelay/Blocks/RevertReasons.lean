import JsonRpcRelay.Blocks.Receipts
import JsonRpcRelay.Framework.HexBytes

/-!
# Revert reasons

A receipt shows the error message of its transaction in hexadecimal, unless the message looks as
if it were hexadecimal already.  A message without the prefix is shown as it is if all its
characters are digits, and a character with a code of one digit is written with one digit.
-/

namespace JsonRpcRelay.Blocks

open Framework Js

/-- The reason is a text of bytes with its prefix: the message itself, or the bytes of the
message. -/
def DecodesBack (message reason : String) : Prop :=
  ∃ digits bytes, reason.toList = '0' :: 'x' :: digits ∧ Hex.decode? digits = some bytes ∧
    (reason = message ∨ bytes.map (fun b => Char.ofNat b.toNat) = message.toList)

/-- A message that looks like hexadecimal has the prefix and whole bytes, and any other one has no
character with a code of one digit. -/
def Decodable (message : String) : Prop :=
  if isHex (prepend0x message) then startsWith message "0x" ∧ message.length % 2 = 0
  else ∀ c ∈ message.toList, 0x10 ≤ c.toNat

section Encoding

/-- The digits of the characters. -/
def charDigits (cs : List Char) : List Char := cs.flatMap fun c => Nat.toDigits 16 c.toNat

private theorem toList_ASCIIToHex (message : String) :
    (ASCIIToHex message).toList = charDigits message.toList := by
  simp [ASCIIToHex, charDigits, String.toList_join, List.flatMap_map, toString16_natCast]

private theorem isHexDigit_charDigits {cs : List Char} :
    ∀ d ∈ charDigits cs, isHexDigit d = true := by
  intro d hd
  obtain ⟨c, _, hc⟩ := List.mem_flatMap.mp hd
  exact isHexDigit_toDigits c.toNat d hc

private theorem toDigits_byte {n : ℕ} (hle : 16 ≤ n) (hlt : n < 256) :
    Nat.toDigits 16 n = Hex.byteText (UInt8.ofNat n) := by
  have hmod : n % 2 ^ 8 = n := Nat.mod_eq_of_lt hlt
  rw [Nat.toDigits_of_base_le (by decide) hle, Nat.toDigits_of_lt_base (by omega), Hex.byteText,
    UInt8.toNat_ofNat', hmod]
  rfl

/-- Characters with codes of two digits are written as their bytes. -/
theorem charDigits_eq_text {cs : List Char} (h : ∀ c ∈ cs, 16 ≤ c.toNat ∧ c.toNat < 128) :
    charDigits cs = Hex.text (cs.map fun c => UInt8.ofNat c.toNat) := by
  induction cs with
  | nil => rfl
  | cons c cs ih =>
    obtain ⟨⟨hle, hlt⟩, hcs⟩ := List.forall_mem_cons.mp h
    show Nat.toDigits 16 c.toNat ++ charDigits cs = _
    rw [toDigits_byte hle (by omega), ih hcs]
    rfl

private theorem length_charDigits_le {cs : List Char} (h : ∀ c ∈ cs, c.toNat < 128) :
    (charDigits cs).length ≤ 2 * cs.length := by
  induction cs with
  | nil => simp [charDigits]
  | cons c cs ih =>
    obtain ⟨hlt, hcs⟩ := List.forall_mem_cons.mp h
    have hc : (Nat.toDigits 16 c.toNat).length ≤ 2 :=
      (Nat.length_toDigits_le_iff (by decide) (by decide)).mpr (by omega)
    have hrest := ih hcs
    show (Nat.toDigits 16 c.toNat ++ charDigits cs).length ≤ 2 * (cs.length + 1)
    rw [List.length_append]
    omega

/-- A character with a code of one digit makes the text shorter. -/
theorem length_charDigits_lt {cs : List Char} (h : ∀ c ∈ cs, c.toNat < 128) {c : Char}
    (hc : c ∈ cs) (hsmall : c.toNat < 16) : (charDigits cs).length < 2 * cs.length := by
  obtain ⟨before, after, hcs⟩ := List.append_of_mem hc
  subst hcs
  have hbefore : (charDigits before).length ≤ 2 * before.length :=
    length_charDigits_le fun c hc => h c (by simp [hc])
  have hafter : (charDigits after).length ≤ 2 * after.length :=
    length_charDigits_le fun c hc => h c (by simp [hc])
  have hdigit : (Nat.toDigits 16 c.toNat).length = 1 := by
    rw [Nat.toDigits_of_lt_base hsmall]
    rfl
  simp only [charDigits, List.flatMap_append, List.flatMap_cons, List.length_append,
    List.length_cons] at hbefore hafter ⊢
  omega

end Encoding

section Reasons

variable {message : String}

private theorem startsWith_of_toList {digits : List Char}
    (h : message.toList = '0' :: 'x' :: digits) :
    startsWith message "0x" = true := by
  rw [startsWith, h]
  rfl

private theorem exists_of_startsWith (h : startsWith message "0x" = true) :
    ∃ digits, message.toList = '0' :: 'x' :: digits := by
  obtain ⟨digits, hdigits⟩ := List.isPrefixOf_iff_prefix.mp h
  exact ⟨digits, hdigits.symm⟩

private theorem isHex_of_toList {digits : List Char} (h : message.toList = '0' :: 'x' :: digits) :
    isHex (prepend0x message) = true ↔ digits ≠ [] ∧ ∀ c ∈ digits, isHexDigit c = true := by
  have hstarts : startsWith message constants.EMPTY_HEX = true := startsWith_of_toList h
  rw [prepend0x, if_pos hstarts, isHex, h]
  simp

private theorem toList_prepend0x_ASCIIToHex :
    (prepend0x (ASCIIToHex message)).toList = '0' :: 'x' :: charDigits message.toList := by
  have hstarts : startsWith (ASCIIToHex message) constants.EMPTY_HEX = false := by
    rw [Bool.eq_false_iff]
    intro hstarts
    obtain ⟨digits, hdigits⟩ := exists_of_startsWith hstarts
    rw [toList_ASCIIToHex] at hdigits
    have hmem : 'x' ∈ charDigits message.toList := by
      rw [hdigits]
      simp
    exact absurd (isHexDigit_charDigits 'x' hmem) (by decide)
  rw [prepend0x, hstarts]
  simp [toList_ASCIIToHex, constants.EMPTY_HEX]

private theorem decodesBack_self_iff (h : isHex (prepend0x message) = true) :
    DecodesBack message message ↔ startsWith message "0x" ∧ message.length % 2 = 0 := by
  constructor
  · intro ⟨digits, bytes, htext, hdecode, _⟩
    have hlength := Hex.length_of_decode? hdecode
    rw [← String.length_toList, htext, List.length_cons, List.length_cons, hlength]
    exact ⟨startsWith_of_toList htext, by omega⟩
  · intro ⟨hstarts, heven⟩
    obtain ⟨digits, htext⟩ := exists_of_startsWith hstarts
    rw [← String.length_toList, htext, List.length_cons, List.length_cons] at heven
    obtain ⟨bytes, hbytes⟩ :=
      Hex.exists_decode? ((isHex_of_toList htext).mp h).2 (by omega)
    exact ⟨digits, bytes, htext, hbytes, Or.inl rfl⟩

private theorem decodesBack_encoded_iff (hhex : isHex (prepend0x message) = false)
    (hascii : ∀ c ∈ message.toList, c.toNat < 128) :
    DecodesBack message (prepend0x (ASCIIToHex message)) ↔
      ∀ c ∈ message.toList, 0x10 ≤ c.toNat := by
  constructor
  · intro ⟨digits, bytes, htext, hdecode, hor⟩ c hc
    rw [toList_prepend0x_ASCIIToHex, List.cons.injEq, List.cons.injEq] at htext
    obtain ⟨_, _, rfl⟩ := htext
    by_contra hsmall
    have hlt := length_charDigits_lt hascii hc (Nat.not_le.mp hsmall)
    rcases hor with hself | hbytes
    · have htext := congrArg String.toList hself.symm
      rw [toList_prepend0x_ASCIIToHex] at htext
      have hne : charDigits message.toList ≠ [] := by
        rw [htext]
        simp [charDigits]
      have htrue := (isHex_of_toList htext).mpr ⟨hne, isHexDigit_charDigits⟩
      rw [hhex] at htrue
      cases htrue
    · have hlength := Hex.length_of_decode? hdecode
      have hcount := congrArg List.length hbytes
      rw [List.length_map] at hcount
      omega
  · intro hlarge
    have hcodes : ∀ c ∈ message.toList, 16 ≤ c.toNat ∧ c.toNat < 128 :=
      fun c hc => ⟨hlarge c hc, hascii c hc⟩
    refine ⟨charDigits message.toList, message.toList.map fun c => UInt8.ofNat c.toNat,
      toList_prepend0x_ASCIIToHex, ?_, Or.inr ?_⟩
    · rw [charDigits_eq_text hcodes, Hex.decode?_text]
    · rw [List.map_map]
      conv_rhs => rw [← List.map_id message.toList]
      apply List.map_congr_left
      intro c hc
      have hbyte : c.toNat % 2 ^ 8 = c.toNat := Nat.mod_eq_of_lt (by have := hascii c hc; omega)
      rw [Function.comp_apply, UInt8.toNat_ofNat', hbyte, Char.ofNat_toNat]
      rfl

end Reasons

/-- The revert reason of a message can be decoded exactly if the message with the prefix is no
hexadecimal number and has no character with a code of one digit, or if it is a text of bytes with
its own prefix. -/
theorem revertReason_decodes_iff (params : RegularReceiptParams) (message : String)
    (hmessage : params.receiptResponse.errorMessage = some message) (hne : message ≠ "")
    (hascii : ∀ c ∈ message.toList, c.toNat ≤ 0x7f) :
    (∃ reason, (createRegularReceipt params).revertReason = some reason ∧
      DecodesBack message reason) ↔ Decodable message := by
  have hlt : ∀ c ∈ message.toList, c.toNat < 128 :=
    fun c hc => Nat.lt_succ_of_le (hascii c hc)
  have hreason : (createRegularReceipt params).revertReason =
      some (if isHex (prepend0x message) then message else prepend0x (ASCIIToHex message)) := by
    simp only [createRegularReceipt, hmessage, hne, if_false]
    split_ifs
    · rfl
    · rfl
  rw [hreason, Decodable]
  cases hhex : isHex (prepend0x message) with
  | true => simp [decodesBack_self_iff hhex]
  | false => simp [decodesBack_encoded_iff hhex hlt]

/-- The receipt of a transaction that has failed with a message. -/
def failedReceipt (message : String) : RegularReceiptParams where
  effectiveGas := "0x0"
  fromAddress := "0xa1"
  logs := []
  receiptResponse := { exampleResult with errorMessage := some message }
  toAddress := none

theorem revertReason_decodes_iff_message :
    ∃ reason, (createRegularReceipt (failedReceipt "INVALID")).revertReason = some reason ∧
      DecodesBack "INVALID" reason := by
  refine (revertReason_decodes_iff (failedReceipt "INVALID") "INVALID" rfl (by decide)
    (by simp)).mpr ?_
  have hhex : isHex (prepend0x "INVALID") = false := by decide
  simp [Decodable, hhex]

/-- A message of hexadecimal digits is shown without a prefix, and a line break is written with one
digit. -/
theorem digits_shown_unencoded :
    ¬(∃ reason, (createRegularReceipt (failedReceipt "bad")).revertReason = some reason ∧
      DecodesBack "bad" reason) ∧
    ¬∃ reason, (createRegularReceipt (failedReceipt "no\n")).revertReason = some reason ∧
      DecodesBack "no\n" reason := by
  constructor
  · intro ⟨reason, hreason, digits, bytes, htext, _⟩
    have hbad : (createRegularReceipt (failedReceipt "bad")).revertReason = some "bad" := by decide
    rw [hbad, Option.some.injEq] at hreason
    rw [← hreason] at htext
    simp at htext
  · intro ⟨reason, hreason, digits, bytes, htext, hdecode, _⟩
    have hline : (createRegularReceipt (failedReceipt "no\n")).revertReason = some "0x6e6fa" := by
      decide
    rw [hline, Option.some.injEq] at hreason
    rw [← hreason] at htext
    have hlength := Hex.length_of_decode? hdecode
    have hdigits := congrArg List.length htext
    simp at hdigits
    omega

end JsonRpcRelay.Blocks
