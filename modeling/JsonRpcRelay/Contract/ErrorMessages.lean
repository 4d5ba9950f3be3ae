import JsonRpcRelay.Formatters
import JsonRpcRelay.Framework.HexBytes

/-!
# Error messages of contracts

A contract reverts with the encoding of `Error(string)`: a selector, the place of the argument,
the number of its bytes and the bytes, filled up to whole words.  The decoder takes every byte for
a character, and any text with `0x` in it for an encoding.
-/

namespace JsonRpcRelay.Contract

open Framework Js

section Encoding

/-- A number in a word of 32 bytes. -/
def word (n : ℕ) : List Char :=
  List.replicate (64 - (Nat.toDigits 16 n).length) '0' ++ Nat.toDigits 16 n

def utf8 (text : List Char) : List UInt8 := text.flatMap String.utf8EncodeChar

/-- What `Error(string)` is encoded as. -/
def errorData (text : String) : List Char :=
  let bytes := utf8 text.toList
  ['0', '8', 'c', '3', '7', '9', 'a', '0'] ++ word 0x20 ++ word bytes.length ++ Hex.text bytes ++
    List.replicate ((64 - 2 * bytes.length % 64) % 64) '0'

def errorPayload (text : String) : String := "0x" ++ String.ofList (errorData text)

private theorem length_word {n : ℕ} (h : n < 2 ^ 256) : (word n).length = 64 := by
  have hdigits : (Nat.toDigits 16 n).length ≤ 64 := by
    rw [Nat.length_toDigits_le_iff (by decide) (by decide), show 16 = 2 ^ 4 from rfl, ← Nat.pow_mul]
    exact h
  rw [word, List.length_append, List.length_replicate]
  omega

private theorem isHexDigit_word (n : ℕ) : ∀ c ∈ word n, isHexDigit c = true := by
  intro c hc
  rcases List.mem_append.mp hc with hc | hc
  · rw [List.eq_of_mem_replicate hc]
    rfl
  · exact isHexDigit_toDigits n c hc

private theorem ofHexDigits_word (n : ℕ) : ofHexDigits (word n) = n := by
  have hzeros (k : ℕ) : ofHexDigits (List.replicate k '0') = 0 := by
    induction k with
    | zero => rfl
    | succ k ih => exact ih
  rw [word, ofHexDigits_append, hzeros]
  exact ofHexDigits_toDigits n

private theorem isHexDigit_text (bytes : List UInt8) : ∀ c ∈ Hex.text bytes, isHexDigit c = true :=
  Hex.isHexDigit_of_decode? (Hex.decode?_text bytes)

private theorem isHexDigit_errorData (text : String) :
    ∀ c ∈ errorData text, isHexDigit c = true := by
  have hzero : isHexDigit '0' = true := rfl
  intro c hc
  simp only [errorData, List.mem_append] at hc
  rcases hc with (((hc | hc) | hc) | hc) | hc
  · have hselector : ['0', '8', 'c', '3', '7', '9', 'a', '0'].all isHexDigit = true := by decide
    exact List.all_eq_true.mp hselector c hc
  · exact isHexDigit_word _ c hc
  · exact isHexDigit_word _ c hc
  · exact isHexDigit_text _ c hc
  · rwa [List.eq_of_mem_replicate hc]

end Encoding

section Decoding

/-- The characters that bytes are taken for. -/
def byteChars (bytes : List UInt8) : List Char := bytes.map fun b => Char.ofNat b.toNat

private theorem codes_text (bytes : List UInt8) :
    hexToASCII.codes (Hex.text bytes) = byteChars bytes := by
  induction bytes with
  | nil => rfl
  | cons b bytes ih =>
    have hlt := b.toNat_lt
    have hdigits : parseInt16 (String.ofList (Hex.byteText b)) = some (b.toNat : ℤ) := by
      rw [parseInt16_of_digits (by simp [Hex.byteText])]
      · simp [Hex.byteText, ofHexDigits, hexDigit?_digitChar (show b.toNat / 16 < 16 by omega),
          hexDigit?_digitChar (show b.toNat % 16 < 16 by omega)]
        omega
      · intro c hc
        exact isHexDigit_text [b] c (by simpa [Hex.text] using hc)
    have hcode : fromCharCode (some (b.toNat : ℤ)) = Char.ofNat b.toNat := by
      have hmod : (b.toNat : ℤ) % 2 ^ 16 = b.toNat := Int.emod_eq_of_lt (by omega) (by omega)
      rw [fromCharCode, Option.getD_some, hmod, Int.toNat_natCast]
    show fromCharCode (parseInt16 (String.ofList (Hex.byteText b))) ::
      hexToASCII.codes (Hex.text bytes) = _
    rw [hdigits, hcode, ih]
    rfl

private theorem decodeErrorMessage_errorPayload {text : String}
    (hsize : (utf8 text.toList).length < 2 ^ 256) :
    decodeErrorMessage (errorPayload text) = String.ofList (byteChars (utf8 text.toList)) := by
  obtain ⟨bytes, hbytes⟩ : ∃ bytes, bytes = utf8 text.toList := ⟨_, rfl⟩
  have hlist : (errorPayload text).toList = '0' :: 'x' :: errorData text := by
    simp [errorPayload]
  have hprefix : ['0', 'x'] <:+: (errorPayload text).toList := by
    rw [hlist]
    exact ⟨[], errorData text, rfl⟩
  have hhex : units (strip0x (errorPayload text)).toList = errorData text := by
    have hstarts : startsWith (errorPayload text) constants.EMPTY_HEX = true := by
      rw [startsWith, hlist]
      rfl
    rw [strip0x, if_pos hstarts, substringFrom, hlist, String.toList_ofList]
    apply units_eq_self
    intro c hc
    have hrange := isHexDigit_iff.mp (isHexDigit_errorData text c hc)
    omega
  have hwords : (word 0x20).length = 64 ∧ (word bytes.length).length = 64 :=
    ⟨length_word (by decide), length_word (hbytes ▸ hsize)⟩
  have hlength : slice (errorData text) 72 136 = word bytes.length := by
    simp only [errorData, ← hbytes]
    rw [List.append_assoc (_ ++ word bytes.length)]
    apply slice_append
    · simp [hwords.1]
    · simp [hwords.1, hwords.2]
  have hresult : slice (errorData text) 136 (136 + bytes.length * 2) = Hex.text bytes := by
    simp only [errorData, ← hbytes]
    apply slice_append
    · simp [hwords.1, hwords.2]
    · simp [hwords.1, hwords.2, Int.mul_comm]
  have hread : parseInt16 (String.ofList (word bytes.length)) = some (bytes.length : ℤ) := by
    have hne : word bytes.length ≠ [] := by
      rw [← List.length_pos_iff, hwords.2]
      decide
    rw [parseInt16_of_digits hne (isHexDigit_word _), ofHexDigits_word]
  rw [decodeErrorMessage, if_neg (not_not.mpr hprefix)]
  simp only [hhex, hlength, hread, Option.map_some, Option.getD_some, hresult, hexToASCII,
    String.toList_ofList]
  rw [codes_text, hbytes]

end Decoding

section Ascii

private theorem utf8EncodeChar_of_lt {c : Char} (h : c.toNat < 128) :
    byteChars (String.utf8EncodeChar c) = [c] := by
  have hsize : c.utf8Size = 1 := by
    rw [Char.utf8Size_eq_one_iff, UInt32.le_iff_toNat_le]
    exact Nat.le_of_lt_succ h
  have hbyte : c.val.toUInt8.toNat = c.toNat := by
    rw [UInt32.toNat_toUInt8]
    exact Nat.mod_eq_of_lt (Nat.lt_trans h (by decide))
  rw [String.utf8EncodeChar_eq_singleton hsize, byteChars, List.map_singleton, hbyte,
    Char.ofNat_toNat]

private theorem byteChars_utf8 {cs : List Char} (h : ∀ c ∈ cs, c.toNat < 128) :
    byteChars (utf8 cs) = cs := by
  induction cs with
  | nil => rfl
  | cons c cs ih =>
    obtain ⟨hc, hcs⟩ := List.forall_mem_cons.mp h
    have hfirst := utf8EncodeChar_of_lt hc
    have hrest := ih hcs
    rw [byteChars] at hfirst hrest
    rw [utf8, List.flatMap_cons, byteChars, List.map_append, hfirst]
    exact congrArg (List.cons c) hrest

private theorem length_le_utf8 (cs : List Char) : cs.length ≤ (utf8 cs).length := by
  induction cs with
  | nil => simp
  | cons c cs ih =>
    have hpos := c.utf8Size_pos
    rw [utf8, List.flatMap_cons, List.length_append, String.length_utf8EncodeChar, List.length_cons]
    change cs.length + 1 ≤ c.utf8Size + (utf8 cs).length
    omega

/-- The bytes of a text are its characters if and only if these are ASCII. -/
theorem byteChars_utf8_iff {cs : List Char} :
    byteChars (utf8 cs) = cs ↔ ∀ c ∈ cs, c.toNat < 128 := by
  constructor
  · intro h c hc
    obtain ⟨before, after, rfl⟩ := List.append_of_mem hc
    have hlength := congrArg List.length h
    have hbefore := length_le_utf8 before
    have hafter := length_le_utf8 after
    have hpos := c.utf8Size_pos
    simp only [byteChars, List.length_map, utf8, List.flatMap_append, List.flatMap_cons,
      List.length_append, List.length_cons, String.length_utf8EncodeChar] at hlength hbefore hafter
    have hsize : c.utf8Size = 1 := by omega
    rw [Char.utf8Size_eq_one_iff, UInt32.le_iff_toNat_le] at hsize
    exact Nat.lt_succ_of_le hsize
  · exact byteChars_utf8

end Ascii

section Messages

private theorem length_codes (hex : List Char) :
    (hexToASCII.codes hex).length = (hex.length + 1) / 2 := by
  induction hex using hexToASCII.codes.induct with
  | case1 => rfl
  | case2 a => simp [hexToASCII.codes]
  | case3 a b hex ih =>
    rw [hexToASCII.codes, List.length_cons, ih, List.length_cons, List.length_cons]
    omega

/-- A text with the prefix inside becomes shorter. -/
theorem length_decodeErrorMessage_lt {message : String}
    (hstarts : startsWith message "0x" = false) (h : ['0', 'x'] <:+: message.toList) :
    (decodeErrorMessage message).length < message.length := by
  have hstrip : strip0x message = message := by
    rw [strip0x, constants.EMPTY_HEX, hstarts]
    rfl
  have hunits := length_units_le message.toList
  have hpos : 2 ≤ message.toList.length := h.length_le
  have hslice (stop : ℤ) :
      (slice (units message.toList) 136 stop).length ≤ (units message.toList).length - 136 := by
    have hle := length_slice_le (units message.toList) 136 stop
    have hindex : sliceIndex (units message.toList).length 136 =
        min 136 (units message.toList).length := rfl
    rw [hindex] at hle
    omega
  have hresult : ∃ stop, decodeErrorMessage message =
      hexToASCII (String.ofList (slice (units message.toList) 136 stop)) := by
    rw [decodeErrorMessage, if_neg (not_not.mpr h), hstrip]
    exact ⟨_, rfl⟩
  obtain ⟨stop, hresult⟩ := hresult
  have hle := hslice stop
  rw [hresult, hexToASCII, String.toList_ofList, String.length_ofList, length_codes,
    ← String.length_toList]
  omega

end Messages

/-- An encoded text is decoded exactly if it is ASCII, and another text is its own message exactly
if it does not contain the prefix. -/
theorem decodeErrorMessage_iff (text message : String)
    (hsize : (utf8 text.toList).length < 2 ^ 256) (hstarts : startsWith message "0x" = false) :
    (decodeErrorMessage (errorPayload text) = text ↔ ∀ c ∈ text.toList, c.toNat < 0x80) ∧
    (decodeErrorMessage message = message ↔ ¬(['0', 'x'] <:+: message.toList)) := by
  constructor
  · rw [decodeErrorMessage_errorPayload hsize, ← byteChars_utf8_iff, ← String.toList_inj,
      String.toList_ofList]
  · constructor
    · intro h hinfix
      have hlt := length_decodeErrorMessage_lt hstarts hinfix
      rw [h] at hlt
      exact absurd hlt (Nat.lt_irrefl _)
    · intro h
      rw [decodeErrorMessage, if_pos h]

theorem decodeErrorMessage_revert :
    decodeErrorMessage (errorPayload "Set to revert") = "Set to revert" ∧
    decodeErrorMessage "INVALID" = "INVALID" := by
  have hboth := decodeErrorMessage_iff "Set to revert" "INVALID" (by decide) (by decide)
  refine ⟨hboth.1.mpr (by simp), hboth.2.mpr ?_⟩
  decide

/-- An accent is taken for two characters, and a text that mentions an address is lost. -/
theorem accent_and_mention_lost :
    decodeErrorMessage (errorPayload "é") ≠ "é" ∧
      startsWith "no 0x1" "0x" = false ∧ decodeErrorMessage "no 0x1" ≠ "no 0x1" := by
  refine ⟨?_, by decide, ?_⟩
  · rw [decodeErrorMessage_errorPayload (by decide)]
    decide
  · decide

end JsonRpcRelay.Contract
