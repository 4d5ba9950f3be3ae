import JsonRpcRelay.JavaScript

/-!
# Bytes in hexadecimal

Every byte is written with two digits, and read from two digits of either case.  One reader takes
a text as a whole, the other one stops at the first pair that is no byte.
-/

namespace JsonRpcRelay.Framework.Hex

open Js

def byteText (b : UInt8) : List Char :=
  [Nat.digitChar (b.toNat / 16), Nat.digitChar (b.toNat % 16)]

def text (bytes : List UInt8) : List Char := bytes.flatMap byteText

/-- The byte that two characters stand for. -/
def byte? (a b : Char) : Option UInt8 :=
  match hexDigit? a, hexDigit? b with
  | some x, some y => some (UInt8.ofNat (16 * x + y))
  | _, _ => none

def decode? : List Char → Option (List UInt8)
  | [] => some []
  | [_] => none
  | a :: b :: rest =>
    match byte? a b with
    | some byte => (decode? rest).map (byte :: ·)
    | none => none

def decodeFront : List Char → List UInt8
  | a :: b :: rest =>
    match byte? a b with
    | some byte => byte :: decodeFront rest
    | none => []
  | _ => []

section Writing

private theorem byte?_byteText (b : UInt8) :
    byte? (Nat.digitChar (b.toNat / 16)) (Nat.digitChar (b.toNat % 16)) = some b := by
  have hlt := b.toNat_lt
  rw [byte?, hexDigit?_digitChar (by omega), hexDigit?_digitChar (by omega)]
  have hbyte : 16 * (b.toNat / 16) + b.toNat % 16 = b.toNat := by omega
  simp only [hbyte, UInt8.ofNat_toNat]

/-- What is written is read back. -/
@[simp] theorem decode?_text (bytes : List UInt8) : decode? (text bytes) = some bytes := by
  induction bytes with
  | nil => rfl
  | cons b bytes ih =>
    show decode? (_ :: _ :: text bytes) = _
    rw [decode?, byte?_byteText, ih]
    rfl

@[simp] theorem length_text (bytes : List UInt8) : (text bytes).length = 2 * bytes.length := by
  induction bytes with
  | nil => rfl
  | cons b bytes ih => simp [text, byteText] at ih ⊢; omega

end Writing

section Reading

variable {digits : List Char} {bytes : List UInt8}

/-- A text of bytes is read to its end. -/
theorem decodeFront_of_decode? (h : decode? digits = some bytes) : decodeFront digits = bytes := by
  induction digits using decode?.induct generalizing bytes with
  | case1 =>
    cases h
    rfl
  | case2 => simp [decode?] at h
  | case3 a b rest byte hbyte ih =>
    rw [decode?, hbyte] at h
    obtain ⟨tail, htail, hbytes⟩ := Option.map_eq_some_iff.mp h
    rw [decodeFront, hbyte]
    simpa [ih htail] using hbytes
  | case4 a b rest hbyte => simp [decode?, hbyte] at h

theorem length_of_decode? (h : decode? digits = some bytes) :
    digits.length = 2 * bytes.length := by
  induction digits using decode?.induct generalizing bytes with
  | case1 =>
    cases h
    rfl
  | case2 => simp [decode?] at h
  | case3 a b rest byte hbyte ih =>
    rw [decode?, hbyte] at h
    obtain ⟨tail, htail, hbytes⟩ := Option.map_eq_some_iff.mp h
    have hlength := ih htail
    subst hbytes
    simp only [List.length_cons]
    omega
  | case4 a b rest hbyte => simp [decode?, hbyte] at h

private theorem isHexDigit_of_byte? {a b : Char} {byte : UInt8} (h : byte? a b = some byte) :
    isHexDigit a = true ∧ isHexDigit b = true := by
  unfold byte? at h
  split at h
  · rename_i x y hx hy
    simp [isHexDigit, hx, hy]
  · cases h

theorem isHexDigit_of_decode? (h : decode? digits = some bytes) :
    ∀ c ∈ digits, isHexDigit c = true := by
  induction digits using decode?.induct generalizing bytes with
  | case1 => simp
  | case2 => simp [decode?] at h
  | case3 a b rest byte hbyte ih =>
    rw [decode?, hbyte] at h
    obtain ⟨tail, htail, _⟩ := Option.map_eq_some_iff.mp h
    obtain ⟨ha, hb⟩ := isHexDigit_of_byte? hbyte
    simp only [List.mem_cons, forall_eq_or_imp]
    exact ⟨ha, hb, ih htail⟩
  | case4 a b rest hbyte => simp [decode?, hbyte] at h

/-- Any even number of digits is a text of bytes. -/
theorem exists_decode? (hdigits : ∀ c ∈ digits, isHexDigit c = true)
    (heven : digits.length % 2 = 0) : ∃ bytes, decode? digits = some bytes := by
  induction digits using decode?.induct with
  | case1 => exact ⟨[], rfl⟩
  | case2 => simp at heven
  | case3 a b rest byte hbyte ih =>
    simp only [List.length_cons] at heven
    obtain ⟨bytes, hbytes⟩ := ih (fun c hc => hdigits c (by simp [hc])) (by omega)
    exact ⟨byte :: bytes, by rw [decode?, hbyte, hbytes]; rfl⟩
  | case4 a b rest hbyte =>
    obtain ⟨x, hx⟩ := Option.isSome_iff_exists.mp (hdigits a (by simp))
    obtain ⟨y, hy⟩ := Option.isSome_iff_exists.mp (hdigits b (by simp))
    simp [byte?, hx, hy] at hbyte

end Reading

end JsonRpcRelay.Framework.Hex
