import Mathlib.Data.List.DropRight
import JsonRpcRelay.JavaScript

/-!
# The forwarded address

The mirror node client names the client of a request in the header `Forwarded`, and the server
reads the first address of such a header.  What is written is read back, whatever follows it.
-/

namespace JsonRpcRelay.Server

open Js

section Strings

/-- `text.trim()`. -/
def trim (text : List Char) : List Char := (text.dropWhile isWhitespace).rdropWhile isWhitespace

/-- `text.indexOf(search, start)`. -/
def indexOf (search text : List Char) (start : ℕ) : Option ℕ :=
  ((text.drop start).tails.findIdx? search.isPrefixOf).map (start + ·)

/-- The lower case of a character, unless it has letters outside ASCII, when the character is
left as it is. -/
def lowerCase (c : Char) : List Char :=
  if c.toNat = 0x130 then ['i', Char.ofNat 0x307]
  else if c.toNat = 0x212A then ['k']
  else [c.toLower]

/-- `text.toLowerCase()`, to be searched for ASCII text. -/
def toLowerCase (text : List Char) : List Char := text.flatMap lowerCase

/-- The first of the parts of `text.split(',')` goes on to the first comma. -/
theorem head?_splitOn_append {front : List Char} (h : ',' ∉ front) (rest : List Char) :
    ∃ tail, ((front ++ rest).splitOn ',').head? = some (front ++ tail) := by
  induction front with
  | nil => exact ⟨_, List.head?_eq_some_head (List.splitOn_ne_nil _ _)⟩
  | cons c front ih =>
    simp only [List.mem_cons, not_or] at h
    obtain ⟨tail, htail⟩ := ih h.2
    refine ⟨tail, ?_⟩
    rw [List.cons_append, List.splitOn_cons_eq_if_modifyHead, if_neg (by simpa using Ne.symm h.1)]
    simp [htail]

/-- Only what follows the last other character is trimmed. -/
theorem trim_append {c d : Char} (hc : isWhitespace c = false) (hd : isWhitespace d = false)
    (front tail : List Char) :
    ∃ tail', trim (c :: front ++ d :: tail) = c :: front ++ d :: tail' := by
  rw [trim, List.cons_append, List.dropWhile_cons_of_neg (by simp [hc])]
  induction tail using List.reverseRecOn with
  | nil =>
    refine ⟨[], ?_⟩
    rw [← List.cons_append]
    exact List.rdropWhile_concat_neg isWhitespace (c :: front) d (by simp [hd])
  | append_singleton tail x ih =>
    obtain ⟨tail', htail⟩ := ih
    have hassoc : c :: (front ++ d :: (tail ++ [x])) = (c :: (front ++ d :: tail)) ++ [x] := by simp
    rw [hassoc, List.rdropWhile_concat]
    by_cases hx : isWhitespace x = true
    · exact ⟨tail', by rw [if_pos hx, htail]⟩
    · exact ⟨tail ++ [x], by rw [if_neg hx, ← hassoc, List.cons_append]⟩

private theorem indexOf_char {front rest before : List Char} {c : Char} (h : c ∉ front) :
    indexOf [c] (before ++ (front ++ c :: rest)) before.length =
      some (before.length + front.length) := by
  have hfind : (front ++ c :: rest).tails.findIdx? [c].isPrefixOf = some front.length := by
    induction front with
    | nil => simp [List.findIdx?_cons]
    | cons d front ih =>
      simp only [List.mem_cons, not_or] at h
      rw [List.cons_append, List.tails_cons, List.findIdx?_cons, ih h.2]
      simp [List.isPrefixOf, h.1]
  rw [indexOf, List.drop_left, hfind, Option.map_some]

private theorem units_append (a b : List Char) : units (a ++ b) = units a ++ units b :=
  List.flatMap_append

end Strings

section Client

/-- An address with a colon is put in brackets. -/
def formatIpForForwardedHeader (ip : String) : String :=
  if ip.toList.contains ':' && !startsWith ip "[" then "[" ++ ip ++ "]" else ip

/-- The header `Forwarded` of a request to the mirror node. -/
def forwardedHeader (ipAddress : Option String) : Option String :=
  match ipAddress with
  | none => none
  | some ip =>
      if trim ip.toList = [] then none
      else some ("for=\"" ++ formatIpForForwardedHeader ip ++ "\"")

end Client

section Server

def unbracketed (ip : List Char) : List Char :=
  if ip.head? = some '[' ∧ ip.getLast? = some ']' then (ip.take (ip.length - 1)).drop 1 else ip

/-- `for="192.168.1.1"` and `for="[2001:db8::1]"`. -/
def quotedValue (firstEntry : List Char) (valueStart : ℕ) : Option (List Char) :=
  (indexOf ['"'] firstEntry (valueStart + 1)).map fun closeQuoteIndex =>
    unbracketed ((firstEntry.take closeQuoteIndex).drop (valueStart + 1))

/-- `for=[2001:db8::1]`. -/
def bracketedValue (firstEntry : List Char) (valueStart : ℕ) : Option (List Char) :=
  (indexOf [']'] firstEntry (valueStart + 1)).map fun closeBracketIndex =>
    (firstEntry.take closeBracketIndex).drop (valueStart + 1)

/-- `for=192.168.1.1`. -/
def unquotedValue (firstEntry : List Char) (valueStart : ℕ) : List Char :=
  (firstEntry.drop valueStart).takeWhile fun c =>
    !(c = ';' || c = ',' || c = ' ' || c = '\t')

/-- `[a-fA-F0-9:.]`. -/
def isIpChar (c : Char) : Bool := isHexDigit c || c = ':' || c = '.'

def isIpText (ip : List Char) : Bool := ip ≠ [] ∧ ip.length ≤ 45 ∧ ip.all isIpChar

/-- The header is given by its code units. -/
def firstAddress (header : List Char) : Option (List Char) :=
  if header.length > 1000 then none
  else
    let firstEntry := trim ((header.splitOn ',').head?.getD [])
    if firstEntry = [] then none
    else
      match indexOf ['f', 'o', 'r', '='] (toLowerCase firstEntry) 0 with
      | none => none
      | some forIndex =>
          let valueStart := forIndex + 4
          let ip := match firstEntry[valueStart]? with
            | none => none
            | some '"' => quotedValue firstEntry valueStart
            | some '[' => bracketedValue firstEntry valueStart
            | some _ => some (unquotedValue firstEntry valueStart)
          ip.filter isIpText

def parseForwardedHeader (forwardedHeader : String) : Option String :=
  (firstAddress (units forwardedHeader.toList)).map String.ofList

private theorem firstAddress_quoted {inner rest : List Char} (hcomma : ',' ∉ inner)
    (hquote : '"' ∉ inner)
    (hlength : (['f', 'o', 'r', '=', '"'] ++ (inner ++ '"' :: rest)).length ≤ 1000) :
    firstAddress (['f', 'o', 'r', '=', '"'] ++ (inner ++ '"' :: rest)) =
      (some (unbracketed inner)).filter isIpText := by
  have hfront : ',' ∉ ['f', 'o', 'r', '=', '"'] ++ inner ++ ['"'] := by simp [hcomma]
  obtain ⟨tail, htail⟩ := head?_splitOn_append hfront rest
  have hassoc (r : List Char) : ['f', 'o', 'r', '=', '"'] ++ inner ++ ['"'] ++ r =
      ['f', 'o', 'r', '=', '"'] ++ (inner ++ '"' :: r) := by simp
  rw [hassoc, hassoc] at htail
  obtain ⟨tail', htrim⟩ := trim_append (show isWhitespace 'f' = false by decide)
    (show isWhitespace '"' = false by decide) (['o', 'r', '=', '"'] ++ inner) tail
  have hentry : trim (['f', 'o', 'r', '=', '"'] ++ (inner ++ '"' :: tail)) =
      ['f', 'o', 'r', '=', '"'] ++ (inner ++ '"' :: tail') := by simpa using htrim
  have hfor : indexOf ['f', 'o', 'r', '=']
      (toLowerCase (['f', 'o', 'r', '=', '"'] ++ (inner ++ '"' :: tail'))) 0 = some 0 := by
    rw [toLowerCase, List.flatMap_append]
    rfl
  have hvalue : quotedValue (['f', 'o', 'r', '=', '"'] ++ (inner ++ '"' :: tail')) 4 =
      some (unbracketed inner) := by
    have hclose : indexOf ['"'] (['f', 'o', 'r', '=', '"'] ++ (inner ++ '"' :: tail')) (4 + 1) =
        some (5 + inner.length) := indexOf_char hquote
    have htake : (['f', 'o', 'r', '=', '"'] ++ (inner ++ '"' :: tail')).take (5 + inner.length) =
        ['f', 'o', 'r', '=', '"'] ++ inner := by
      rw [← List.append_assoc]
      exact List.take_left' (by simp; omega)
    rw [quotedValue, hclose, Option.map_some, htake]
    rfl
  have hshort : ¬(['f', 'o', 'r', '=', '"'] ++ (inner ++ '"' :: rest)).length > 1000 := by omega
  rw [firstAddress, if_neg hshort, htail]
  dsimp only [Option.getD_some]
  rw [hentry, if_neg (by simp), hfor]
  exact congrArg (Option.filter isIpText) hvalue

end Server

section RoundTrip

/-- The text of an address: hexadecimal digits, colons and dots. -/
structure ClientIp where
  text : String
  nonempty : text ≠ ""
  length_le : text.length ≤ 45
  all_isIpChar : text.toList.all isIpChar = true

namespace ClientIp

variable (ip : ClientIp)

theorem of_mem {c : Char} (hc : c ∈ ip.text.toList) : isHexDigit c = true ∨ c = ':' ∨ c = '.' := by
  have hchar := List.all_eq_true.mp ip.all_isIpChar c hc
  simpa [isIpChar, or_assoc] using hchar

theorem notMem {c : Char} (hhex : isHexDigit c = false) (hcolon : c ≠ ':') (hdot : c ≠ '.') :
    c ∉ ip.text.toList := by
  intro hmem
  rcases ip.of_mem hmem with h | h | h
  · rw [hhex] at h
    cases h
  · exact hcolon h
  · exact hdot h

private theorem isIpText_toList : isIpText ip.text.toList = true := by
  have hnil : ip.text.toList ≠ [] := fun h => ip.nonempty (String.toList_eq_nil_iff.mp h)
  have hlength : ip.text.toList.length ≤ 45 := ip.length_le
  exact decide_eq_true ⟨hnil, hlength, ip.all_isIpChar⟩

/-- The client's brackets are the ones that the server takes away. -/
theorem unbracketed_format :
    unbracketed (formatIpForForwardedHeader ip.text).toList = ip.text.toList := by
  have hopen : '[' ∉ ip.text.toList := ip.notMem (by decide) (by decide) (by decide)
  rw [formatIpForForwardedHeader]
  split
  · have htext : ("[" ++ ip.text ++ "]").toList = '[' :: (ip.text.toList ++ [']']) := by simp
    have hlast : ('[' :: (ip.text.toList ++ [']'])).getLast? = some ']' := by
      rw [← List.cons_append, List.getLast?_concat]
    rw [htext, unbracketed, if_pos ⟨rfl, hlast⟩]
    simp
  · rw [unbracketed, if_neg]
    intro h
    exact hopen (List.mem_of_mem_head? h.1)

private theorem isWhitespace_eq_false {c : Char} (hc : c ∈ ip.text.toList) :
    isWhitespace c = false := by
  simp only [isWhitespace, decide_eq_false_iff_not, List.mem_cons, List.not_mem_nil, or_false]
  rcases ip.of_mem hc with h | rfl | rfl
  · have hrange := isHexDigit_iff.mp h
    omega
  · decide
  · decide

private theorem trim_ne_nil : trim ip.text.toList ≠ [] := by
  cases htext : ip.text.toList with
  | nil => exact absurd (String.toList_eq_nil_iff.mp htext) ip.nonempty
  | cons c rest =>
    have hc : isWhitespace c = false := ip.isWhitespace_eq_false (htext ▸ List.mem_cons_self)
    intro hnil
    rw [trim, List.dropWhile_cons_of_neg (by simp [hc]), List.rdropWhile_eq_nil_iff] at hnil
    rw [hnil c List.mem_cons_self] at hc
    cases hc

private theorem units_format : units (formatIpForForwardedHeader ip.text).toList =
    (formatIpForForwardedHeader ip.text).toList := by
  have hip : ∀ c ∈ ip.text.toList, c.toNat < 2 ^ 16 := by
    intro c hc
    rcases ip.of_mem hc with h | rfl | rfl
    · have hrange := isHexDigit_iff.mp h
      omega
    · decide
    · decide
  apply units_eq_self
  rw [formatIpForForwardedHeader]
  split
  · intro c hc
    have hmem : c = '[' ∨ c ∈ ip.text.toList ∨ c = ']' := by simpa [or_assoc] using hc
    rcases hmem with rfl | hmem | rfl
    · decide
    · exact hip c hmem
    · decide
  · exact hip

private theorem notMem_format {c : Char} (hhex : isHexDigit c = false) (hcolon : c ≠ ':')
    (hdot : c ≠ '.')
    (hopen : c ≠ '[') (hclose : c ≠ ']') : c ∉ (formatIpForForwardedHeader ip.text).toList := by
  have hmem := ip.notMem hhex hcolon hdot
  rw [formatIpForForwardedHeader]
  split
  · simp [hmem, hopen, hclose]
  · exact hmem

end ClientIp

/-- What the client writes for an address is read as the address, whatever follows it within the
length of a header: parameters behind a semicolon, entries behind a comma, or nothing. -/
theorem forwarded_address_read (ip : ClientIp) (rest : String) :
    ∃ header, forwardedHeader (some ip.text) = some header ∧
      ((units (header ++ rest).toList).length ≤ 1000 →
        parseForwardedHeader (header ++ rest) = some ip.text) := by
  refine ⟨"for=\"" ++ formatIpForForwardedHeader ip.text ++ "\"", ?_, ?_⟩
  · rw [forwardedHeader, if_neg ip.trim_ne_nil]
  · intro hlength
    have hunits : units ("for=\"" ++ formatIpForForwardedHeader ip.text ++ "\"" ++ rest).toList =
        ['f', 'o', 'r', '=', '"'] ++
          ((formatIpForForwardedHeader ip.text).toList ++ '"' :: units rest.toList) := by
      simp only [String.toList_append, units_append, ip.units_format, List.append_assoc]
      rfl
    rw [hunits] at hlength
    have hcomma := ip.notMem_format (c := ',') (by decide) (by decide) (by decide) (by decide)
      (by decide)
    have hquote := ip.notMem_format (c := '"') (by decide) (by decide) (by decide) (by decide)
      (by decide)
    rw [parseForwardedHeader, hunits, firstAddress_quoted hcomma hquote hlength,
      ip.unbracketed_format, Option.filter_some, if_pos ip.isIpText_toList, Option.map_some,
      String.ofList_toList]

def exampleIp : ClientIp where
  text := "2001:db8::1"
  nonempty := by decide
  length_le := by decide
  all_isIpChar := by decide +kernel

theorem ipv6_address_read :
    ∃ header, forwardedHeader (some "2001:db8::1") = some header ∧
      parseForwardedHeader (header ++ ";by=\"10.0.0.1\", for=\"203.0.113.1\"") =
        some "2001:db8::1" := by
  obtain ⟨header, hheader, hread⟩ :=
    forwarded_address_read exampleIp ";by=\"10.0.0.1\", for=\"203.0.113.1\""
  refine ⟨header, hheader, hread ?_⟩
  cases hheader
  decide +kernel

end RoundTrip

end JsonRpcRelay.Server
