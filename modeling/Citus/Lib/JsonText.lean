import Citus.Lib.MachineInt
import Mathlib

/-!
# JSON text over bytes

The JSON that PostgreSQL writes with escape_json and printf's %d, and reads back with
jsonb_in: the string escape, the lexer of strings, integers and keywords, and objects whose
members are scalars. The result of the module is the round trip: the reader gives back the
members of every object the writer wrote, whatever bytes other than NUL its strings hold.

## Implementation notes

A text is the list of bytes of a C string, before its terminating NUL. The reader covers the
objects whose member values are strings, integers, true, false and null, and a scalar
document. Arrays, nested objects, fractions, exponents and the \u escapes of surrogates are
outside it and are refused as a syntax error is. A scalar document has no fields, which is all
that is read of it, so it is given the empty member list.
-/

namespace JsonText

/-! ## Bytes -/

/-- Whether a byte is an ASCII decimal digit. -/
def isDigit (c : UInt8) : Bool := 48 ≤ c && c ≤ 57

/-- JSON_ALPHANUMERIC_CHAR of the PostgreSQL JSON lexer: the bytes that may not follow a
number (a letter, a digit, an underscore or a byte with the high bit set). -/
def isAlphanumeric (c : UInt8) : Bool :=
  (97 ≤ c && c ≤ 122) || (65 ≤ c && c ≤ 90) || isDigit c || c = 95 || 128 ≤ c

/-- Whether a byte is JSON whitespace: space, tab, newline or carriage return. -/
def isWhitespace (c : UInt8) : Bool := c = 32 || c = 9 || c = 10 || c = 13

/-- The ASCII digit of a number below ten. -/
def digitByte (d : Nat) : UInt8 := (48 + d).toUInt8

/-- The lower-case hexadecimal digit of a number below sixteen, as %x prints it. -/
def hexDigit (d : Nat) : UInt8 := if d < 10 then (48 + d).toUInt8 else (87 + d).toUInt8

/-- The value of a hexadecimal digit of either case. -/
def hexValue (c : UInt8) : Option Nat :=
  if 48 ≤ c ∧ c ≤ 57 then some (c.toNat - 48)
  else if 97 ≤ c ∧ c ≤ 102 then some (c.toNat - 87)
  else if 65 ≤ c ∧ c ≤ 70 then some (c.toNat - 55)
  else none

theorem isDigit_iff {c : UInt8} : isDigit c = true ↔ 48 ≤ c.toNat ∧ c.toNat ≤ 57 := by
  simp [isDigit, UInt8.le_iff_toNat_le]

theorem toNat_toUInt8 {n : Nat} (hn : n < 256) : n.toUInt8.toNat = n := by
  simp [Nat.toUInt8, Nat.mod_eq_of_lt hn]

theorem digitByte_toNat {d : Nat} (hd : d < 10) : (digitByte d).toNat = 48 + d :=
  toNat_toUInt8 (by omega)

theorem hexValue_hexDigit : ∀ d, d < 16 → hexValue (hexDigit d) = some d := by
  decide

theorem hexDigit_ne : ∀ d, d < 16 → hexDigit d ≠ 42 ∧ hexDigit d ≠ 47 := by
  decide

theorem hexValue_zero : hexValue 48 = some 0 := rfl

/-! ## The writer -/

/-- escape_json's text for one byte of its argument. -/
def escapeByte (c : UInt8) : List UInt8 :=
  if c = 8 then [92, 98]
  else if c = 12 then [92, 102]
  else if c = 10 then [92, 110]
  else if c = 13 then [92, 114]
  else if c = 9 then [92, 116]
  else if c = 34 then [92, 34]
  else if c = 92 then [92, 92]
  -- the other control characters as \u00 and two lower-case hexadecimal digits
  else if c < 32 then [92, 117, 48, 48, hexDigit (c.toNat / 16), hexDigit (c.toNat % 16)]
  else [c]

/-- escape_json: its argument as a JSON string, in double quotes. -/
def escapeJson (str : List UInt8) : List UInt8 := 34 :: (str.flatMap escapeByte ++ [34])

/-- The decimal digits of n in front of ds, most significant first; the fuel bounds their
number, as in Nat.toDigitsCore. -/
def decimalDigitsCore : Nat → Nat → List UInt8 → List UInt8
  | 0, _, ds => ds
  | fuel + 1, n, ds =>
    if n / 10 = 0 then digitByte (n % 10) :: ds
    else decimalDigitsCore fuel (n / 10) (digitByte (n % 10) :: ds)

/-- A natural number in decimal. -/
def formatNat (n : Nat) : List UInt8 := decimalDigitsCore (n + 1) n []

/-- An integer in decimal, as %d prints it and numeric_out prints an integral numeric. -/
def formatInt (n : Int) : List UInt8 :=
  if n < 0 then 45 :: formatNat n.natAbs else formatNat n.natAbs

/-- A JSON scalar. -/
inductive Value where
  | null
  | bool (b : Bool)
  | number (n : Int)
  | string (bytes : List UInt8)
  deriving DecidableEq, Repr

/-- The keyword null. -/
def nullWord : List UInt8 := [110, 117, 108, 108]

/-- The keyword true. -/
def trueWord : List UInt8 := [116, 114, 117, 101]

/-- The keyword false. -/
def falseWord : List UInt8 := [102, 97, 108, 115, 101]

/-- The JSON text of a scalar. -/
def writeValue : Value → List UInt8
  | .null => nullWord
  | .bool true => trueWord
  | .bool false => falseWord
  | .number n => formatInt n
  | .string bytes => escapeJson bytes

/-- A member of an object: its key as a JSON string, a colon and its value. -/
def writeMember (member : List UInt8 × Value) : List UInt8 :=
  escapeJson member.1 ++ 58 :: writeValue member.2

/-- The members of an object, separated by commas. -/
def writeMembers : List (List UInt8 × Value) → List UInt8
  | [] => []
  | [member] => writeMember member
  | member :: next :: rest => writeMember member ++ 44 :: writeMembers (next :: rest)

/-- An object with no whitespace in it, as a printf format writes one. -/
def writeObject (members : List (List UInt8 × Value)) : List UInt8 :=
  123 :: (writeMembers members ++ [125])

/-! ## The reader -/

/-- Skips JSON whitespace. -/
def skipWhitespace : List UInt8 → List UInt8
  | [] => []
  | c :: rest => if isWhitespace c then skipWhitespace rest else c :: rest

/-- The byte that a backslash escape other than \u stands for. -/
def escapedByte (e : UInt8) : Option UInt8 :=
  if e = 34 then some 34
  else if e = 92 then some 92
  else if e = 47 then some 47
  else if e = 98 then some 8
  else if e = 102 then some 12
  else if e = 110 then some 10
  else if e = 114 then some 13
  else if e = 116 then some 9
  else none

/-- The UTF-8 bytes of a code point below 0x10000 that is not a surrogate. -/
def utf8Encode (cp : Nat) : List UInt8 :=
  if cp < 0x80 then [cp.toUInt8]
  else if cp < 0x800 then [(0xC0 + cp / 64).toUInt8, (0x80 + cp % 64).toUInt8]
  else [(0xE0 + cp / 4096).toUInt8, (0x80 + cp / 64 % 64).toUInt8, (0x80 + cp % 64).toUInt8]

/-- The bytes that a \u escape with these hexadecimal digits stands for. A text may not hold
\u0000, and surrogates are outside the model. -/
def unicodeEscape (h1 h2 h3 h4 : UInt8) : Option (List UInt8) :=
  match hexValue h1, hexValue h2, hexValue h3, hexValue h4 with
  | some a, some b, some c, some d =>
    if ((a * 16 + b) * 16 + c) * 16 + d = 0 ∨
        (0xD800 ≤ ((a * 16 + b) * 16 + c) * 16 + d ∧ ((a * 16 + b) * 16 + c) * 16 + d < 0xE000)
    then none
    else some (utf8Encode (((a * 16 + b) * 16 + c) * 16 + d))
  | _, _, _, _ => none

/-- Puts decoded bytes in front of the decoding of the rest of a string. -/
def prependBody (bytes : List UInt8) :
    Option (List UInt8 × List UInt8) → Option (List UInt8 × List UInt8)
  | some (body, rest) => some (bytes ++ body, rest)
  | none => none

/-- The body of a JSON string after its opening quote: the bytes it stands for, and the text
after its closing quote. -/
def lexString : List UInt8 → Option (List UInt8 × List UInt8)
  | [] => none
  | c :: rest =>
    if c = 34 then some ([], rest)
    else if c = 92 then
      match rest with
      | e :: rest =>
        if e = 117 then
          match rest with
          | h1 :: h2 :: h3 :: h4 :: rest =>
            match unicodeEscape h1 h2 h3 h4 with
            | some bytes => prependBody bytes (lexString rest)
            | none => none
          | _ => none
        else
          match escapedByte e with
          | some b => prependBody [b] (lexString rest)
          | none => none
      | [] => none
    -- a control character must be escaped
    else if c < 32 then none
    else prependBody [c] (lexString rest)

/-- Reads the digits at the front of the text onto acc. -/
def readDigits : List UInt8 → Nat → Nat × List UInt8
  | [], acc => (acc, [])
  | c :: rest, acc =>
    if isDigit c then readDigits rest (acc * 10 + (c.toNat - 48)) else (acc, c :: rest)

/-- The integer part of a JSON number: 0 alone, or a digit 1 to 9 and the digits after it. -/
def lexNatural : List UInt8 → Option (Nat × List UInt8)
  | [] => none
  | c :: rest =>
    if c = 48 then some (0, rest)
    else if isDigit c then some (readDigits rest (c.toNat - 48))
    else none

/-- Whether a number may end before this text: not before a fraction, which is outside the
model, nor before a byte the lexer refuses there (an exponent's letter among them). -/
def endsNumber : List UInt8 → Bool
  | [] => true
  | c :: _ => !(c = 46 || isAlphanumeric c)

/-- An unsigned JSON integer. -/
def lexUnsigned (text : List UInt8) : Option (Nat × List UInt8) :=
  match lexNatural text with
  | some (n, rest) => if endsNumber rest then some (n, rest) else none
  | none => none

/-- A JSON integer, with its optional minus sign. -/
def lexNumber : List UInt8 → Option (Int × List UInt8)
  | 45 :: rest => (lexUnsigned rest).map fun (n, rest) => (-(n : Int), rest)
  | text => (lexUnsigned text).map fun (n, rest) => ((n : Int), rest)

/-- A JSON scalar at the front of the text. -/
def lexValue : List UInt8 → Option (Value × List UInt8)
  | 34 :: rest => (lexString rest).map fun (bytes, rest) => (.string bytes, rest)
  | 110 :: 117 :: 108 :: 108 :: rest => some (.null, rest)
  | 116 :: 114 :: 117 :: 101 :: rest => some (.bool true, rest)
  | 102 :: 97 :: 108 :: 115 :: 101 :: rest => some (.bool false, rest)
  | text => (lexNumber text).map fun (n, rest) => (.number n, rest)

/-- The members of an object after its opening brace, and the text after its closing brace;
the fuel bounds the number of members. -/
def lexMembers : Nat → List UInt8 → Option (List (List UInt8 × Value) × List UInt8)
  | 0, _ => none
  | fuel + 1, text =>
    match skipWhitespace text with
    | 34 :: rest =>
      match lexString rest with
      | some (key, rest) =>
        match skipWhitespace rest with
        | 58 :: rest =>
          match lexValue (skipWhitespace rest) with
          | some (value, rest) =>
            match skipWhitespace rest with
            | 44 :: rest =>
              (lexMembers fuel rest).map fun (members, rest) => ((key, value) :: members, rest)
            | 125 :: rest => some ([(key, value)], rest)
            | _ => none
          | none => none
        | _ => none
      | none => none
    | _ => none

/-- jsonb_in on the JSON above: the members of the object that the text holds, no members for
a scalar, and none for a text it refuses. -/
def parseDocument (text : List UInt8) : Option (List (List UInt8 × Value)) :=
  match skipWhitespace text with
  | 123 :: rest =>
    match skipWhitespace rest with
    | 125 :: rest => if skipWhitespace rest = [] then some [] else none
    | _ =>
      match lexMembers text.length rest with
      | some (members, rest) => if skipWhitespace rest = [] then some members else none
      | none => none
  | text =>
    match lexValue text with
    | some (_, rest) => if skipWhitespace rest = [] then some [] else none
    | none => none

/-- The value jsonb keeps for a key; of a key given twice, the last. -/
def field (members : List (List UInt8 × Value)) (key : List UInt8) : Option Value :=
  (members.filter fun member => member.1 = key).getLast?.map Prod.snd

/-- jsonb_extract_path_text of a scalar: none for null. -/
def Value.text : Value → Option (List UInt8)
  | .null => none
  | .bool b => some (if b then trueWord else falseWord)
  | .number n => some (formatInt n)
  | .string bytes => some bytes

/-- jsonb_int4: an integral number in the int4 range, or the error it raises. -/
def Value.int4 : Value → Except String Int
  | .number n => if MachineInt.InInt32 n then .ok n else .error "integer out of range"
  | .null => .error "cannot cast jsonb null to type integer"
  | .bool _ => .error "cannot cast jsonb boolean to type integer"
  | .string _ => .error "cannot cast jsonb string to type integer"

/-! ## Reading back what was written -/

/-- A scalar that the writer writes and the reader reads back: a string holds no NUL. -/
def Value.WellFormed : Value → Prop
  | .string bytes => 0 ∉ bytes
  | _ => True

@[simp] theorem skipWhitespace_cons_of {c : UInt8} (hc : isWhitespace c = false)
    (rest : List UInt8) : skipWhitespace (c :: rest) = c :: rest := by
  simp [skipWhitespace, hc]

theorem lexString_quote (rest : List UInt8) : lexString (34 :: rest) = some ([], rest) := by
  rw [lexString.eq_def]
  rfl

theorem lexString_plain {c : UInt8} (h34 : c ≠ 34) (h92 : c ≠ 92) (hcontrol : ¬c < 32)
    (rest : List UInt8) : lexString (c :: rest) = prependBody [c] (lexString rest) := by
  rw [lexString.eq_def]
  simp only [if_neg h34, if_neg h92, if_neg hcontrol]

theorem lexString_escape {e b : UInt8} (he : e ≠ 117) (hb : escapedByte e = some b)
    (rest : List UInt8) : lexString (92 :: e :: rest) = prependBody [b] (lexString rest) := by
  rw [lexString.eq_def]
  simp only [if_neg (by decide : (92 : UInt8) ≠ 34), if_neg he, hb, if_true]

theorem lexString_unicode {h1 h2 h3 h4 : UInt8} {bytes : List UInt8}
    (hunicode : unicodeEscape h1 h2 h3 h4 = some bytes) (rest : List UInt8) :
    lexString (92 :: 117 :: h1 :: h2 :: h3 :: h4 :: rest) = prependBody bytes (lexString rest) := by
  rw [lexString.eq_def]
  simp only [if_neg (by decide : (92 : UInt8) ≠ 34), hunicode, if_true]

/-- Each byte other than NUL decodes from its escape. -/
theorem lexString_escapeByte {c : UInt8} (hc : c ≠ 0) (rest : List UInt8) :
    lexString (escapeByte c ++ rest) = prependBody [c] (lexString rest) := by
  unfold escapeByte
  split_ifs with h8 h12 h10 h13 h9 h34 h92 hcontrol
  · subst h8; exact lexString_escape (by decide) rfl rest
  · subst h12; exact lexString_escape (by decide) rfl rest
  · subst h10; exact lexString_escape (by decide) rfl rest
  · subst h13; exact lexString_escape (by decide) rfl rest
  · subst h9; exact lexString_escape (by decide) rfl rest
  · subst h34; exact lexString_escape (by decide) rfl rest
  · subst h92; exact lexString_escape (by decide) rfl rest
  · -- \u00 and the two hexadecimal digits of c give back c
    have hlt : c.toNat < 32 := UInt8.lt_iff_toNat_lt.mp hcontrol
    have hpos : c.toNat ≠ 0 := fun h => hc (UInt8.toNat_inj.mp h)
    have hcode : ((0 * 16 + 0) * 16 + c.toNat / 16) * 16 + c.toNat % 16 = c.toNat := by omega
    have hunicode : unicodeEscape 48 48 (hexDigit (c.toNat / 16)) (hexDigit (c.toNat % 16)) =
        some [c] := by
      simp only [unicodeEscape, hexValue_zero, hexValue_hexDigit _ (by omega : c.toNat / 16 < 16),
        hexValue_hexDigit _ (by omega : c.toNat % 16 < 16), hcode]
      rw [if_neg (by omega), utf8Encode, if_pos (by omega)]
      simp
    exact lexString_unicode hunicode rest
  · exact lexString_plain h34 h92 hcontrol rest

/-- The escaped bytes of a string with no NUL, followed by a closing quote, decode to it. -/
theorem lexString_escaped {str : List UInt8} (hstr : 0 ∉ str) (rest : List UInt8) :
    lexString (str.flatMap escapeByte ++ 34 :: rest) = some (str, rest) := by
  induction str with
  | nil => exact lexString_quote rest
  | cons c str ih =>
    have hc : c ≠ 0 := fun h => hstr (h ▸ List.mem_cons_self)
    have htail : 0 ∉ str := fun h => hstr (List.mem_cons_of_mem c h)
    rw [List.flatMap_cons, List.append_assoc, lexString_escapeByte hc, ih htail]
    rfl

theorem decimalDigitsCore_append (fuel n : Nat) (ds rest : List UInt8) :
    decimalDigitsCore fuel n ds ++ rest = decimalDigitsCore fuel n (ds ++ rest) := by
  induction fuel generalizing n ds with
  | zero => rfl
  | succ fuel ih =>
    simp only [decimalDigitsCore]
    split
    · rfl
    · exact ih (n / 10) (digitByte (n % 10) :: ds)

theorem div_ten_lt_of_lt_pow {n fuel : Nat} (hn : n < 10 ^ (fuel + 1)) : n / 10 < 10 ^ fuel := by
  rw [pow_succ] at hn
  omega

/-- The leading digit: a digit, and not 0 for a positive number. -/
theorem decimalDigitsCore_head {fuel n : Nat} (hn : n < 10 ^ fuel) (hfuel : 0 < fuel)
    (ds : List UInt8) :
    ∃ d r, decimalDigitsCore fuel n ds = digitByte d :: r ∧ d < 10 ∧ (0 < n → 0 < d) := by
  induction fuel generalizing n ds with
  | zero => omega
  | succ fuel ih =>
    rw [decimalDigitsCore]
    split
    · next hsmall => exact ⟨n % 10, ds, rfl, Nat.mod_lt _ (by omega), fun _ => by omega⟩
    · next hlarge =>
      have hfuel' : 0 < fuel := by
        rcases Nat.eq_zero_or_pos fuel with rfl | h
        · simp at hn
          omega
        · exact h
      obtain ⟨d, r, heq, hd, hpos⟩ := ih (div_ten_lt_of_lt_pow hn) hfuel' (digitByte (n % 10) :: ds)
      exact ⟨d, r, heq, hd, fun _ => hpos (by omega)⟩

theorem isDigit_digitByte {d : Nat} (hd : d < 10) : isDigit (digitByte d) = true := by
  rw [isDigit_iff, digitByte_toNat hd]
  omega

/-- Reading the digits of n onto acc shifts acc by their number and adds n. -/
theorem readDigits_decimalDigitsCore {fuel n : Nat} (hn : n < 10 ^ fuel) (ds : List UInt8)
    (acc : Nat) : ∃ k, readDigits (decimalDigitsCore fuel n ds) acc = readDigits ds (acc * 10 ^ k + n) := by
  induction fuel generalizing n ds acc with
  | zero =>
    obtain rfl : n = 0 := by simpa using hn
    exact ⟨0, by simp [decimalDigitsCore]⟩
  | succ fuel ih =>
    have hlast : n % 10 < 10 := Nat.mod_lt _ (by omega)
    have hvalue : (digitByte (n % 10)).toNat - 48 = n % 10 := by
      rw [digitByte_toNat hlast]
      omega
    rw [decimalDigitsCore]
    split
    · next hsmall =>
      refine ⟨1, ?_⟩
      rw [readDigits, if_pos (isDigit_digitByte hlast), hvalue]
      congr 1
      omega
    · next hlarge =>
      obtain ⟨k, hk⟩ := ih (div_ten_lt_of_lt_pow hn) (digitByte (n % 10) :: ds) acc
      refine ⟨k + 1, ?_⟩
      rw [hk, readDigits, if_pos (isDigit_digitByte hlast), hvalue]
      congr 1
      have hsplit : n / 10 * 10 + n % 10 = n := Nat.div_add_mod' n 10
      calc (acc * 10 ^ k + n / 10) * 10 + n % 10
          = acc * 10 ^ (k + 1) + (n / 10 * 10 + n % 10) := by ring
        _ = acc * 10 ^ (k + 1) + n := by rw [hsplit]

theorem readDigits_of_endsNumber {rest : List UInt8} (hrest : endsNumber rest = true)
    (acc : Nat) : readDigits rest acc = (acc, rest) := by
  cases rest with
  | nil => rfl
  | cons c rest =>
    have hc : isDigit c = false := by
      cases hdigit : isDigit c
      · rfl
      · simp [endsNumber, isAlphanumeric, hdigit] at hrest
    simp [readDigits, hc]

theorem formatNat_append_head (n : Nat) (rest : List UInt8) :
    ∃ d r, formatNat n ++ rest = digitByte d :: r ∧ d < 10 ∧ (0 < n → 0 < d) := by
  have hn : n < 10 ^ (n + 1) := Nat.lt_of_succ_lt (Nat.lt_pow_self (by norm_num))
  rw [formatNat, decimalDigitsCore_append, List.nil_append]
  exact decimalDigitsCore_head hn (Nat.succ_pos n) rest

/-- An unsigned integer reads back from its digits. -/
theorem lexUnsigned_formatNat (n : Nat) {rest : List UInt8} (hrest : endsNumber rest = true) :
    lexUnsigned (formatNat n ++ rest) = some (n, rest) := by
  obtain ⟨d, r, heq, hd, hpos⟩ := formatNat_append_head n rest
  rcases Nat.eq_zero_or_pos n with rfl | hn
  · simp [formatNat, decimalDigitsCore, lexUnsigned, lexNatural, digitByte, hrest]
  · have hdigit := isDigit_digitByte hd
    have hne : digitByte d ≠ 48 := by
      intro h
      have := congrArg UInt8.toNat h
      rw [digitByte_toNat hd] at this
      change 48 + d = 48 at this
      have := hpos hn
      omega
    have hfuel : n < 10 ^ (n + 1) := Nat.lt_of_succ_lt (Nat.lt_pow_self (by norm_num))
    obtain ⟨k, hk⟩ := readDigits_decimalDigitsCore hfuel rest 0
    have hlex : lexNatural (formatNat n ++ rest) = some (readDigits (formatNat n ++ rest) 0) := by
      rw [heq, lexNatural, if_neg hne, if_pos hdigit, readDigits, if_pos hdigit, Nat.zero_mul,
        Nat.zero_add]
    rw [formatNat, decimalDigitsCore_append, List.nil_append] at hlex ⊢
    rw [lexUnsigned, hlex, hk, readDigits_of_endsNumber hrest]
    simp [hrest]

theorem mem_decimalDigitsCore {fuel n : Nat} {ds : List UInt8} {b : UInt8}
    (hb : b ∈ decimalDigitsCore fuel n ds) : b ∈ ds ∨ isDigit b = true := by
  induction fuel generalizing n ds with
  | zero => exact .inl hb
  | succ fuel ih =>
    have hdigit := isDigit_digitByte (Nat.mod_lt n (by norm_num : 10 > 0))
    rw [decimalDigitsCore] at hb
    split at hb
    · rcases List.mem_cons.mp hb with rfl | hb
      · exact .inr hdigit
      · exact .inl hb
    · rcases ih hb with hb | hb
      · rcases List.mem_cons.mp hb with rfl | hb
        · exact .inr hdigit
        · exact .inl hb
      · exact .inr hb

/-- The decimal text of an integer holds a minus sign and digits only. -/
theorem mem_formatInt {n : Int} {b : UInt8} (hb : b ∈ formatInt n) :
    b = 45 ∨ isDigit b = true := by
  have hdigits : ∀ m : Nat, b ∈ formatNat m → isDigit b = true := fun m hm =>
    (mem_decimalDigitsCore hm).resolve_left List.not_mem_nil
  unfold formatInt at hb
  split at hb
  · rcases List.mem_cons.mp hb with rfl | hb
    · exact .inl rfl
    · exact .inr (hdigits _ hb)
  · exact .inr (hdigits _ hb)

theorem formatInt_append_head (n : Int) (rest : List UInt8) :
    ∃ c r, formatInt n ++ rest = c :: r ∧ (c = 45 ∨ isDigit c = true) := by
  unfold formatInt
  split
  · exact ⟨45, _, rfl, .inl rfl⟩
  · obtain ⟨d, r, heq, hd, -⟩ := formatNat_append_head n.natAbs rest
    exact ⟨digitByte d, r, heq, .inr (isDigit_digitByte hd)⟩

/-- An integer reads back from its decimal text. -/
theorem lexNumber_formatInt (n : Int) {rest : List UInt8} (hrest : endsNumber rest = true) :
    lexNumber (formatInt n ++ rest) = some (n, rest) := by
  unfold formatInt
  split
  · next hneg =>
    rw [List.cons_append, lexNumber, lexUnsigned_formatNat _ hrest]
    simp only [Option.map_some, Option.some.injEq, Prod.mk.injEq, and_true]
    omega
  · next hnonneg =>
    obtain ⟨d, r, heq, hd, -⟩ := formatNat_append_head n.natAbs rest
    have hne : digitByte d ≠ 45 := by
      intro h
      have := congrArg UInt8.toNat h
      rw [digitByte_toNat hd] at this
      change 48 + d = 45 at this
      omega
    rw [lexNumber.eq_2 _ (by rw [heq]; simp [hne]), lexUnsigned_formatNat _ hrest]
    simp only [Option.map_some, Option.some.injEq, Prod.mk.injEq, and_true]
    omega

theorem writeValue_append_head (value : Value) (rest : List UInt8) :
    ∃ c r, writeValue value ++ rest = c :: r ∧ (c = 45 ∨ isDigit c = true ∨ c = 34 ∨ c = 102 ∨
      c = 110 ∨ c = 116) := by
  cases value with
  | null => exact ⟨110, _, rfl, by simp⟩
  | bool b => cases b <;> exact ⟨_, _, rfl, by simp⟩
  | number n =>
    obtain ⟨c, r, heq, hc⟩ := formatInt_append_head n rest
    exact ⟨c, r, heq, by tauto⟩
  | string bytes => exact ⟨34, _, rfl, by simp⟩

theorem skipWhitespace_writeValue (value : Value) (rest : List UInt8) :
    skipWhitespace (writeValue value ++ rest) = writeValue value ++ rest := by
  obtain ⟨c, r, heq, hc⟩ := writeValue_append_head value rest
  rw [heq]
  apply skipWhitespace_cons_of
  rcases hc with rfl | hc | rfl | rfl | rfl | rfl
  · rfl
  · rw [isDigit_iff] at hc
    simp only [isWhitespace, Bool.or_eq_false_iff, decide_eq_false_iff_not]
    refine ⟨⟨⟨?_, ?_⟩, ?_⟩, ?_⟩ <;> intro h <;> rw [h] at hc <;> simp at hc
  all_goals rfl

/-- A scalar reads back from its text, before any text a number may end at. -/
theorem lexValue_writeValue {value : Value} (hvalue : value.WellFormed) {rest : List UInt8}
    (hrest : endsNumber rest = true) : lexValue (writeValue value ++ rest) = some (value, rest) := by
  cases value with
  | null => rfl
  | bool b => cases b <;> rfl
  | number n =>
    obtain ⟨c, r, heq, hc⟩ := formatInt_append_head n rest
    have hnot : c ≠ 34 ∧ c ≠ 110 ∧ c ≠ 116 ∧ c ≠ 102 := by
      rcases hc with rfl | hc
      · decide
      · rw [isDigit_iff] at hc
        refine ⟨?_, ?_, ?_, ?_⟩ <;> intro h <;> rw [h] at hc <;> simp at hc
    rw [writeValue, lexValue.eq_5 _ (by rw [heq]; simp [hnot.1])
      (by rw [heq]; simp [hnot.2.1]) (by rw [heq]; simp [hnot.2.2.1])
      (by rw [heq]; simp [hnot.2.2.2]), lexNumber_formatInt n hrest]
    rfl
  | string bytes =>
    simp only [writeValue, escapeJson, List.cons_append, List.append_assoc]
    rw [lexValue.eq_1, lexString_escaped hvalue]
    rfl

/-- One member reads back, and the reader goes on as the byte after it says. -/
theorem lexMembers_writeMember {key : List UInt8} {value : Value} (hkey : 0 ∉ key)
    (hvalue : value.WellFormed) (fuel : Nat) {rest : List UInt8}
    (hrest : endsNumber rest = true) :
    lexMembers (fuel + 1) (writeMember (key, value) ++ rest) =
      match skipWhitespace rest with
      | 44 :: rest =>
        (lexMembers fuel rest).map fun (members, rest) => ((key, value) :: members, rest)
      | 125 :: rest => some ([(key, value)], rest)
      | _ => none := by
  have htext : writeMember (key, value) ++ rest =
      34 :: (key.flatMap escapeByte ++ 34 :: 58 :: (writeValue value ++ rest)) := by
    simp [writeMember, escapeJson]
  rw [htext, lexMembers, skipWhitespace_cons_of (by decide)]
  simp only [lexString_escaped hkey, skipWhitespace_cons_of (by decide : isWhitespace 58 = false),
    skipWhitespace_writeValue, lexValue_writeValue hvalue hrest]

/-- The members of an object read back, up to its closing brace. -/
theorem lexMembers_writeMembers {members : List (List UInt8 × Value)} (hne : members ≠ [])
    (hwf : ∀ member ∈ members, 0 ∉ member.1 ∧ member.2.WellFormed) {fuel : Nat}
    (hfuel : members.length ≤ fuel) (rest : List UInt8) :
    lexMembers fuel (writeMembers members ++ 125 :: rest) = some (members, rest) := by
  induction members generalizing fuel with
  | nil => exact absurd rfl hne
  | cons member tail ih =>
    obtain ⟨key, value⟩ := member
    obtain ⟨fuel, rfl⟩ : ∃ f, fuel = f + 1 := ⟨fuel - 1, by simp at hfuel; omega⟩
    have hmember := hwf (key, value) List.mem_cons_self
    cases tail with
    | nil =>
      rw [writeMembers, lexMembers_writeMember hmember.1 hmember.2 fuel rfl,
        skipWhitespace_cons_of (by decide)]
      rfl
    | cons next tail =>
      have htail := ih (List.cons_ne_nil _ _) (fun m hm => hwf m (List.mem_cons_of_mem _ hm))
        (by simp at hfuel ⊢; omega)
      rw [writeMembers, List.append_assoc, List.cons_append,
        lexMembers_writeMember hmember.1 hmember.2 fuel rfl, skipWhitespace_cons_of (by decide)]
      simp only [htail, Option.map_some]

theorem writeMembers_head {members : List (List UInt8 × Value)} (hne : members ≠ []) :
    ∃ r, writeMembers members = 34 :: r := by
  match members, hne with
  | [_], _ => exact ⟨_, rfl⟩
  | _ :: _ :: _, _ => exact ⟨_, rfl⟩

theorem length_le_writeMembers :
    ∀ members : List (List UInt8 × Value), members.length ≤ (writeMembers members).length
  | [] => Nat.le_refl 0
  | [member] => by simp [writeMembers, writeMember, escapeJson]
  | member :: next :: rest => by
    have ih := length_le_writeMembers (next :: rest)
    simp only [writeMembers, List.length_append, List.length_cons] at ih ⊢
    omega

/-- The round trip: jsonb_in gives back the members of every object written with no NUL in
its strings. -/
theorem parseDocument_writeObject {members : List (List UInt8 × Value)} (hne : members ≠ [])
    (hwf : ∀ member ∈ members, 0 ∉ member.1 ∧ member.2.WellFormed) :
    parseDocument (writeObject members) = some members := by
  obtain ⟨r, hr⟩ := writeMembers_head hne
  have hlen : members.length ≤ (writeObject members).length := by
    have := length_le_writeMembers members
    simp only [writeObject, List.length_cons, List.length_append] at this ⊢
    omega
  have hlex := lexMembers_writeMembers hne hwf hlen []
  simp only [writeObject, hr, List.cons_append] at hlex ⊢
  unfold parseDocument
  -- the text opens an object whose first member starts with a quote, not a closing brace
  show (match lexMembers (123 :: 34 :: (r ++ [125])).length (34 :: (r ++ [125])) with
    | some (members, rest) => if skipWhitespace rest = [] then some members else none
    | none => none) = some members
  rw [hlex]
  rfl

/-! ## UTF-8 -/

/-- Whether a byte lies between lo and hi. -/
def inRange (lo hi c : UInt8) : Bool := lo ≤ c && c ≤ hi

/-- Whether a text is well-formed UTF-8: the table of well-formed byte sequences of the Unicode
standard, which pg_utf8_islegal checks. -/
def validUtf8 : List UInt8 → Bool
  | [] => true
  | c :: rest =>
    if c < 0x80 then validUtf8 rest
    else if inRange 0xC2 0xDF c then
      match rest with
      | c2 :: rest => inRange 0x80 0xBF c2 && validUtf8 rest
      | [] => false
    else if inRange 0xE0 0xEF c then
      match rest with
      | c2 :: c3 :: rest =>
        inRange (if c = 0xE0 then 0xA0 else 0x80) (if c = 0xED then 0x9F else 0xBF) c2 &&
          inRange 0x80 0xBF c3 && validUtf8 rest
      | _ => false
    else if inRange 0xF0 0xF4 c then
      match rest with
      | c2 :: c3 :: c4 :: rest =>
        inRange (if c = 0xF0 then 0x90 else 0x80) (if c = 0xF4 then 0x8F else 0xBF) c2 &&
          inRange 0x80 0xBF c3 && inRange 0x80 0xBF c4 && validUtf8 rest
      | _ => false
    else false

end JsonText
