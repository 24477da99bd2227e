import Mathlib

/-! Rust text operations on lists of characters, and a hex codec given by its laws. -/

namespace Text

/-- `str::trim_start_matches(c)`. -/
def trimStartMatches (c : Char) (s : List Char) : List Char := s.dropWhile (· == c)

/-- `str::strip_prefix(p)`. -/
def stripPrefix (p s : List Char) : Option (List Char) :=
  if p.isPrefixOf s then some (s.drop p.length) else none

/-- Rust's `Debug` of a string: the text in double quotes (escapes are not modelled). -/
def debugStr (s : List Char) : String := "\"" ++ String.ofList s ++ "\""

theorem stripPrefix_append (p s : List Char) : stripPrefix p (p ++ s) = some s := by
  rw [stripPrefix, if_pos ((List.isPrefixOf_iff_prefix).mpr (List.prefix_append p s)),
    List.drop_left]

theorem isPrefixOf_append_self (p s : List Char) : p.isPrefixOf (p ++ s) = true :=
  (List.isPrefixOf_iff_prefix).mpr (List.prefix_append p s)

theorem append_ne_of_isPrefixOf_eq_false {p s q : List Char} (h : p.isPrefixOf q = false) :
    p ++ s ≠ q := by
  rintro rfl
  rw [isPrefixOf_append_self] at h
  cases h

theorem isPrefixOf_append_eq_false {p q s : List Char} (hpq : p.isPrefixOf q = false)
    (hqp : q.isPrefixOf p = false) : p.isPrefixOf (q ++ s) = false := by
  rw [Bool.eq_false_iff]
  intro h
  rcases List.prefix_or_prefix_of_prefix ((List.isPrefixOf_iff_prefix).mp h)
      (List.prefix_append q s) with h' | h'
  · rw [(List.isPrefixOf_iff_prefix).mpr h'] at hpq
    cases hpq
  · rw [(List.isPrefixOf_iff_prefix).mpr h'] at hqp
    cases hqp

/-! ## Decimal `u64` -/

/-- The kinds of `core::num::ParseIntError`, with their `Display`. -/
inductive IntErrorKind where
  | empty
  | invalidDigit
  | posOverflow
  deriving DecidableEq, Repr

def IntErrorKind.toString : IntErrorKind → String
  | .empty => "cannot parse integer from empty string"
  | .invalidDigit => "invalid digit found in string"
  | .posOverflow => "number too large to fit in target type"

/-- The digit loop of `u64::from_str_radix(_, 10)`: each character must be a digit, and the
checked multiplication and addition fail past `u64::MAX`. -/
def parseDigits : Nat → List Char → Except IntErrorKind Nat
  | acc, [] => .ok acc
  | acc, c :: cs =>
    if c.isDigit then
      if acc * 10 + (c.toNat - '0'.toNat) < 2 ^ 64 then
        parseDigits (acc * 10 + (c.toNat - '0'.toNat)) cs
      else .error .posOverflow
    else .error .invalidDigit

/-- `<u64 as FromStr>::from_str`: an optional `+`, then at least one digit; a lone sign is an
invalid digit, and `-` is kept in the digits, where it is one. -/
def parseU64 : List Char → Except IntErrorKind UInt64
  | [] => .error .empty
  | c :: rest =>
    if (c = '+' ∨ c = '-') ∧ rest = [] then .error .invalidDigit
    else (parseDigits 0 (if c = '+' then rest else c :: rest)).map UInt64.ofNat

/-- `u64`'s `Display`. -/
def displayU64 (n : UInt64) : List Char := Nat.toDigits 10 n.toNat

theorem le_ofDigitChars (l : List Char) (acc : Nat) : acc ≤ Nat.ofDigitChars 10 l acc := by
  rw [Nat.ofDigitChars_eq_ofDigitChars_zero]
  have : 1 ≤ 10 ^ l.length := Nat.one_le_pow _ _ (by decide)
  nlinarith

theorem parseDigits_of_isDigit : ∀ (l : List Char) (acc : Nat), (∀ c ∈ l, c.isDigit = true) →
    Nat.ofDigitChars 10 l acc < 2 ^ 64 → parseDigits acc l = .ok (Nat.ofDigitChars 10 l acc)
  | [], acc, _, _ => rfl
  | c :: cs, acc, hdig, hlt => by
    rw [Nat.ofDigitChars_cons] at hlt ⊢
    have hmul : acc * 10 = 10 * acc := Nat.mul_comm acc 10
    have hstep : acc * 10 + (c.toNat - '0'.toNat) < 2 ^ 64 := by
      rw [hmul]
      exact lt_of_le_of_lt (le_ofDigitChars cs _) hlt
    rw [parseDigits, if_pos (hdig c List.mem_cons_self), if_pos hstep, hmul]
    exact parseDigits_of_isDigit cs _ (fun x hx => hdig x (List.mem_cons_of_mem c hx)) hlt

theorem parseU64_display (n : UInt64) : parseU64 (displayU64 n) = .ok n := by
  have hdig : ∀ c ∈ displayU64 n, c.isDigit = true := fun c hc =>
    Nat.isDigit_of_mem_toDigits (by decide) (by decide) hc
  obtain ⟨c, rest, hcs⟩ : ∃ c rest, displayU64 n = c :: rest :=
    List.exists_cons_of_ne_nil Nat.toDigits_ne_nil
  have hc : c.isDigit = true := hdig c (hcs ▸ List.mem_cons_self)
  have hplus : c ≠ '+' := by rintro rfl; cases hc
  have hminus : c ≠ '-' := by rintro rfl; cases hc
  have hvalue : Nat.ofDigitChars 10 (displayU64 n) 0 = n.toNat := Nat.ofDigitChars_ten_toDigits
  rw [hcs, parseU64, if_neg (by simp [hplus, hminus]), if_neg hplus, ← hcs,
    parseDigits_of_isDigit _ 0 hdig (by rw [hvalue]; exact n.toNat_lt), hvalue]
  exact congrArg Except.ok UInt64.ofNat_toNat

/-! ## Hex codecs -/

/-- A hex codec for fixed bytes, given by the laws a formatter and its parser need of it:
`decode n` reads back the `n` bytes `encode` wrote, or fails with the `Debug` text of its error,
and no encoding holds a slash. -/
structure HexCodec where
  encode : List UInt8 → List Char
  decode : Nat → List Char → Except String (List UInt8)
  decode_encode : ∀ bytes, decode bytes.length (encode bytes) = .ok bytes
  slash_not_mem_encode : ∀ bytes, '/' ∉ encode bytes

namespace HexCodec

/-- The lower-case digit of a value below 16. -/
def hexDigit (n : Nat) : Char := if n < 10 then Char.ofNat (48 + n) else Char.ofNat (87 + n)

def hexValue (c : Char) : Option Nat :=
  if '0' ≤ c ∧ c ≤ '9' then some (c.toNat - 48)
  else if 'a' ≤ c ∧ c ≤ 'f' then some (c.toNat - 87)
  else none

def encodeLower (bytes : List UInt8) : List Char :=
  bytes.flatMap fun b => [hexDigit (b.toNat / 16), hexDigit (b.toNat % 16)]

def decodePairs : List Char → Except String (List UInt8)
  | hi :: lo :: rest =>
    match hexValue hi, hexValue lo with
    | some h, some l => (decodePairs rest).map (UInt8.ofNat (h * 16 + l) :: ·)
    | _, _ => .error "InvalidHexCharacter"
  | [_] => .error "OddLength"
  | [] => .ok []

def decodeLower (n : Nat) (digits : List Char) : Except String (List UInt8) :=
  if digits.length = 2 * n then decodePairs digits else .error "InvalidStringLength"

theorem hexValue_hexDigit : ∀ n : Nat, n < 16 → hexValue (hexDigit n) = some n
  | 0, _ | 1, _ | 2, _ | 3, _ | 4, _ | 5, _ | 6, _ | 7, _ | 8, _ | 9, _ | 10, _ | 11, _ | 12, _
  | 13, _ | 14, _ | 15, _ => by decide
  | _ + 16, h => absurd h (by omega)

theorem hexDigit_ne_slash : ∀ n : Nat, n < 16 → hexDigit n ≠ '/'
  | 0, _ | 1, _ | 2, _ | 3, _ | 4, _ | 5, _ | 6, _ | 7, _ | 8, _ | 9, _ | 10, _ | 11, _ | 12, _
  | 13, _ | 14, _ | 15, _ => by decide
  | _ + 16, h => absurd h (by omega)

theorem length_encodeLower (bytes : List UInt8) :
    (encodeLower bytes).length = 2 * bytes.length := by
  induction bytes with
  | nil => rfl
  | cons b bs ih =>
    rw [encodeLower, List.flatMap_cons, List.length_append, ← encodeLower, ih]
    simp only [List.length_cons, List.length_nil]
    omega

theorem decodePairs_encodeLower : ∀ bytes : List UInt8, decodePairs (encodeLower bytes) = .ok bytes
  | [] => rfl
  | b :: bs => by
    have hb := b.toNat_lt
    have hhi := hexValue_hexDigit (b.toNat / 16) (by omega)
    have hlo := hexValue_hexDigit (b.toNat % 16) (by omega)
    have hbyte : UInt8.ofNat (b.toNat / 16 * 16 + b.toNat % 16) = b := by
      rw [show b.toNat / 16 * 16 + b.toNat % 16 = b.toNat by omega, UInt8.ofNat_toNat]
    rw [encodeLower, List.flatMap_cons, ← encodeLower, List.cons_append, List.cons_append,
      List.nil_append, decodePairs, hhi, hlo]
    simp only [decodePairs_encodeLower bs, hbyte]
    rfl

theorem slash_not_mem_encodeLower (bytes : List UInt8) : '/' ∉ encodeLower bytes := by
  intro h
  obtain ⟨b, -, hb⟩ := List.mem_flatMap.mp h
  have hhi := hexDigit_ne_slash (b.toNat / 16) (by have := b.toNat_lt; omega)
  have hlo := hexDigit_ne_slash (b.toNat % 16) (Nat.mod_lt _ (by decide))
  simp only [List.mem_cons, List.not_mem_nil, or_false] at hb
  rcases hb with hb | hb
  · exact hhi hb.symm
  · exact hlo hb.symm

/-- Two lower-case digits per byte: a codec that meets the laws. -/
def lower : HexCodec where
  encode := encodeLower
  decode := decodeLower
  decode_encode bytes := by
    rw [decodeLower, if_pos (length_encodeLower bytes), decodePairs_encodeLower]
  slash_not_mem_encode := slash_not_mem_encodeLower

end HexCodec

end Text
