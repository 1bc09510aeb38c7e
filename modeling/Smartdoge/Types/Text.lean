import Smartdoge.Types.Bytes
import Mathlib.Algebra.BigOperators.Group.List.Basic
import Mathlib.Data.List.DropRight
import Mathlib.Tactic.IntervalCases

/-!
# Numbers, hashes and addresses as text

Events carry their values as text. This file has the conversions of the Go standard library and of
go-ethereum that write and read them, and the facts that reading undoes writing.

* `parseInt_formatUint`: decimal numbers.
* `hexToHash_hashHex`: hashes.
* `hexToAddress_addressHex`: addresses, whose text has the mixed case of EIP-55.
-/

namespace Smartdoge

/-! ## Decimal numbers -/

/-- `strconv.FormatUint(n, 10)`, also `big.Int.String()` of a number that is not negative. -/
def formatUint (n : ℕ) : String := n.repr

/-- The value of a text of decimal digits. -/
def parseDigits (cs : List Char) : Option ℕ :=
  if cs ≠ [] ∧ cs.all Char.isDigit then some (Nat.ofDigitChars 10 cs 0) else none

/-- `strconv.ParseInt(s, 10, 64)`; `none` is an error. -/
def parseInt (s : String) : Option ℤ :=
  match s.toList with
  | '-' :: cs => (parseDigits cs).bind fun n => if n ≤ 2 ^ 63 then some (-n) else none
  | '+' :: cs => (parseDigits cs).bind fun n => if n < 2 ^ 63 then some (n : ℤ) else none
  | cs => (parseDigits cs).bind fun n => if n < 2 ^ 63 then some (n : ℤ) else none

/-- The digits of a decimal number. -/
theorem formatUint_toList (n : ℕ) : (formatUint n).toList = Nat.toDigits 10 n := by
  rw [formatUint, Nat.repr_eq_ofList_toDigits, String.toList_ofList]

/-- They are digits. -/
theorem isDigit_of_mem_formatUint {n : ℕ} {c : Char} (h : c ∈ (formatUint n).toList) :
    c.isDigit = true := by
  rw [formatUint_toList] at h
  exact Nat.isDigit_of_mem_toDigits (by omega) (by omega) h

/-- **A number that fits in an `int64` is read back.** -/
theorem parseInt_formatUint {n : ℕ} (h : n < 2 ^ 63) : parseInt (formatUint n) = some (n : ℤ) := by
  have hdigits : parseDigits (formatUint n).toList = some n := by
    unfold parseDigits
    rw [if_pos, formatUint_toList, Nat.ofDigitChars_ten_toDigits]
    refine ⟨?_, List.all_eq_true.mpr fun c hc => isDigit_of_mem_formatUint hc⟩
    rw [formatUint_toList]
    exact Nat.toDigits_ne_nil
  -- A digit is no sign.
  have hhead : ∀ c cs, (formatUint n).toList = c :: cs → c.isDigit = true := by
    intro c cs hcs
    exact isDigit_of_mem_formatUint (hcs ▸ List.mem_cons_self)
  unfold parseInt
  split
  · rename_i cs hcs
    exact absurd (hhead _ cs hcs) (by decide)
  · rename_i cs hcs
    exact absurd (hhead _ cs hcs) (by decide)
  · rw [hdigits]
    exact if_pos h

/-- Different numbers are written differently. -/
theorem formatUint_inj {m n : ℕ} : formatUint m = formatUint n ↔ m = n := by
  constructor
  · intro h
    have hdigits : Nat.toDigits 10 m = Nat.toDigits 10 n := by
      rw [← formatUint_toList, ← formatUint_toList, h]
    rw [← Nat.ofDigitChars_ten_toDigits (n := m), hdigits, Nat.ofDigitChars_ten_toDigits]
  · rintro rfl
    rfl

/-! ## White space -/

/-- `unicode.IsSpace`. -/
def isSpace (c : Char) : Bool :=
  (9 ≤ c.toNat && c.toNat ≤ 13) || c.toNat = 0x20 || c.toNat = 0x85 || c.toNat = 0xA0 || c.toNat = 0x1680 ||
    (0x2000 ≤ c.toNat && c.toNat ≤ 0x200A) || c.toNat = 0x2028 || c.toNat = 0x2029 || c.toNat = 0x202F ||
    c.toNat = 0x205F || c.toNat = 0x3000

/-- `strings.TrimSpace`. -/
def trimSpace (cs : List Char) : List Char := (cs.dropWhile isSpace).rdropWhile isSpace

/-! ## Hexadecimal text -/

/-- The value of a hexadecimal digit, in upper or lower case. -/
def hexValue (c : Char) : Option ℕ :=
  if c.isDigit then some (c.toNat - 48)
  else if 'a' ≤ c ∧ c ≤ 'f' then some (c.toNat - 87)
  else if 'A' ≤ c ∧ c ≤ 'F' then some (c.toNat - 55)
  else none

/-- The two digits of a byte. -/
def hexByte (b : UInt8) : List Char := [Nat.digitChar (b.toNat / 16), Nat.digitChar (b.toNat % 16)]

/-- `hex.EncodeToString(b)`. -/
def encodeHex (b : Bytes) : List Char := b.flatMap hexByte

/-- `hex.DecodeString(s)`: what was decoded before the first error. -/
def decodeHex : List Char → Bytes
  | c :: d :: cs =>
    match hexValue c, hexValue d with
    | some hi, some lo => UInt8.ofNat (16 * hi + lo) :: decodeHex cs
    | _, _ => []
  | _ => []

/-- The text without its leading `0x`. -/
def strip0x : List Char → List Char
  | '0' :: 'x' :: cs => cs
  | '0' :: 'X' :: cs => cs
  | cs => cs

/-- A text with an odd number of bytes gets a leading zero.
Source: go-ethereum `common.FromHex` -/
def fromHex (s : String) : Bytes :=
  let cs := strip0x s.toList
  decodeHex (if (cs.map Char.utf8Size).sum % 2 = 1 then '0' :: cs else cs)

/-- A hex digit is read back. -/
theorem hexValue_digitChar : ∀ n < 16, hexValue (Nat.digitChar n) = some n := by decide

/-- Text that has the same digits, in whatever case. -/
def SameDigits (cs ds : List Char) : Prop :=
  List.Forall₂ (fun c d => hexValue c = hexValue d ∧ c.utf8Size = d.utf8Size) cs ds

/-- Texts with the same digits are decoded alike. -/
theorem decodeHex_congr : ∀ {cs ds : List Char}, SameDigits cs ds → decodeHex cs = decodeHex ds
  | _, _, .nil => rfl
  | _, _, .cons _ .nil => rfl
  | _, _, .cons hc (.cons hd h) => by
      simp only [decodeHex, hc.1, hd.1, decodeHex_congr h]

/-- A byte is written as two digits. -/
theorem encodeHex_cons (x : UInt8) (b : Bytes) : encodeHex (x :: b) =
    Nat.digitChar (x.toNat / 16) :: Nat.digitChar (x.toNat % 16) :: encodeHex b := rfl

/-- **A byte string is read back.** -/
theorem decodeHex_encodeHex (b : Bytes) : decodeHex (encodeHex b) = b := by
  induction b with
  | nil => rfl
  | cons x b ih =>
      have hlt : x.toNat < 256 := x.toNat_lt
      rw [encodeHex_cons]
      simp only [decodeHex, hexValue_digitChar (x.toNat / 16) (by omega),
        hexValue_digitChar (x.toNat % 16) (by omega), ih, Nat.div_add_mod, UInt8.ofNat_toNat]

/-- A hex digit takes one byte. -/
theorem utf8Size_digitChar : ∀ n < 16, (Nat.digitChar n).utf8Size = 1 := by decide

/-- Bytes take twice their number in hex digits. -/
theorem encodeHex_utf8Size (b : Bytes) : ((encodeHex b).map Char.utf8Size).sum = 2 * b.length := by
  induction b with
  | nil => rfl
  | cons x b ih =>
      have hlt : x.toNat < 256 := x.toNat_lt
      rw [encodeHex_cons]
      simp only [List.map_cons, List.sum_cons, utf8Size_digitChar (x.toNat / 16) (by omega),
        utf8Size_digitChar (x.toNat % 16) (by omega), ih, List.length_cons]
      omega

/-- Texts with the same digits take the same number of bytes. -/
theorem SameDigits.utf8Size {cs ds : List Char} (h : SameDigits cs ds) :
    (cs.map Char.utf8Size).sum = (ds.map Char.utf8Size).sum := by
  induction h with
  | nil => rfl
  | cons hc _ ih => simp only [List.map_cons, List.sum_cons, hc.2, ih]

/-- Text with the digits of a byte string, after `0x`, is read back. -/
theorem fromHex_of_sameDigits {cs : List Char} {b : Bytes} (h : SameDigits cs (encodeHex b)) :
    fromHex (String.ofList ('0' :: 'x' :: cs)) = b := by
  have heven : (cs.map Char.utf8Size).sum % 2 ≠ 1 := by
    rw [h.utf8Size, encodeHex_utf8Size]
    omega
  simp only [fromHex, String.toList_ofList, strip0x, if_neg heven]
  rw [decodeHex_congr h, decodeHex_encodeHex]

/-- A text has the same digits as itself. -/
theorem SameDigits.refl (cs : List Char) : SameDigits cs cs :=
  List.forall₂_same.mpr fun _ _ => ⟨rfl, rfl⟩

/-! ## Hashes and addresses -/

/-- `common.Hash.Hex()`. -/
def hashHex (h : Hash) : String := String.ofList ('0' :: 'x' :: encodeHex h.bytes)

/-- `common.HexToHash(s)`. -/
def hexToHash (s : String) : Hash := bytesToHash (fromHex s)

/-- **A hash is read back.** -/
theorem hexToHash_hashHex (h : Hash) : hexToHash (hashHex h) = h := by
  rw [hexToHash, hashHex, fromHex_of_sameDigits (SameDigits.refl _)]
  exact FixedBytes.ofBytes_bytes h

/-- Different hashes are written differently. -/
theorem hashHex_injective : Function.Injective hashHex := by
  intro a b h
  rw [← hexToHash_hashHex a, h, hexToHash_hashHex b]

/-- `common.HexToAddress(s)`. -/
def hexToAddress (s : String) : Address := FixedBytes.ofBytes 20 (fromHex s)

/-- Twenty bytes in hexadecimal digits, with or without a leading `0x`.
Source: go-ethereum `common.IsHexAddress` -/
def isHexAddress (s : String) : Bool :=
  let cs := strip0x s.toList
  cs.length = 40 && cs.all fun c => (hexValue c).isSome

/-- A letter is in upper case if its place in the hash has a value above 7. -/
def checksumDigit (nibble : ℕ) (c : Char) : Char := if '9' < c ∧ 7 < nibble then c.toUpper else c

/-- The half byte at a place of a byte string. -/
def nibbleAt (b : Bytes) (i : ℕ) : ℕ :=
  let byte := (b.getD (i / 2) 0).toNat
  if i % 2 = 0 then byte / 16 else byte % 16

/-- The mixed case of EIP-55.
Source: go-ethereum `common.Address.checksumHex` -/
def checksumHex [Keccak] (digits : List Char) : List Char :=
  let hash := keccak256 (digits.map fun c => UInt8.ofNat c.toNat)
  digits.zipIdx.map fun (c, i) => checksumDigit (nibbleAt hash.bytes i) c

/-- `common.Address.Hex()`. -/
def addressHex [Keccak] (a : Address) : String :=
  String.ofList ('0' :: 'x' :: checksumHex (encodeHex a.bytes))

/-- A digit has the same value and size in upper case. -/
theorem toUpper_digitChar : ∀ n < 16, hexValue (Nat.digitChar n).toUpper = hexValue (Nat.digitChar n) ∧
    (Nat.digitChar n).toUpper.utf8Size = (Nat.digitChar n).utf8Size := by decide

/-- So it has with the case that the checksum gives it. -/
theorem checksumDigit_digitChar {n : ℕ} (hn : n < 16) (nibble : ℕ) :
    hexValue (checksumDigit nibble (Nat.digitChar n)) = hexValue (Nat.digitChar n) ∧
      (checksumDigit nibble (Nat.digitChar n)).utf8Size = (Nat.digitChar n).utf8Size := by
  unfold checksumDigit
  split_ifs
  · exact toUpper_digitChar n hn
  · exact ⟨rfl, rfl⟩

/-- All characters of encoded bytes are hex digits. -/
theorem digitChar_of_mem_encodeHex {b : Bytes} {c : Char} (h : c ∈ encodeHex b) :
    ∃ n < 16, c = Nat.digitChar n := by
  obtain ⟨x, -, hx⟩ := List.mem_flatMap.mp h
  have hlt : x.toNat < 256 := x.toNat_lt
  simp only [hexByte, List.mem_cons, List.not_mem_nil, or_false] at hx
  rcases hx with rfl | rfl
  · exact ⟨_, by omega, rfl⟩
  · exact ⟨_, by omega, rfl⟩

/-- Changing the case of digits, by their place. -/
theorem sameDigits_checksum (nibble : ℕ → ℕ) {cs : List Char} (h : ∀ c ∈ cs, ∃ n < 16, c = Nat.digitChar n)
    (start : ℕ) : SameDigits ((cs.zipIdx start).map fun (c, i) => checksumDigit (nibble i) c) cs := by
  induction cs generalizing start with
  | nil => exact List.Forall₂.nil
  | cons c cs ih =>
      refine List.Forall₂.cons ?_ (ih (fun d hd => h d (List.mem_cons_of_mem c hd)) (start + 1))
      obtain ⟨n, hn, rfl⟩ := h c List.mem_cons_self
      exact checksumDigit_digitChar hn (nibble start)

/-- **An address is read back.** -/
theorem hexToAddress_addressHex [Keccak] (a : Address) : hexToAddress (addressHex a) = a := by
  have hdigits : SameDigits (checksumHex (encodeHex a.bytes)) (encodeHex a.bytes) :=
    sameDigits_checksum _ (fun _ hc => digitChar_of_mem_encodeHex hc) 0
  rw [hexToAddress, addressHex, fromHex_of_sameDigits hdigits]
  exact FixedBytes.ofBytes_bytes a

end Smartdoge
