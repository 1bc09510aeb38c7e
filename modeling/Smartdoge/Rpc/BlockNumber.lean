import Smartdoge.Types.Text

/-!
# Block numbers as text

`rpc/types/block.go`: a block number is one of three words, or a number in hexadecimal or decimal digits. Text
without `0x` goes to `cast.ToUint64`, which returns 0 for what it cannot read.

* `parseUint_ok_iff`, `decodeRaw_ok_iff`: what `hexutil.DecodeUint64` accepts.
* `unmarshalJSON_of_denotes`: what the grammar denotes is read.
* `unmarshalJSON_orHash`: the number that `BlockNumberOrHash` reads in a quoted text is the same.
* **`readsGrammar_iff`**: a text is read as the grammar says, if and only if it is empty, a word, has the prefix `0x`,
  is a decimal number below `2 ^ 63` or one that begins with zeros, or `cast.ToUint64` reads it as `2 ^ 63` or more.
* `word_read_as_block`: any other text is read as some block, and a word that is no number as block 0.
-/

namespace Smartdoge.Rpc

/-! ## Hexadecimal numbers -/

/-- The errors of `hexutil`. -/
inductive HexError where
  | emptyString
  | missingPrefix
  | emptyNumber
  | leadingZero
  | invalidSyntax
  | uint64Range
deriving DecidableEq

/-- `strconv.ParseUint(s, 16, 64)`, from a number that was read before. -/
def parseUint : ℕ → List Char → Except HexError ℕ
  | n, [] => .ok n
  | n, c :: cs =>
    match hexValue c with
    | none => .error .invalidSyntax
    | some digit => if 16 * n + digit < 2 ^ 64 then parseUint (16 * n + digit) cs else .error .uint64Range

/-- The text after the prefix.
Source: go-ethereum `hexutil.checkNumber` -/
def decodeRaw (raw : List Char) : Except HexError ℕ :=
  if raw = [] then .error .emptyNumber
  else if 1 < raw.length ∧ raw.head? = some '0' then .error .leadingZero
  else parseUint 0 raw

/-- Source: go-ethereum `hexutil.DecodeUint64` -/
def decodeUint64 : List Char → Except HexError ℕ
  | [] => .error .emptyString
  | '0' :: 'x' :: raw => decodeRaw raw
  | '0' :: 'X' :: raw => decodeRaw raw
  | _ => .error .missingPrefix

/-! ## Block numbers -/

/-- What ends `BlockNumber.UnmarshalJSON` with an error. -/
inductive BlockNumberError where
  | hex (err : HexError)
  /-- "block number larger than int64". -/
  | larger
deriving DecidableEq

/-- Source: `rpc/types/block.go` `BlockParamEarliest` -/
def blockParamEarliest : List Char := "earliest".toList

/-- Source: `rpc/types/block.go` `BlockParamLatest` -/
def blockParamLatest : List Char := "latest".toList

/-- Source: `rpc/types/block.go` `BlockParamPending` -/
def blockParamPending : List Char := "pending".toList

/-- The text without one pair of quotes around it. -/
def unquote : List Char → List Char
  | '"' :: rest => if rest.getLast? = some '"' then rest.dropLast else '"' :: rest
  | input => input

/-- A number that fits in an `int64` is assigned. -/
def assignNumber (number : ℕ) : EStateM BlockNumberError ℤ PUnit :=
  if 2 ^ 63 - 1 < number then throw .larger else set (number : ℤ)

/-- The receiver is the state. `cast` is the conversion of text by code outside this repository; `ToUint64` returns 0
where it fails.
Source: `rpc/types/block.go` `BlockNumber.UnmarshalJSON` -/
def unmarshalJSON (cast : List Char → Option UInt64) (data : List Char) : EStateM BlockNumberError ℤ PUnit :=
  let input := unquote (trimSpace data)
  if input = blockParamEarliest then set (0 : ℤ)
  else if input = blockParamLatest then set (-1 : ℤ)
  else if input = blockParamPending then set (-2 : ℤ)
  else
    match decodeUint64 input with
    | .ok number => assignNumber number
    | .error .missingPrefix => assignNumber ((cast input).getD 0).toNat
    | .error err => throw (.hex err)

/-! ## Block numbers or hashes -/

/-- Source: `rpc/types/block.go` `BlockNumberOrHash` -/
structure BlockNumberOrHash where
  blockNumber : Option ℤ
  blockHash : Option Hash

/-- What ends `BlockNumberOrHash.UnmarshalJSON` with an error. -/
inductive OrHashError where
  /-- "cannot specify both BlockHash and BlockNumber, choose one or the other". -/
  | both
  | json
  | hash
  | hex (err : HexError)
  /-- "uint64 value %v cannot exceed %v". -/
  | safeInt64 (value : ℕ)
deriving DecidableEq

/-- Decoding of JSON by code outside this repository; `none` is an error. -/
structure BlockJson where
  /-- An object: the text of its field `blockNumber`, and its field `blockHash`. -/
  object : List Char → Option (Option (List Char) × Option Hash)
  string : List Char → Option (List Char)

/-- `common.Hash.UnmarshalText` of 66 bytes; `none` is an error. -/
def unmarshalHash : List Char → Option Hash
  | '0' :: x :: digits =>
    if (x = 'x' ∨ x = 'X') ∧ digits.length = 64 ∧ digits.all (fun c => (hexValue c).isSome) then
      some (bytesToHash (decodeHex digits))
    else none
  | _ => none

/-- Source: `types/validation.go` `SafeInt64` -/
def safeInt64 (value : ℕ) : Except OrHashError ℤ :=
  if 2 ^ 63 - 1 < value then .error (.safeInt64 value) else .ok value

/-- The receiver is the state.
Source: `rpc/types/block.go` `decodeFromString` -/
def decodeFromString (input : List Char) : EStateM OrHashError BlockNumberOrHash PUnit := fun bnh =>
  if input = blockParamEarliest then .ok () { bnh with blockNumber := some 0 }
  else if input = blockParamLatest then .ok () { bnh with blockNumber := some (-1) }
  else if input = blockParamPending then .ok () { bnh with blockNumber := some (-2) }
  else if (input.map Char.utf8Size).sum = 66 then
    match unmarshalHash input with
    | none => .error .hash bnh
    | some hash => .ok () { bnh with blockHash := some hash }
  else
    match decodeUint64 input with
    | .error err => .error (.hex err) bnh
    | .ok number =>
      match safeInt64 number with
      | .error err => .error err bnh
      | .ok bn => .ok () { bnh with blockNumber := some bn }

/-- Source: `rpc/types/block.go` `checkUnmarshal` -/
def checkUnmarshal (e : BlockNumberOrHash) : EStateM OrHashError BlockNumberOrHash PUnit :=
  if e.blockNumber.isSome ∧ e.blockHash.isSome then throw .both else set e

/-- The object, if it and its fields are decoded. -/
def decodeObject (cast : List Char → Option UInt64) (json : BlockJson) (data : List Char) :
    Option BlockNumberOrHash := do
  let (blockNumber, blockHash) ← json.object data
  match blockNumber with
  | none => some ⟨none, blockHash⟩
  | some text =>
    match unmarshalJSON cast text 0 with
    | .ok _ number => some ⟨some number, blockHash⟩
    | .error _ _ => none

/-- Source: `rpc/types/block.go` `BlockNumberOrHash.UnmarshalJSON` -/
def orHashUnmarshalJSON (cast : List Char → Option UInt64) (json : BlockJson) (data : List Char) :
    EStateM OrHashError BlockNumberOrHash PUnit :=
  match decodeObject cast json data with
  | some e => checkUnmarshal e
  | none =>
    match json.string data with
    | none => throw .json
    | some input => decodeFromString input

/-! ## The grammar -/

/-- The value of hexadecimal digits, after a number that was read before. -/
def hexNumber (n : ℕ) (digits : List Char) : ℕ := digits.foldl (fun n c => 16 * n + (hexValue c).getD 0) n

/-- The value of decimal digits. -/
def decimalNumber (digits : List Char) : ℕ := Nat.ofDigitChars 10 digits 0

/-- Decimal digits. -/
def IsDecimal (digits : List Char) : Prop := digits ≠ [] ∧ ∀ c ∈ digits, c.isDigit = true

/-- The number begins with a zero that is not all of it. -/
def LeadingZero (digits : List Char) : Prop := 1 < digits.length ∧ digits.head? = some '0'

/-- What a text without quotes and blanks denotes. -/
inductive Denotes : List Char → ℤ → Prop
  | earliest : Denotes blockParamEarliest 0
  | latest : Denotes blockParamLatest (-1)
  | pending : Denotes blockParamPending (-2)
  | hex {x : Char} {digits : List Char} (hmarked : x = 'x' ∨ x = 'X') (hsome : digits ≠ [])
      (hdigits : ∀ c ∈ digits, (hexValue c).isSome = true) (hzero : ¬LeadingZero digits)
      (hrange : hexNumber 0 digits < 2 ^ 63) : Denotes ('0' :: x :: digits) (hexNumber 0 digits)
  | decimal {digits : List Char} (hdecimal : IsDecimal digits) (hzero : ¬LeadingZero digits)
      (hrange : decimalNumber digits < 2 ^ 63) : Denotes digits (decimalNumber digits)

/-- `cast` reads decimal numbers that fit in an `int64`. -/
def ReadsDecimals (cast : List Char → Option UInt64) : Prop :=
  ∀ digits, IsDecimal digits → ¬LeadingZero digits → decimalNumber digits < 2 ^ 63 →
    cast digits = some (UInt64.ofNat (decimalNumber digits))

/-- Text between quotes that stands for itself. -/
def EscapeFree (text : List Char) : Prop := ∀ c ∈ text, c ≠ '"' ∧ c ≠ '\\' ∧ 0x20 ≤ c.toNat

/-- The white space of JSON. -/
def IsBlank (cs : List Char) : Prop := ∀ c ∈ cs, c = ' ' ∨ c = '\t' ∨ c = '\n' ∨ c = '\r'

/-- A text between quotes and blanks. -/
def quoted (before text after : List Char) : List Char := before ++ '"' :: (text ++ '"' :: after)

/-- The decoder reads quoted texts as texts, and not as objects. -/
structure BlockJson.ReadsStrings (json : BlockJson) : Prop where
  object : ∀ before text after, IsBlank before → IsBlank after → EscapeFree text →
    json.object (quoted before text after) = none
  string : ∀ before text after, IsBlank before → IsBlank after → EscapeFree text →
    json.string (quoted before text after) = some text

/-- **The text is read as the grammar says**: what it denotes is assigned, anything else is an error that leaves the
receiver as it was, and `BlockNumberOrHash` reads the same number. Decimal numbers that begin with zeros are left
open. -/
structure ReadsGrammar (cast : List Char → Option UInt64) (json : BlockJson) (data : List Char) : Prop where
  ok : ∀ bn n, Denotes (unquote (trimSpace data)) n → unmarshalJSON cast data bn = .ok () n
  error : ∀ bn, (∀ n, ¬Denotes (unquote (trimSpace data)) n) →
    ¬(IsDecimal (unquote (trimSpace data)) ∧ LeadingZero (unquote (trimSpace data))) →
    ∃ err, unmarshalJSON cast data bn = .error err bn
  orHash : ∀ before text after, data = quoted before text after → IsBlank before → IsBlank after →
    EscapeFree text → ∀ bnh n, orHashUnmarshalJSON cast json data ⟨none, none⟩ = .ok () bnh →
      bnh.blockNumber = some n → ∀ bn, unmarshalJSON cast data bn = .ok () n

/-! ## What is decoded -/

/-- More digits do not make a number smaller. -/
theorem le_hexNumber (n : ℕ) (digits : List Char) : n ≤ hexNumber n digits := by
  induction digits generalizing n with
  | nil => exact le_refl n
  | cons c digits ih =>
      have hstep : n ≤ 16 * n + (hexValue c).getD 0 := by omega
      exact le_trans hstep (ih _)

/-- **Digits are read** if their value is a `uint64`. -/
theorem parseUint_ok_iff {n : ℕ} (hn : n < 2 ^ 64) {digits : List Char} {v : ℕ} :
    parseUint n digits = .ok v ↔
      (∀ c ∈ digits, (hexValue c).isSome = true) ∧ hexNumber n digits = v ∧ v < 2 ^ 64 := by
  induction digits generalizing n with
  | nil =>
      simp only [parseUint, hexNumber, List.foldl_nil, Except.ok.injEq, List.not_mem_nil, false_implies, implies_true,
        true_and]
      constructor
      · rintro rfl
        exact ⟨rfl, hn⟩
      · exact fun h => h.1
  | cons c digits ih =>
      rw [parseUint, List.forall_mem_cons]
      cases hc : hexValue c with
      | none => simp
      | some digit =>
          have hfold : hexNumber n (c :: digits) = hexNumber (16 * n + digit) digits := by
            simp [hexNumber, hc]
          rw [hfold]
          by_cases hrange : 16 * n + digit < 2 ^ 64
          · simp only [if_pos hrange]
            rw [ih hrange]
            simp
          · simp only [if_neg hrange]
            have hle := le_hexNumber (16 * n + digit) digits
            constructor
            · intro h
              cases h
            · rintro ⟨-, rfl, hlt⟩
              omega

/-- **What `decodeRaw` accepts**: hex digits without a leading zero, below 2⁶⁴. -/
theorem decodeRaw_ok_iff {raw : List Char} {v : ℕ} : decodeRaw raw = .ok v ↔
    raw ≠ [] ∧ ¬LeadingZero raw ∧ (∀ c ∈ raw, (hexValue c).isSome = true) ∧ hexNumber 0 raw = v ∧ v < 2 ^ 64 := by
  unfold decodeRaw LeadingZero
  by_cases hempty : raw = []
  · simp [hempty]
  · rw [if_neg hempty]
    by_cases hzero : 1 < raw.length ∧ raw.head? = some '0'
    · simp [hzero]
    · rw [if_neg hzero, parseUint_ok_iff (by norm_num)]
      simp [hempty, hzero]

/-- The text has the prefix `0x`, in either case. -/
def Prefixed (input : List Char) : Prop := ∃ x raw, (x = 'x' ∨ x = 'X') ∧ input = '0' :: x :: raw

/-- After the prefix the digits are read. -/
theorem decodeUint64_prefixed {x : Char} (h : x = 'x' ∨ x = 'X') (raw : List Char) :
    decodeUint64 ('0' :: x :: raw) = decodeRaw raw := by
  rcases h with rfl | rfl
  · rfl
  · rfl

/-- Reading digits does not complain about the prefix. -/
theorem parseUint_ne_missingPrefix (n : ℕ) (digits : List Char) :
    parseUint n digits ≠ .error .missingPrefix := by
  induction digits generalizing n with
  | nil => simp [parseUint]
  | cons c digits ih =>
      rw [parseUint]
      split
      · simp
      · split
        · exact ih _
        · simp

/-- Neither does `decodeRaw`. -/
theorem decodeRaw_ne_missingPrefix (raw : List Char) : decodeRaw raw ≠ .error .missingPrefix := by
  unfold decodeRaw
  split
  · simp
  · split
    · simp
    · exact parseUint_ne_missingPrefix 0 raw

/-- A text without the prefix is refused for that. -/
theorem decodeUint64_missingPrefix {input : List Char} (hempty : input ≠ []) (hmarked : ¬Prefixed input) :
    decodeUint64 input = .error .missingPrefix := by
  unfold decodeUint64
  split
  · exact absurd rfl hempty
  · exact absurd ⟨'x', _, Or.inl rfl, rfl⟩ hmarked
  · exact absurd ⟨'X', _, Or.inr rfl, rfl⟩ hmarked
  · rfl

/-- What is decoded is what the text denotes. -/
theorem denotes_of_decodeUint64 {input : List Char} {v : ℕ} (h : decodeUint64 input = .ok v) (hrange : v < 2 ^ 63) :
    Denotes input v := by
  unfold decodeUint64 at h
  split at h
  · cases h
  · obtain ⟨hsome, hzero, hdigits, rfl, -⟩ := decodeRaw_ok_iff.mp h
    exact .hex (Or.inl rfl) hsome hdigits hzero hrange
  · obtain ⟨hsome, hzero, hdigits, rfl, -⟩ := decodeRaw_ok_iff.mp h
    exact .hex (Or.inr rfl) hsome hdigits hzero hrange
  · cases h

/-! ## Texts -/

/-- A word that stands for a block. -/
def IsTag (input : List Char) : Prop :=
  input = blockParamEarliest ∨ input = blockParamLatest ∨ input = blockParamPending

/-- A word does not start with a digit. -/
theorem not_isTag_of_head {c : Char} {cs : List Char} (h : c.isDigit = true) : ¬IsTag (c :: cs) := by
  rintro (htag | htag | htag)
  · rw [(List.cons.inj htag).1] at h
    exact absurd h (by decide)
  · rw [(List.cons.inj htag).1] at h
    exact absurd h (by decide)
  · rw [(List.cons.inj htag).1] at h
    exact absurd h (by decide)

/-- A decimal number has no prefix. -/
theorem IsDecimal.not_prefixed {digits : List Char} (h : IsDecimal digits) : ¬Prefixed digits := by
  rintro ⟨x, raw, hx, rfl⟩
  have hdigit := h.2 x (by simp)
  rcases hx with rfl | rfl
  · exact absurd hdigit (by decide)
  · exact absurd hdigit (by decide)

/-- A decimal number is no word. -/
theorem IsDecimal.not_isTag {digits : List Char} (h : IsDecimal digits) : ¬IsTag digits := by
  obtain ⟨c, cs, rfl⟩ := List.exists_cons_of_ne_nil h.1
  exact not_isTag_of_head (h.2 c List.mem_cons_self)

section reading

variable {cast : List Char → Option UInt64} {data : List Char}

/-- A text that is no word is decoded. -/
theorem unmarshalJSON_of_not_isTag (h : ¬IsTag (unquote (trimSpace data))) :
    unmarshalJSON cast data = match decodeUint64 (unquote (trimSpace data)) with
      | .ok number => assignNumber number
      | .error .missingPrefix => assignNumber ((cast (unquote (trimSpace data))).getD 0).toNat
      | .error err => throw (.hex err) := by
  unfold IsTag at h
  push Not at h
  unfold unmarshalJSON
  dsimp only
  rw [if_neg h.1, if_neg h.2.1, if_neg h.2.2]

/-- A number below 2⁶³ is assigned. -/
theorem assignNumber_ok {n : ℕ} (h : n < 2 ^ 63) (bn : ℤ) : assignNumber n bn = .ok () (n : ℤ) := by
  unfold assignNumber
  rw [if_neg (by omega)]
  rfl

/-- A larger one is refused, and nothing is assigned. -/
theorem assignNumber_error {n : ℕ} (h : ¬n < 2 ^ 63) (bn : ℤ) : assignNumber n bn = .error .larger bn := by
  unfold assignNumber
  rw [if_pos (by omega)]
  rfl

/-- An empty text is refused. -/
theorem unmarshalJSON_nil (h : unquote (trimSpace data) = []) (bn : ℤ) :
    unmarshalJSON cast data bn = .error (.hex .emptyString) bn := by
  rw [unmarshalJSON_of_not_isTag (by rw [h]; unfold IsTag; decide), h]
  rfl

/-- A text without prefix is what `cast` reads. -/
theorem unmarshalJSON_missingPrefix (htag : ¬IsTag (unquote (trimSpace data)))
    (hempty : unquote (trimSpace data) ≠ []) (hmarked : ¬Prefixed (unquote (trimSpace data))) :
    unmarshalJSON cast data = assignNumber ((cast (unquote (trimSpace data))).getD 0).toNat := by
  rw [unmarshalJSON_of_not_isTag htag, decodeUint64_missingPrefix hempty hmarked]

/-- A text with the prefix is no word. -/
theorem not_isTag_of_prefixed {input : List Char} (h : Prefixed input) : ¬IsTag input := by
  obtain ⟨x, raw, -, rfl⟩ := h
  exact not_isTag_of_head (by decide)

/-- A text with the prefix: either it denotes a number and the number is assigned, or it is an error. -/
theorem unmarshalJSON_prefixed {x : Char} {raw : List Char} (hx : x = 'x' ∨ x = 'X')
    (hinput : unquote (trimSpace data) = '0' :: x :: raw) (bn : ℤ) :
    (Denotes ('0' :: x :: raw) (hexNumber 0 raw) ∧ unmarshalJSON cast data bn = .ok () (hexNumber 0 raw : ℤ)) ∨
      ∃ err, unmarshalJSON cast data bn = .error err bn := by
  have htag : ¬IsTag (unquote (trimSpace data)) := not_isTag_of_prefixed ⟨x, raw, hx, hinput⟩
  rw [unmarshalJSON_of_not_isTag htag, hinput, decodeUint64_prefixed hx]
  cases hraw : decodeRaw raw with
  | ok v =>
      obtain ⟨hsome, hzero, hdigits, rfl, -⟩ := decodeRaw_ok_iff.mp hraw
      by_cases hrange : hexNumber 0 raw < 2 ^ 63
      · exact Or.inl ⟨.hex hx hsome hdigits hzero hrange, assignNumber_ok hrange bn⟩
      · exact Or.inr ⟨.larger, assignNumber_error hrange bn⟩
  | error err =>
      right
      cases err with
      | missingPrefix =>
          -- `decodeRaw` looks at the digits only.
          exact absurd hraw (decodeRaw_ne_missingPrefix raw)
      | _ => exact ⟨_, rfl⟩

/-- **What the grammar denotes is read.** -/
theorem unmarshalJSON_of_denotes (hcast : ReadsDecimals cast) {n : ℤ}
    (h : Denotes (unquote (trimSpace data)) n) (bn : ℤ) : unmarshalJSON cast data bn = .ok () n := by
  generalize hinput : unquote (trimSpace data) = input at h
  cases h with
  | earliest =>
      unfold unmarshalJSON
      rw [hinput]
      rfl
  | latest =>
      unfold unmarshalJSON
      rw [hinput]
      rfl
  | pending =>
      unfold unmarshalJSON
      rw [hinput]
      rfl
  | hex hx hsome hdigits hzero hrange =>
      have htag : ¬IsTag (unquote (trimSpace data)) := not_isTag_of_prefixed ⟨_, _, hx, hinput⟩
      have hraw := decodeRaw_ok_iff.mpr ⟨hsome, hzero, hdigits, rfl, by omega⟩
      rw [unmarshalJSON_of_not_isTag htag, hinput, decodeUint64_prefixed hx, hraw]
      exact assignNumber_ok hrange bn
  | decimal hdecimal hzero hrange =>
      have hinput' := hinput.symm
      subst hinput'
      rw [unmarshalJSON_missingPrefix hdecimal.not_isTag hdecimal.1 hdecimal.not_prefixed,
        hcast _ hdecimal hzero hrange, Option.getD_some, UInt64.toNat_ofNat_of_lt' (lt_trans hrange (by norm_num))]
      exact assignNumber_ok hrange bn

end reading

/-! ## Quoted texts -/

/-- The blanks of JSON are spaces for Go. -/
theorem isSpace_of_isBlank {cs : List Char} (h : IsBlank cs) : ∀ c ∈ cs, isSpace c = true := by
  intro c hc
  rcases h c hc with rfl | rfl | rfl | rfl
  · decide
  · decide
  · decide
  · decide

/-- Trimming takes the blanks around a quoted text away. -/
theorem trimSpace_quoted {before text after : List Char} (hbefore : IsBlank before) (hafter : IsBlank after) :
    trimSpace (quoted before text after) = '"' :: (text ++ ['"']) := by
  have hquote : isSpace '"' = false := by decide
  unfold trimSpace quoted
  rw [List.dropWhile_append_of_pos (isSpace_of_isBlank hbefore), List.dropWhile_cons_of_neg (by simp [hquote])]
  have hsplit : '"' :: (text ++ '"' :: after) = ('"' :: (text ++ ['"'])) ++ after := by simp
  rw [hsplit, List.rdropWhile, List.reverse_append,
    List.dropWhile_append_of_pos (fun c hc => isSpace_of_isBlank hafter c (List.mem_reverse.mp hc))]
  simp [hquote]

/-- What is read of a quoted text is what is between the quotes. -/
theorem unquote_quoted {before text after : List Char} (hbefore : IsBlank before) (hafter : IsBlank after) :
    unquote (trimSpace (quoted before text after)) = text := by
  rw [trimSpace_quoted hbefore hafter]
  simp [unquote]

/-- A text between quotes is decoded as a text. -/
theorem orHashUnmarshalJSON_quoted {cast : List Char → Option UInt64} {json : BlockJson} (hjson : json.ReadsStrings)
    {before text after : List Char} (hbefore : IsBlank before) (hafter : IsBlank after) (htext : EscapeFree text) :
    orHashUnmarshalJSON cast json (quoted before text after) = decodeFromString text := by
  unfold orHashUnmarshalJSON decodeObject
  simp only [hjson.object before text after hbefore hafter htext, hjson.string before text after hbefore hafter htext,
    Option.bind_eq_bind, Option.bind_none]

/-- A number that is read from a text is what the text denotes. -/
theorem decodeFromString_denotes {text : List Char} {bnh : BlockNumberOrHash} {n : ℤ}
    (h : decodeFromString text ⟨none, none⟩ = .ok () bnh) (hn : bnh.blockNumber = some n) : Denotes text n := by
  unfold decodeFromString at h
  split at h
  · next htext =>
      cases h
      cases hn
      exact htext ▸ .earliest
  split at h
  · next htext =>
      cases h
      cases hn
      exact htext ▸ .latest
  split at h
  · next htext =>
      cases h
      cases hn
      exact htext ▸ .pending
  split at h
  · -- a hash sets no number
    split at h
    · cases h
    · cases h
      cases hn
  split at h
  · cases h
  · next number hnumber =>
      unfold safeInt64 at h
      by_cases hrange : 2 ^ 63 - 1 < number
      · rw [if_pos hrange] at h
        cases h
      · rw [if_neg hrange] at h
        cases h
        cases hn
        exact denotes_of_decodeUint64 hnumber (by omega)

/-- **The number that `BlockNumberOrHash` reads in a quoted text** is the number `BlockNumber` reads. -/
theorem unmarshalJSON_orHash {cast : List Char → Option UInt64} {json : BlockJson} (hcast : ReadsDecimals cast)
    (hjson : json.ReadsStrings) {before text after : List Char} (hbefore : IsBlank before) (hafter : IsBlank after)
    (htext : EscapeFree text) {bnh : BlockNumberOrHash} {n : ℤ}
    (h : orHashUnmarshalJSON cast json (quoted before text after) ⟨none, none⟩ = .ok () bnh)
    (hn : bnh.blockNumber = some n) (bn : ℤ) : unmarshalJSON cast (quoted before text after) bn = .ok () n := by
  rw [orHashUnmarshalJSON_quoted hjson hbefore hafter htext] at h
  have hdenotes := decodeFromString_denotes h hn
  exact unmarshalJSON_of_denotes hcast (by rwa [unquote_quoted hbefore hafter]) bn

/-! ## When the grammar is read -/

/-- What is neither empty, nor a word, nor has a prefix, denotes a number only as a decimal. -/
theorem Denotes.decimal_of {input : List Char} {n : ℤ} (h : Denotes input n) (htag : ¬IsTag input)
    (hmarked : ¬Prefixed input) : IsDecimal input ∧ decimalNumber input < 2 ^ 63 := by
  cases h with
  | earliest => exact absurd (Or.inl rfl) htag
  | latest => exact absurd (Or.inr (Or.inl rfl)) htag
  | pending => exact absurd (Or.inr (Or.inr rfl)) htag
  | hex hx => exact absurd ⟨_, _, hx, rfl⟩ hmarked
  | decimal hdecimal _ hrange => exact ⟨hdecimal, hrange⟩

/-- A word denotes a number. -/
theorem exists_denotes_of_isTag {input : List Char} (h : IsTag input) : ∃ n, Denotes input n := by
  rcases h with rfl | rfl | rfl
  · exact ⟨_, .earliest⟩
  · exact ⟨_, .latest⟩
  · exact ⟨_, .pending⟩

/-- Decimal numbers below `2 ^ 63` and nothing else. -/
def castDecimals (text : List Char) : Option UInt64 :=
  if text ≠ [] ∧ text.all Char.isDigit ∧ decimalNumber text < 2 ^ 63 then some (UInt64.ofNat (decimalNumber text))
  else none

/-- It reads the decimal numbers. -/
theorem castDecimals_readsDecimals : ReadsDecimals castDecimals := by
  intro digits hdecimal _ hrange
  exact if_pos ⟨hdecimal.1, List.all_eq_true.mpr hdecimal.2, hrange⟩

/-- A decoder that reads no object, and what is between the quotes of a text. -/
def quotedTexts : BlockJson where
  object _ := none
  string data := some (unquote (trimSpace data))

/-- It reads the quoted texts. -/
theorem quotedTexts_readsStrings : quotedTexts.ReadsStrings where
  object _ _ _ _ _ _ := rfl
  string _ _ _ hbefore hafter _ := congrArg some (unquote_quoted hbefore hafter)

/-- **A text is read as the grammar says** if and only if it is empty, a word, has the prefix, is a decimal number
below `2 ^ 63` or one that begins with zeros, or is read by `cast.ToUint64` as `2 ^ 63` or more. Any other text is
read as the number `cast.ToUint64` returns, which is 0 for text that is no number. -/
theorem readsGrammar_iff {cast : List Char → Option UInt64} {json : BlockJson} (hcast : ReadsDecimals cast)
    (hjson : json.ReadsStrings) (data : List Char) : ReadsGrammar cast json data ↔
      unquote (trimSpace data) = [] ∨ IsTag (unquote (trimSpace data)) ∨ Prefixed (unquote (trimSpace data)) ∨
        (IsDecimal (unquote (trimSpace data)) ∧
          (LeadingZero (unquote (trimSpace data)) ∨ decimalNumber (unquote (trimSpace data)) < 2 ^ 63)) ∨
        2 ^ 63 ≤ ((cast (unquote (trimSpace data))).getD 0).toNat := by
  constructor
  · intro h
    by_contra hnone
    push Not at hnone
    obtain ⟨hempty, htag, hmarked, hdecimal, hsmall⟩ := hnone
    -- The text is none of the grammar's, so an error is due; but `cast` returned a number that fits.
    have hnot : ∀ n, ¬Denotes (unquote (trimSpace data)) n := fun n hn =>
      absurd (hn.decimal_of htag hmarked).2 (not_lt.mpr (hdecimal (hn.decimal_of htag hmarked).1).2)
    obtain ⟨err, herr⟩ := h.error 0 hnot fun hzero => (hdecimal hzero.1).1 hzero.2
    rw [unmarshalJSON_missingPrefix htag hempty hmarked, assignNumber_ok hsmall] at herr
    cases herr
  · intro h
    refine ⟨fun bn n hn => unmarshalJSON_of_denotes hcast hn bn, ?_, ?_⟩
    · intro bn hnot hzero
      have htag : ¬IsTag (unquote (trimSpace data)) := fun htag =>
        (exists_denotes_of_isTag htag).elim fun n hn => hnot n hn
      by_cases hmarked : Prefixed (unquote (trimSpace data))
      · obtain ⟨x, raw, hx, hinput⟩ := hmarked
        rcases @unmarshalJSON_prefixed cast data x raw hx hinput bn with ⟨hdenotes, -⟩ | herr
        · exact absurd (hinput ▸ hdenotes) (hnot _)
        · exact herr
      by_cases hempty : unquote (trimSpace data) = []
      · exact ⟨_, unmarshalJSON_nil hempty bn⟩
      rcases h with h | h | h | ⟨hdecimal, hcase⟩ | h
      · exact absurd h hempty
      · exact absurd h htag
      · exact absurd h hmarked
      · have hcanonical : ¬LeadingZero (unquote (trimSpace data)) := fun h => hzero ⟨hdecimal, h⟩
        exact absurd (Denotes.decimal hdecimal hcanonical (hcase.resolve_left hcanonical)) (hnot _)
      · rw [unmarshalJSON_missingPrefix htag hempty hmarked]
        exact ⟨_, assignNumber_error (not_lt.mpr h) bn⟩
    · rintro before text after rfl hbefore hafter htext bnh n horHash hn bn
      exact unmarshalJSON_orHash hcast hjson hbefore hafter htext horHash hn bn

/-- A text with the prefix is read as the grammar says. -/
theorem readsGrammar_hex : ReadsGrammar castDecimals quotedTexts "0x1f".toList :=
  (readsGrammar_iff castDecimals_readsDecimals quotedTexts_readsStrings _).mpr
    (Or.inr (Or.inr (Or.inl ⟨'x', ['1', 'f'], Or.inl rfl, by decide⟩)))

/-- **A word that is no number is read as block 0**, where an error is due. -/
theorem word_read_as_block : unmarshalJSON castDecimals "\"abc\"".toList 7 = .ok () 0 ∧
    (∀ n, ¬Denotes (unquote (trimSpace "\"abc\"".toList)) n) ∧
    ¬ReadsGrammar castDecimals quotedTexts "\"abc\"".toList := by
  have hinput : unquote (trimSpace "\"abc\"".toList) = ['a', 'b', 'c'] := by decide
  have hread : unmarshalJSON castDecimals "\"abc\"".toList 7 = .ok () 0 := by
    rw [unmarshalJSON_missingPrefix (by rw [hinput]; unfold IsTag; decide) (by rw [hinput]; decide)
      (by rw [hinput]; rintro ⟨x, raw, -, h⟩; cases h), hinput]
    rfl
  have hnot : ∀ n, ¬Denotes (unquote (trimSpace "\"abc\"".toList)) n := by
    intro n hn
    rw [hinput] at hn
    have hdecimal := (hn.decimal_of (by unfold IsTag; decide) (by rintro ⟨x, raw, -, h⟩; cases h)).1
    exact absurd (hdecimal.2 'a' (by simp)) (by decide)
  refine ⟨hread, hnot, fun h => ?_⟩
  obtain ⟨err, herr⟩ := h.error 7 hnot (by
    rw [hinput]
    rintro ⟨hdecimal, -⟩
    exact absurd (hdecimal.2 'a' (by simp)) (by decide))
  rw [hread] at herr
  cases herr

end Smartdoge.Rpc
