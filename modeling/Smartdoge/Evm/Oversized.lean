import Smartdoge.Evm.Encoding

/-!
# Oversized integers

RLP decoding puts no bound on the integers of a transaction, while those of the SDK have at most 256 bits.
`FromEthereumTx` checks the value and the prices before it converts them. The chain id of the two types that have
one is converted in `SetSignatureValues`, which has no error to return.

* `newTxDataFromTx_rejected`, `newTxDataFromTx_panics`, `newTxDataFromTx_accepted`: the three ways in which it
  can end.
* **`fromEthereumTx_rejects_iff`**: oversized transactions are rejected, except for those of which only the chain
  id is oversized.
-/

set_option linter.unusedSectionVars false

namespace Smartdoge.Evm

/-- An integer that the SDK can hold. -/
def FitsSdk (x : ℤ) : Prop := x.natAbs < 2 ^ 256

instance (x : ℤ) : Decidable (FitsSdk x) := inferInstanceAs (Decidable (_ < _))

/-! ## The checked conversion -/

/-- A number that is too large is out of bound for the checked conversion. -/
theorem safeNewIntFromBigInt_error {x : ℤ} (h : ¬FitsSdk x) :
    safeNewIntFromBigInt x = .error (.outOfBound x) := by
  have hinvalid : ¬isValidInt256 x = true := fun hvalid => h (of_decide_eq_true hvalid)
  unfold safeNewIntFromBigInt
  rw [if_neg hinvalid]

/-- A conversion that returned the error of a check. -/
def Rejected {α : Type} (result : Except EncodeError α) : Prop := ∃ x, result = .error (.outOfBound x)

/-- What is done with a result does not matter to its rejection. -/
theorem Rejected.map {α β : Type} {f : α → β} {result : Except EncodeError α} (h : Rejected result) :
    Rejected (f <$> result) := by
  obtain ⟨x, rfl⟩ := h
  exact ⟨x, rfl⟩

/-- A check fails, or what comes after it decides. -/
theorem Rejected.of_check {α : Type} {x : ℤ} {f : SdkInt → Except EncodeError α}
    (h : ∀ hx : FitsSdk x, Rejected (f ⟨x, hx⟩)) : Rejected (safeNewIntFromBigInt x >>= f) := by
  by_cases hx : FitsSdk x
  · rw [safeNewIntFromBigInt_ok hx]
    exact h hx
  · rw [safeNewIntFromBigInt_error hx]
    exact ⟨x, rfl⟩

/-- The unchecked conversion panics on it. -/
theorem newIntFromBigInt_error {x : ℤ} (h : ¬FitsSdk x) : newIntFromBigInt x = .error .newIntFromBigInt :=
  dif_neg h

namespace Transaction

/-- The integers that are converted with a check, in the order of the checks. -/
def checkedInts : Transaction → List ℤ
  | .legacy tx => [tx.value, tx.gasPrice]
  | .accessList tx => [tx.value, tx.gasPrice]
  | .dynamicFee tx => [tx.value, tx.gasFeeCap, tx.gasTipCap]

/-- The chain id, where it is converted. -/
def convertedChainID : Transaction → Option ℤ
  | .legacy _ => none
  | .accessList tx => some tx.chainID
  | .dynamicFee tx => some tx.chainID

/-- All integers that are converted. -/
def convertedInts (t : Transaction) : List ℤ := t.checkedInts ++ t.convertedChainID.toList

end Transaction

section encoding

variable [Keccak] {t : Transaction}

/-! ## How the conversion ends -/

/-- An oversized integer that is checked is reported. -/
theorem newTxDataFromTx_rejected (h : ¬∀ x ∈ t.checkedInts, FitsSdk x) :
    Rejected (newTxDataFromTx t) := by
  -- Were all checks passed, there would be nothing oversized.
  cases t with
  | legacy tx =>
      apply Rejected.map
      apply Rejected.of_check
      intro hvalue
      apply Rejected.of_check
      intro hprice
      exact absurd (by simp [Transaction.checkedInts, hvalue, hprice]) h
  | accessList tx =>
      apply Rejected.map
      apply Rejected.of_check
      intro hvalue
      apply Rejected.of_check
      intro hprice
      exact absurd (by simp [Transaction.checkedInts, hvalue, hprice]) h
  | dynamicFee tx =>
      apply Rejected.map
      apply Rejected.of_check
      intro hvalue
      apply Rejected.of_check
      intro hcap
      apply Rejected.of_check
      intro htip
      exact absurd (by simp [Transaction.checkedInts, hvalue, hcap, htip]) h

/-- An oversized chain id panics, once the checks have passed. -/
theorem newTxDataFromTx_panics (hchecked : ∀ x ∈ t.checkedInts, FitsSdk x) {chainID : ℤ}
    (hchain : t.convertedChainID = some chainID) (hlarge : ¬FitsSdk chainID) :
    newTxDataFromTx t = .error .newIntFromBigInt := by
  cases t with
  | legacy tx => simp [Transaction.convertedChainID] at hchain
  | accessList tx =>
      obtain rfl := Option.some.inj hchain
      simp only [Transaction.checkedInts, List.forall_mem_cons] at hchecked
      obtain ⟨hvalue, hprice, -⟩ := hchecked
      simp only [newTxDataFromTx, newAccessListTx]
      rw [safeNewIntFromBigInt_ok hvalue, safeNewIntFromBigInt_ok hprice]
      show ProtoTxData.accessList <$> (newIntFromBigInt tx.chainID >>= _) = _
      rw [newIntFromBigInt_error hlarge]
      rfl
  | dynamicFee tx =>
      obtain rfl := Option.some.inj hchain
      simp only [Transaction.checkedInts, List.forall_mem_cons] at hchecked
      obtain ⟨hvalue, hcap, htip, -⟩ := hchecked
      simp only [newTxDataFromTx, newDynamicFeeTx]
      rw [safeNewIntFromBigInt_ok hvalue, safeNewIntFromBigInt_ok hcap, safeNewIntFromBigInt_ok htip]
      show ProtoTxData.dynamicFee <$> (newIntFromBigInt tx.chainID >>= _) = _
      rw [newIntFromBigInt_error hlarge]
      rfl

/-- A transaction whose integers all fit is converted. -/
theorem newTxDataFromTx_accepted (hchecked : ∀ x ∈ t.checkedInts, FitsSdk x)
    (hchain : ∀ x, t.convertedChainID = some x → FitsSdk x) : ∃ d, newTxDataFromTx t = .ok d := by
  cases t with
  | legacy tx =>
      simp only [Transaction.checkedInts, List.forall_mem_cons] at hchecked
      obtain ⟨hvalue, hprice, -⟩ := hchecked
      exact ⟨_, congrArg (ProtoTxData.legacy <$> ·) (newLegacyTx_ok hprice hvalue)⟩
  | accessList tx =>
      simp only [Transaction.checkedInts, List.forall_mem_cons] at hchecked
      obtain ⟨hvalue, hprice, -⟩ := hchecked
      exact ⟨_, congrArg (ProtoTxData.accessList <$> ·) (newAccessListTx_ok (hchain _ rfl) hprice hvalue)⟩
  | dynamicFee tx =>
      simp only [Transaction.checkedInts, List.forall_mem_cons] at hchecked
      obtain ⟨hvalue, hcap, htip, -⟩ := hchecked
      exact ⟨_, congrArg (ProtoTxData.dynamicFee <$> ·) (newDynamicFeeTx_ok (hchain _ rfl) htip hcap hvalue)⟩

/-! ## Rejection -/

/-- A message is rejected with the error of its data. -/
theorem fromEthereumTx_error (hashing : TxHashing) {err : EncodeError} :
    fromEthereumTx hashing t = .error err ↔ newTxDataFromTx t = .error err := by
  unfold fromEthereumTx
  cases newTxDataFromTx t with
  | ok d => exact iff_of_false (by rintro ⟨⟩) (by rintro ⟨⟩)
  | error e =>
      show (Except.error e : Except EncodeError EncodedMsg) = .error err ↔ _
      simp

/-- The transaction is converted or an error is returned; the latter if an integer is oversized that is converted. -/
def RejectsOversized (hashing : TxHashing) (t : Transaction) : Prop :=
  ((∃ msg, fromEthereumTx hashing t = .ok msg) ∨ ∃ x, fromEthereumTx hashing t = .error (.outOfBound x)) ∧
    ((∃ x ∈ t.convertedInts, ¬FitsSdk x) → ∃ x, fromEthereumTx hashing t = .error (.outOfBound x))

/-- **Oversized transactions are rejected**, if and only if the value or a price is oversized, or the chain id is
not. This is for every transaction; a legacy transaction has no chain id to convert. -/
theorem fromEthereumTx_rejects_iff (hashing : TxHashing) (t : Transaction) :
    RejectsOversized hashing t ↔
      (∃ x ∈ t.checkedInts, ¬FitsSdk x) ∨ ∀ x, t.convertedChainID = some x → FitsSdk x := by
  by_cases hchecked : ∀ x ∈ t.checkedInts, FitsSdk x
  · by_cases hchain : ∀ x, t.convertedChainID = some x → FitsSdk x
    · refine iff_of_true ⟨Or.inl ?_, ?_⟩ (Or.inr hchain)
      · obtain ⟨d, hd⟩ := newTxDataFromTx_accepted hchecked hchain
        unfold fromEthereumTx
        rw [hd]
        exact ⟨_, rfl⟩
      · rintro ⟨x, hx, hlarge⟩
        rcases List.mem_append.mp hx with hx | hx
        · exact absurd (hchecked x hx) hlarge
        · exact absurd (hchain x (Option.mem_toList.mp hx)) hlarge
    · have hnone : ¬∃ x ∈ t.checkedInts, ¬FitsSdk x := by
        rintro ⟨x, hx, hlarge⟩
        exact hlarge (hchecked x hx)
      refine iff_of_false ?_ (not_or.mpr ⟨hnone, hchain⟩)
      push Not at hchain
      obtain ⟨chainID, hsome, hlarge⟩ := hchain
      have hpanic := (fromEthereumTx_error hashing).mpr (newTxDataFromTx_panics hchecked hsome hlarge)
      rintro ⟨⟨msg, hmsg⟩ | ⟨x, hx⟩, -⟩
      · rw [hpanic] at hmsg
        cases hmsg
      · rw [hpanic] at hx
        cases hx
  · obtain ⟨x, hx⟩ := newTxDataFromTx_rejected hchecked
    have herror := (fromEthereumTx_error hashing).mpr hx
    refine iff_of_true ⟨Or.inr ⟨x, herror⟩, fun _ => ⟨x, herror⟩⟩ (Or.inl ?_)
    push Not at hchecked
    exact hchecked

end encoding

/-- An unsigned access-list transaction with a chain id of 257 bits, as it can come out of RLP decoding. -/
theorem fromEthereumTx_chainID_panics :
    letI := sampleKeccak
    let t : Transaction := .accessList
      { chainID := 2 ^ 256, nonce := 0, gasPrice := 1, gas := 21000, toAddr := none, value := 0, data := [],
        accessList := some [], v := 0, r := 0, s := 0 }
    fromEthereumTx sampleHashing t = .error .newIntFromBigInt ∧ ¬RejectsOversized sampleHashing t := by
  let _ := sampleKeccak
  intro t
  have hpanic : newTxDataFromTx t = .error .newIntFromBigInt := by
    refine newTxDataFromTx_panics ?_ rfl ?_
    · decide
    · decide
  have hresult := (fromEthereumTx_error sampleHashing).mpr hpanic
  refine ⟨hresult, ?_⟩
  rintro ⟨⟨msg, hmsg⟩ | ⟨x, hx⟩, -⟩
  · rw [hresult] at hmsg
    cases hmsg
  · rw [hresult] at hx
    cases hx

end Smartdoge.Evm
