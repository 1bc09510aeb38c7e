import Mathlib.Algebra.Ring.Nat
import Mathlib.Data.List.Sort
import Mathlib.Tactic.Common

/-!
# Byte strings, addresses and hashes

`common.Address` is `[20]byte` and `common.Hash` is `[32]byte`; both are `FixedBytes n`, a byte
string that carries its length. `FixedBytes.ofBytes` is `BytesToAddress` / `BytesToHash`: a longer
input is cropped from the left, a shorter one padded on the left with zeros. The order is
`bytes.Compare`, the lexicographic order of the bytes.

Keccak-256 is code outside this repository, so it is a parameter (`Keccak`); what a result needs
of it (that the codes at hand do not collide) stands as a hypothesis of that result.
-/

namespace Smartdoge

/-- A `[]byte` that is not `nil`. Where Go code distinguishes `nil`, the type is `Option Bytes`. -/
abbrev Bytes := List UInt8

/-- A `[n]byte`. -/
structure FixedBytes (n : ℕ) where
  /-- The bytes, most significant first. -/
  bytes : Bytes
  /-- There are exactly `n` of them. -/
  length_eq : bytes.length = n
deriving DecidableEq

namespace FixedBytes

variable {n : ℕ}

/-- Two values with the same bytes are the same. -/
@[ext] theorem ext {a b : FixedBytes n} (h : a.bytes = b.bytes) : a = b := by
  cases a
  cases b
  simp only [mk.injEq]
  exact h

/-- The zero value of `[n]byte`. -/
def zero (n : ℕ) : FixedBytes n := ⟨List.replicate n 0, List.length_replicate⟩

/-- Crop from the left or pad on the left to `n` bytes.
Source: go-ethereum `common.BytesToHash`, `common.BytesToAddress` -/
def ofBytes (n : ℕ) (b : Bytes) : FixedBytes n where
  bytes := List.replicate (n - b.length) 0 ++ b.drop (b.length - n)
  length_eq := by
    simp only [List.length_append, List.length_replicate, List.length_drop]
    omega

/-- The last `n` bytes of a natural number, big-endian.
Source: go-ethereum `common.BigToHash`, `common.BigToAddress` -/
def ofNat (n : ℕ) (x : ℕ) : FixedBytes n where
  bytes := (List.range n).map fun i => UInt8.ofNat (x / 256 ^ (n - 1 - i))
  length_eq := by simp

/-- A byte string of the right length is taken as it is. -/
theorem ofBytes_of_length {b : Bytes} (h : b.length = n) : (ofBytes n b).bytes = b := by
  simp [ofBytes, h]

/-- A value is read back from its bytes. -/
@[simp] theorem ofBytes_bytes (a : FixedBytes n) : ofBytes n a.bytes = a :=
  ext (ofBytes_of_length a.length_eq)

/-- Of a longer byte string only the last `n` bytes count. -/
theorem ofBytes_append (b : Bytes) (a : FixedBytes n) : ofBytes n (b ++ a.bytes) = a := by
  apply ext
  have hlen : (b ++ a.bytes).length - n = b.length := by simp [a.length_eq]
  simp only [ofBytes, hlen, List.drop_left]
  simp [a.length_eq]

/-- `bytes.Compare(a, b) <= 0`. -/
def le (a b : FixedBytes n) : Prop := a.bytes ≤ b.bytes

instance : DecidableRel (le (n := n)) := fun a b => inferInstanceAs (Decidable (a.bytes ≤ b.bytes))

instance : Std.Total (le (n := n)) := ⟨fun a b => Std.Total.total (r := (· ≤ ·)) a.bytes b.bytes⟩

instance : Std.Antisymm (le (n := n)) :=
  ⟨fun a b h h' => ext (Std.Antisymm.antisymm (r := (· ≤ ·)) a.bytes b.bytes h h')⟩

instance : IsTrans (FixedBytes n) (le (n := n)) :=
  ⟨fun a b c => IsTrans.trans (r := (· ≤ ·)) a.bytes b.bytes c.bytes⟩

end FixedBytes

/-- `common.Address`; also the bytes of an `sdk.AccAddress`. -/
abbrev Address := FixedBytes 20

/-- `common.Hash`. -/
abbrev Hash := FixedBytes 32

/-- `common.BytesToHash`. -/
abbrev bytesToHash : Bytes → Hash := FixedBytes.ofBytes 32

/-- A hash is not empty, so that setting a slot to one never deletes it. -/
theorem hash_bytes_ne_nil (h : Hash) : h.bytes ≠ [] := by
  intro hnil
  have hlength := h.length_eq
  rw [hnil] at hlength
  exact absurd hlength (by decide)

/-- Keccak-256, as `go-ethereum/crypto` computes it. -/
class Keccak where
  /-- `crypto.Keccak256Hash`. -/
  keccak256 : Bytes → Hash

export Keccak (keccak256)

/-- The hash of the empty code.
Source: `state_object.go` `emptyCodeHash`, `types/utils.go` `EmptyCodeHash` -/
def emptyCodeHash [Keccak] : Hash := keccak256 []

/-- Keccak-256 on the codes that the concrete runs of this development use, at its real values
there, and zero elsewhere. -/
@[reducible] def sampleKeccak : Keccak where
  keccak256 code :=
    if code = [] then
      .ofNat 32 0xc5d2460186f7233c927e7db2dcc703c0e500b653ca82273b7bfad8045d85a470
    else if code = [0] then
      .ofNat 32 0xbc36789e7a1e281436464229828f817d6612f7b477d66591ff96a9e064bcc98a
    else if code = [1] then
      .ofNat 32 0x5fe7f977e71dba2ea1a68e21057beebb9be2ac30c6410aa38d4f3fbe41dcffd2
    else .zero 32

end Smartdoge
