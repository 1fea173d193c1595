import Mathlib.Data.List.Basic
import Mathlib.Algebra.Group.Nat.Basic

/-!
# Byte strings and the tagged SHA-256 engine

Every hash the commitment code of `bp-core` computes has the same shape: a
`commit_verify::Sha256` engine is created with `Sha256::from_tag`, fed bytes with
`input_raw` (or `input`, `input_with_len`) and closed with `finish()`.  What the code
decides is *which bytes* reach the engine, so the engine is modelled as its tag and the
byte string fed so far, and the SHA-256 compression is a parameter of `finish`.  Two
engines with equal state give equal hashes under every digest; every hash property of
this development is stated on engine states.

* `Bytes32` — `amplify::Bytes32`, exactly 32 bytes;
* `leBytes` / `leValue` — `to_le_bytes` of a fixed-width unsigned integer and the value it
  encodes, with `leValue_leBytes` and `leBytes_inj`;
* `Sha256` — the engine state with `fromTag`, `inputRaw`, `inputWithLen` and `finish`.

`input_with_len` belongs to `commit_verify`, which is absent from the sources: the length
prefix it writes is a parameter of `inputWithLen`, a function of the bound `MAX` the call site
passes and of the length.
-/

namespace BpCore

/-! ### Fixed-size byte arrays and little-endian integers -/

/-- `amplify::Bytes32`: a byte array of exactly 32 bytes. -/
structure Bytes32 where
  bytes : List UInt8
  length_eq : bytes.length = 32
  deriving DecidableEq

theorem Bytes32.ext_bytes {a b : Bytes32} (h : a.bytes = b.bytes) : a = b := by
  cases a; cases b; cases h; rfl

/-- `to_le_bytes` of an unsigned integer `n` that is `w` bytes wide. -/
def leBytes : Nat → Nat → List UInt8
  | 0, _ => []
  | w + 1, n => UInt8.ofNat (n % 256) :: leBytes w (n / 256)

/-- The number a little-endian byte string encodes. -/
def leValue : List UInt8 → Nat
  | [] => 0
  | b :: bs => b.toNat + 256 * leValue bs

@[simp] theorem length_leBytes (w n : Nat) : (leBytes w n).length = w := by
  induction w generalizing n with
  | zero => rfl
  | succ w ih => simp [leBytes, ih]

theorem toNat_ofNat_mod_256 (n : Nat) : (UInt8.ofNat (n % 256)).toNat = n % 256 :=
  UInt8.toNat_ofNat_of_lt (Nat.mod_lt _ (by decide))

/-- Reading `to_le_bytes` back gives the integer modulo the width. -/
theorem leValue_leBytes (w n : Nat) : leValue (leBytes w n) = n % 256 ^ w := by
  induction w generalizing n with
  | zero => simp [leBytes, leValue, Nat.mod_one]
  | succ w ih =>
    rw [leBytes, leValue, ih, toNat_ofNat_mod_256, Nat.pow_succ', Nat.mod_mul]

/-- Every byte string is `to_le_bytes` of the value it encodes, at its own width. -/
theorem leBytes_leValue (bs : List UInt8) : leBytes bs.length (leValue bs) = bs := by
  induction bs with
  | nil => rfl
  | cons b bs ih =>
    have hb : b.toNat < 256 := b.toNat_lt_size
    have hmod : (b.toNat + 256 * leValue bs) % 256 = b.toNat := by omega
    have hdiv : (b.toNat + 256 * leValue bs) / 256 = leValue bs := by omega
    simp only [List.length_cons, leBytes, leValue, hmod, hdiv, ih, List.cons.injEq, and_true]
    exact UInt8.toNat.inj (UInt8.toNat_ofNat_of_lt hb)

/-- `to_le_bytes` is injective on the integers that fit its width. -/
theorem leBytes_inj {w n m : Nat} (hn : n < 256 ^ w) (hm : m < 256 ^ w)
    (h : leBytes w n = leBytes w m) : n = m := by
  have := congrArg leValue h
  rwa [leValue_leBytes, leValue_leBytes, Nat.mod_eq_of_lt hn, Nat.mod_eq_of_lt hm] at this

/-- `u32::to_le_bytes`. -/
def u32LeBytes (v : UInt32) : List UInt8 := leBytes 4 v.toNat

/-- `u64::to_le_bytes`. -/
def u64LeBytes (v : UInt64) : List UInt8 := leBytes 8 v.toNat

theorem u32LeBytes_inj {a b : UInt32} (h : u32LeBytes a = u32LeBytes b) : a = b :=
  UInt32.toNat.inj (leBytes_inj a.toNat_lt_size b.toNat_lt_size h)

theorem u64LeBytes_inj {a b : UInt64} (h : u64LeBytes a = u64LeBytes b) : a = b :=
  UInt64.toNat.inj (leBytes_inj a.toNat_lt_size b.toNat_lt_size h)

@[simp] theorem length_u32LeBytes (v : UInt32) : (u32LeBytes v).length = 4 :=
  length_leBytes _ _

@[simp] theorem length_u64LeBytes (v : UInt64) : (u64LeBytes v).length = 8 :=
  length_leBytes _ _

/-- `{:02x}`: the two lowercase hex digits of a byte. -/
def byteHex (b : UInt8) : List Char :=
  [Nat.digitChar (b.toNat / 16), Nat.digitChar (b.toNat % 16)]

/-- `LowerHex` of a byte string: two lowercase hex digits per byte, in order. -/
def bytesHex (bs : List UInt8) : List Char :=
  bs.flatMap byteHex

/-! ### Confined lengths -/

/-- `amplify::confinement::U32`, the largest length a `Confined<_, 0, U32>` collection holds
and the bound the TapLeaf hashes pass to `input_with_len`. -/
def u32 : Nat := 0xFFFFFFFF

/-! ### The engine -/

/-- A `commit_verify::Sha256` engine: the tag it was created from and the bytes fed to it. -/
structure Sha256 where
  tag : List UInt8
  fed : List UInt8
  deriving DecidableEq

namespace Sha256

/-- `Sha256::from_tag`. -/
def fromTag (tag : List UInt8) : Sha256 := ⟨tag, []⟩

/-- `DigestExt::input_raw` (and `Digest::input`): append the bytes. -/
def inputRaw (engine : Sha256) (data : List UInt8) : Sha256 :=
  { engine with fed := engine.fed ++ data }

/-- `DigestExt::input_with_len::<MAX>` (`commit_verify`, absent from the sources): the
length prefix the library writes for the bound `MAX` and the length of the data, given as the
parameter `lenPrefix MAX len`, then the data. -/
def inputWithLen (lenPrefix : Nat → Nat → List UInt8) (max : Nat) (engine : Sha256)
    (data : List UInt8) : Sha256 :=
  engine.inputRaw (lenPrefix max data.length ++ data)

/-- `finish()`: the BIP-340 tagged hash `H(H(tag) ‖ H(tag) ‖ fed)` over the digest `sha256`. -/
def finish (sha256 : List UInt8 → Bytes32) (engine : Sha256) : Bytes32 :=
  sha256 ((sha256 engine.tag).bytes ++ (sha256 engine.tag).bytes ++ engine.fed)

@[simp] theorem fromTag_tag (tag : List UInt8) : (fromTag tag).tag = tag := rfl
@[simp] theorem fromTag_fed (tag : List UInt8) : (fromTag tag).fed = [] := rfl
@[simp] theorem inputRaw_tag (e : Sha256) (d : List UInt8) : (e.inputRaw d).tag = e.tag := rfl
@[simp] theorem inputRaw_fed (e : Sha256) (d : List UInt8) :
    (e.inputRaw d).fed = e.fed ++ d := rfl
@[simp] theorem inputWithLen_tag (lenPrefix : Nat → Nat → List UInt8) (max : Nat) (e : Sha256)
    (d : List UInt8) : (e.inputWithLen lenPrefix max d).tag = e.tag := rfl
@[simp] theorem inputWithLen_fed (lenPrefix : Nat → Nat → List UInt8) (max : Nat) (e : Sha256)
    (d : List UInt8) :
    (e.inputWithLen lenPrefix max d).fed = e.fed ++ (lenPrefix max d.length ++ d) := rfl

theorem ext_iff' {e f : Sha256} : e = f ↔ e.tag = f.tag ∧ e.fed = f.fed := by
  cases e; cases f; simp

end Sha256

end BpCore
