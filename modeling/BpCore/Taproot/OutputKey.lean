import BpCore.Taproot.StrictCodec

/-!
# The Taproot output key and its script

`InternalPk::to_output_key` feeds the `TapTweak` engine the 32 bytes of the internal key and,
for a key with a script tree, the 32 bytes of the Merkle root; the tweak it finishes is added
to the key on the curve, which gives an x-only key again.  `ScriptPubkey::p2tr` writes that
output key as a witness v1 program, and `is_p2tr` recognises such programs.  The curve
addition is a parameter, like the SHA-256 compression.

* `toOutputKeyEngine_eq_iff` — **`to_output_key` tweaks with the TapTweak engine, and distinct
  keys or Merkle roots, a missing root included, feed it distinct bytes**: a key-only output
  never shares its tweak input with a scripted one;
* `isP2tr_iff`, `isP2tr_p2tr` — `is_p2tr` recognises exactly `OP_1 OP_PUSHBYTES_32` and 32
  bytes, so every script `p2tr` writes.
-/

namespace BpCore.Taproot

/-- `MIDSTATE_TAPTWEAK`: the tag `b"TapTweak"`. -/
def midstateTaptweak : List UInt8 := [0x54, 0x61, 0x70, 0x54, 0x77, 0x65, 0x61, 0x6b]

variable {xonly : Bytes32 → Bool}

/-- `secp256k1::XOnlyPublicKey`: 32 bytes that secp256k1 accepts as an x-only key. -/
structure XOnlyPublicKey (xonly : Bytes32 → Bool) where
  key : Bytes32
  valid : xonly key = true

/-! ### The output key -/

/-- The `TapTweak` engine of `InternalPk::to_output_key`: the serialised key, then the Merkle
root if there is one. -/
def InternalPk.toOutputKeyEngine (pk : InternalPk xonly) (merkleRoot : Option TapNodeHash) :
    Sha256 :=
  let engine := (Sha256.fromTag midstateTaptweak).inputRaw pk.key.bytes
  match merkleRoot with
  | some merkleRoot => engine.inputRaw merkleRoot.inner.bytes
  | none => engine

/-- `InternalPk::to_output_key`, with the SHA-256 compression `sha256` and secp256k1's
x-only `add_tweak` (the tweaked key; the parity it also returns is dropped, as the code drops
it) as parameters.  Its two `expect`s (a tweak at or above the curve order, a tweak that
cancels the key) are the cryptographic failures the spec keeps out of the model (§7,
class 4). -/
def InternalPk.toOutputKey (sha256 : List UInt8 → Bytes32)
    (addTweak : XOnlyPublicKey xonly → Bytes32 → XOnlyPublicKey xonly)
    (pk : InternalPk xonly) (merkleRoot : Option TapNodeHash) : XOnlyPublicKey xonly :=
  addTweak ⟨pk.key, pk.valid⟩ ((pk.toOutputKeyEngine merkleRoot).finish sha256)

theorem toOutputKeyEngine_fed (pk : InternalPk xonly) (merkleRoot : Option TapNodeHash) :
    pk.toOutputKeyEngine merkleRoot =
      { tag := midstateTaptweak,
        fed := pk.key.bytes ++ (merkleRoot.map fun root => root.inner.bytes).getD [] } := by
  cases merkleRoot <;> simp [InternalPk.toOutputKeyEngine, Sha256.inputRaw, Sha256.fromTag]

/-- **Distinct tweak inputs**: `to_output_key` adds the tweak the TapTweak engine finishes,
and that engine determines the internal key and the Merkle root, and whether there is one. -/
theorem toOutputKeyEngine_eq_iff (pk₁ pk₂ : InternalPk xonly) (r₁ r₂ : Option TapNodeHash) :
    (∀ sha256 addTweak, pk₁.toOutputKey sha256 addTweak r₁ =
      addTweak ⟨pk₁.key, pk₁.valid⟩ ((pk₁.toOutputKeyEngine r₁).finish sha256)) ∧
    (pk₁.toOutputKeyEngine r₁ = pk₂.toOutputKeyEngine r₂ ↔ pk₁ = pk₂ ∧ r₁ = r₂) := by
  refine ⟨fun _ _ => rfl, fun h => ?_, by rintro ⟨rfl, rfl⟩; rfl⟩
  obtain ⟨⟨k₁, hk₁⟩, v₁⟩ := pk₁
  obtain ⟨⟨k₂, hk₂⟩, v₂⟩ := pk₂
  rw [toOutputKeyEngine_fed, toOutputKeyEngine_fed, Sha256.mk.injEq] at h
  obtain ⟨rfl, hrest⟩ := List.append_inj h.2 (hk₁.trans hk₂.symm)
  refine ⟨rfl, ?_⟩
  rcases r₁ with _ | ⟨⟨b₁, hb₁⟩⟩ <;> rcases r₂ with _ | ⟨⟨b₂, hb₂⟩⟩
  · rfl
  · simp only [Option.map_none', Option.getD_none, Option.map_some', Option.getD_some] at hrest
    exact absurd (congrArg List.length hrest) (by simp [hb₂])
  · simp only [Option.map_none', Option.getD_none, Option.map_some', Option.getD_some] at hrest
    exact absurd (congrArg List.length hrest) (by simp [hb₁])
  · simp only [Option.map_some', Option.getD_some] at hrest
    subst hrest
    rfl

/-! ### The output script -/

/-- Modelled from the spec: `ScriptPubkey::p2tr_tweaked` (through
`with_witness_program_unchecked`, absent from the sources), the 34-byte witness v1 program
`OP_1 OP_PUSHBYTES_32 <output key>` (§4.B, §6). -/
def p2trTweaked (outputKey : XOnlyPublicKey xonly) : List UInt8 :=
  0x51 :: 0x20 :: outputKey.key.bytes

/-- `ScriptPubkey::p2tr`. -/
def p2tr (sha256 : List UInt8 → Bytes32)
    (addTweak : XOnlyPublicKey xonly → Bytes32 → XOnlyPublicKey xonly)
    (internalKey : InternalPk xonly) (merkleRoot : Option TapNodeHash) : List UInt8 :=
  p2trTweaked (internalKey.toOutputKey sha256 addTweak merkleRoot)

/-- `ScriptPubkey::p2tr_key_only`. -/
def p2trKeyOnly (sha256 : List UInt8 → Bytes32)
    (addTweak : XOnlyPublicKey xonly → Bytes32 → XOnlyPublicKey xonly)
    (internalKey : InternalPk xonly) : List UInt8 :=
  p2trTweaked (internalKey.toOutputKey sha256 addTweak none)

/-- `ScriptPubkey::p2tr_scripted`. -/
def p2trScripted (sha256 : List UInt8 → Bytes32)
    (addTweak : XOnlyPublicKey xonly → Bytes32 → XOnlyPublicKey xonly)
    (internalKey : InternalPk xonly) (merkleRoot : TapNodeHash) : List UInt8 :=
  p2trTweaked (internalKey.toOutputKey sha256 addTweak (some merkleRoot))

/-- `ScriptPubkey::is_p2tr`: 34 bytes, `OP_1`, then `OP_PUSHBYTES_32`. -/
def isP2tr (s : List UInt8) : Bool :=
  s.length == 34 && s[0]? == some 0x51 && s[1]? == some 0x20

/-- **`is_p2tr` recognises exactly `OP_1 OP_PUSHBYTES_32` and 32 bytes**, whatever the bytes:
it does not ask them to be an x-only key. -/
theorem isP2tr_iff (s : List UInt8) :
    isP2tr s = true ↔ ∃ key : Bytes32, s = 0x51 :: 0x20 :: key.bytes := by
  constructor
  · intro h
    match s, h with
    | a :: b :: rest, h =>
      simp only [isP2tr, List.length_cons, Bool.and_eq_true, beq_iff_eq,
        List.getElem?_cons_zero, List.getElem?_cons_succ, Option.some.injEq] at h
      obtain ⟨⟨hlen, rfl⟩, rfl⟩ := h
      exact ⟨⟨rest, by omega⟩, rfl⟩
  · rintro ⟨⟨bytes, hlen⟩, rfl⟩
    simp [isP2tr, hlen]

/-- Every script `p2tr` writes is a P2TR script. -/
theorem isP2tr_p2tr (sha256 : List UInt8 → Bytes32)
    (addTweak : XOnlyPublicKey xonly → Bytes32 → XOnlyPublicKey xonly)
    (internalKey : InternalPk xonly) (merkleRoot : Option TapNodeHash) :
    isP2tr (p2tr sha256 addTweak internalKey merkleRoot) = true :=
  (isP2tr_iff _).mpr ⟨_, rfl⟩

end BpCore.Taproot
