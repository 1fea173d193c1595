import BpCore.Taproot.Hashes

/-!
# Strict encoding of control blocks and leaf scripts

`ControlBlock` and `LeafScript` derive `StrictEncode`/`StrictDecode`: their fields are
written in order, each by its own codec.  `LeafVer` and `InternalPk` have hand-written
codecs that re-validate on decode (`from_consensus_u8`, `XOnlyPublicKey::from_slice`);
`Parity` is a one-byte tag; the Merkle path and the script bytes are length-prefixed
confined collections.  Decoders are state transformers over the unread input.

* per field: `strictDecode` after `strictEncode` returns the value and the rest of the
  input, and everything a decoder accepts is re-encoded as the bytes it consumed;
* `ControlBlock.strictDecode_strictEncode_iff` / `LeafScript.strictDecode_strictEncode_iff` —
  **the round trip holds exactly when the leaf version is valid**;
* `ControlBlock.strictEncode_of_strictDecode` / `LeafScript.strictEncode_of_strictDecode` —
  **every accepted byte string is the encoding of what it decodes to**;
* `strictDecode_eq_ok_iff` — so **the two decoders accept exactly the encodings of values
  with a valid leaf version**;
* `strictDumb_encoding_rejected` — the derived `StrictDumb` leaf version `0x51` encodes
  to a byte string the decoder rejects.

The secp256k1 acceptance test of 32-byte x-only keys is the parameter `xonly`: an
`InternalPk` carries the proof that its key passes it.
-/

namespace BpCore.Taproot

/-! ### Decoders -/

/-- `strict_encoding::DecodeError`, the cases these decoders raise. -/
inductive DecodeError where
  | unexpectedEof
  | dataIntegrityError (message : String)
  | enumTagNotKnown (typeName : String) (tag : UInt8)
  | confinement (len : Nat)
  deriving DecidableEq, Repr

/-- A strict decoder: consumes bytes from the front of the input or fails. -/
abbrev Decoder := StateT (List UInt8) (Except DecodeError)

/-- Reads one byte. -/
def readU8 : Decoder UInt8 := fun
  | [] => .error .unexpectedEof
  | b :: rest => .ok (b, rest)

/-- Reads `n` bytes. -/
def readBytes : Nat → Decoder (List UInt8)
  | 0 => pure []
  | n + 1 => do
    let b ← readU8
    let bs ← readBytes n
    pure (b :: bs)

/-- Reads a `Bytes32`. -/
def readBytes32 : Decoder Bytes32 := do
  let bs ← readBytes 32
  if h : bs.length = 32 then pure ⟨bs, h⟩ else throw .unexpectedEof

/-- One bind lemma for every decoder: a sequenced decoder succeeds exactly when its first
part succeeds and the rest succeeds on what the first part left. -/
theorem bind_run_eq_ok {α β : Type} {x : Decoder α} {f : α → Decoder β} {s s' : List UInt8}
    {b : β} : (x >>= f).run s = .ok (b, s') ↔
      ∃ a s₁, x.run s = .ok (a, s₁) ∧ (f a).run s₁ = .ok (b, s') := by
  simp only [StateT.run_bind]
  cases x.run s with
  | error e => simp [bind, Except.bind]
  | ok p =>
    obtain ⟨a, s₁⟩ := p
    exact ⟨fun h => ⟨a, s₁, rfl, h⟩, fun ⟨_, _, he, h⟩ => by cases he; exact h⟩

theorem bind_run_of_ok {α β : Type} {x : Decoder α} {f : α → Decoder β} {s s₁ : List UInt8}
    {a : α} (h : x.run s = .ok (a, s₁)) : (x >>= f).run s = (f a).run s₁ := by
  simp only [StateT.run_bind, h]
  rfl

theorem pure_run {α : Type} (a : α) (s : List UInt8) :
    (pure a : Decoder α).run s = .ok (a, s) := rfl

theorem throw_run_ne_ok {α : Type} (e : DecodeError) (s s' : List UInt8) (a : α) :
    (throw e : Decoder α).run s ≠ .ok (a, s') := nofun

theorem readU8_run (b : UInt8) (rest : List UInt8) : readU8.run (b :: rest) = .ok (b, rest) := rfl

theorem readU8_run_eq_ok {input rest : List UInt8} {b : UInt8} :
    readU8.run input = .ok (b, rest) ↔ input = b :: rest := by
  cases input with
  | nil => exact ⟨nofun, nofun⟩
  | cons c input => exact ⟨fun h => by cases h; rfl, fun h => by cases h; rfl⟩

theorem readBytes_run (bs rest : List UInt8) :
    (readBytes bs.length).run (bs ++ rest) = .ok (bs, rest) := by
  induction bs with
  | nil => rfl
  | cons b bs ih =>
    simp only [readBytes, List.length_cons, List.cons_append]
    rw [bind_run_of_ok (readU8_run b _), bind_run_of_ok ih]
    rfl

theorem readBytes_inv {n : Nat} {input bs rest : List UInt8}
    (h : (readBytes n).run input = .ok (bs, rest)) : bs.length = n ∧ bs ++ rest = input := by
  induction n generalizing input bs with
  | zero => cases h; exact ⟨rfl, rfl⟩
  | succ n ih =>
    obtain ⟨b, s₁, hb, h⟩ := bind_run_eq_ok.mp h
    obtain ⟨bs', s₂, hbs, h⟩ := bind_run_eq_ok.mp h
    cases h
    obtain ⟨hl, ha⟩ := ih hbs
    obtain rfl := readU8_run_eq_ok.mp hb
    exact ⟨by simp [hl], by simp [ha]⟩

theorem readBytes32_run (b : Bytes32) (rest : List UInt8) :
    readBytes32.run (b.bytes ++ rest) = .ok (b, rest) := by
  rw [readBytes32, bind_run_of_ok (b.length_eq ▸ readBytes_run b.bytes rest)]
  simp only [b.length_eq, dite_true]
  rfl

theorem readBytes32_inv {input rest : List UInt8} {b : Bytes32}
    (h : readBytes32.run input = .ok (b, rest)) : b.bytes ++ rest = input := by
  obtain ⟨bs, s₁, hbs, h⟩ := bind_run_eq_ok.mp h
  obtain ⟨hl, ha⟩ := readBytes_inv hbs
  simp only [hl, dite_true] at h
  cases h
  exact ha

/-! ### Leaf version, future leaf version and parity -/

/-- `StrictEncode for LeafVer`: the consensus byte. -/
def LeafVer.strictEncode (lv : LeafVer) : List UInt8 := [lv.toConsensusU8]

/-- `StrictDecode for LeafVer`: a byte, re-validated by `from_consensus_u8`. -/
def LeafVer.strictDecode : Decoder LeafVer := do
  let version ← readU8
  match LeafVer.fromConsensusU8 version with
  | .ok lv => pure lv
  | .error err => throw (.dataIntegrityError err.toString)

/-- The derived `StrictEncode for FutureLeafVer`: the byte. -/
def FutureLeafVer.strictEncode (f : FutureLeafVer) : List UInt8 := [f.version]

/-- The derived `StrictDecode for FutureLeafVer`: any byte, not validated. -/
def FutureLeafVer.strictDecode : Decoder FutureLeafVer := do
  let version ← readU8
  pure ⟨version⟩

/-- The derived `StrictEncode for Parity` (`tags = repr`): the tag byte. -/
def Parity.strictEncode (p : Parity) : List UInt8 := [p.toConsensusU8]

/-- The derived `StrictDecode for Parity` (`try_from_u8`). -/
def Parity.strictDecode : Decoder Parity := do
  let tag ← readU8
  if tag = 0 then pure .even
  else if tag = 1 then pure .odd
  else throw (.enumTagNotKnown "Parity" tag)

theorem LeafVer.strictDecode_run {lv : LeafVer} (h : lv.Valid) (rest : List UInt8) :
    LeafVer.strictDecode.run (lv.strictEncode ++ rest) = .ok (lv, rest) := by
  rw [LeafVer.strictDecode, LeafVer.strictEncode, List.singleton_append,
    bind_run_of_ok (readU8_run _ _), (fromConsensusU8_toConsensusU8 lv).mpr h]
  rfl

theorem LeafVer.strictDecode_inv {input rest : List UInt8} {lv : LeafVer}
    (h : LeafVer.strictDecode.run input = .ok (lv, rest)) :
    lv.strictEncode ++ rest = input ∧ lv.Valid := by
  obtain ⟨v, s₁, hv, hk⟩ := bind_run_eq_ok.mp h
  obtain rfl := readU8_run_eq_ok.mp hv
  cases hf : LeafVer.fromConsensusU8 v with
  | error e => rw [hf] at hk; cases hk
  | ok lv' =>
    rw [hf] at hk
    cases hk
    obtain ⟨henc, hvalid⟩ := toConsensusU8_of_fromConsensusU8 hf
    exact ⟨by simp [LeafVer.strictEncode, henc], hvalid⟩

theorem Parity.strictDecode_run (p : Parity) (rest : List UInt8) :
    Parity.strictDecode.run (p.strictEncode ++ rest) = .ok (p, rest) := by
  cases p <;> rfl

theorem Parity.strictDecode_inv {input rest : List UInt8} {p : Parity}
    (h : Parity.strictDecode.run input = .ok (p, rest)) : p.strictEncode ++ rest = input := by
  obtain ⟨v, s₁, hv, hk⟩ := bind_run_eq_ok.mp h
  obtain rfl := readU8_run_eq_ok.mp hv
  split_ifs at hk with h0 h1
  · cases hk; simp [Parity.strictEncode, Parity.toConsensusU8, h0]
  · cases hk; simp [Parity.strictEncode, Parity.toConsensusU8, h1]
  · exact absurd hk (throw_run_ne_ok _ _ _ _)

/-! ### Internal key -/

section Keys

variable {xonly : Bytes32 → Bool}

/-- `InternalPk`: an x-only key, with the proof that secp256k1 accepts it. -/
structure InternalPk (xonly : Bytes32 → Bool) where
  key : Bytes32
  valid : xonly key = true

/-- `StrictEncode for InternalPk`: the 32 serialized bytes. -/
def InternalPk.strictEncode (pk : InternalPk xonly) : List UInt8 := pk.key.bytes

/-- `StrictDecode for InternalPk`: 32 bytes, re-validated by `XOnlyPublicKey::from_slice`. -/
def InternalPk.strictDecode : Decoder (InternalPk xonly) := do
  let bytes ← readBytes32
  if h : xonly bytes = true then pure ⟨bytes, h⟩
  else throw (.dataIntegrityError
    ("invalid x-only public key value \x27" ++ String.mk (bytesHex bytes.bytes) ++ "\x27"))

theorem InternalPk.strictDecode_run (pk : InternalPk xonly) (rest : List UInt8) :
    InternalPk.strictDecode.run (pk.strictEncode ++ rest) = .ok (pk, rest) := by
  rw [InternalPk.strictDecode, InternalPk.strictEncode, bind_run_of_ok (readBytes32_run _ _)]
  simp only [pk.valid, dite_true]
  rfl

theorem InternalPk.strictDecode_inv {input rest : List UInt8} {pk : InternalPk xonly}
    (h : InternalPk.strictDecode.run input = .ok (pk, rest)) :
    pk.strictEncode ++ rest = input := by
  obtain ⟨b, s₁, hb, hk⟩ := bind_run_eq_ok.mp h
  split_ifs at hk
  · cases hk; exact readBytes32_inv hb
  · exact absurd hk (throw_run_ne_ok _ _ _ _)

end Keys

/-! ### Merkle path -/

/-- `TapMerklePath`: `Confined<Vec<TapBranchHash>, 0, 128>`. -/
structure TapMerklePath where
  path : List TapBranchHash
  length_le : path.length ≤ 128

/-- The derived `StrictEncode for TapMerklePath`: a one-byte length, then the hashes. -/
def TapMerklePath.strictEncode (p : TapMerklePath) : List UInt8 :=
  UInt8.ofNat p.path.length :: p.path.flatMap (·.inner.bytes)

/-- Reads `n` branch hashes. -/
def readBranchHashes : Nat → Decoder (List TapBranchHash)
  | 0 => pure []
  | n + 1 => do
    let hash ← readBytes32
    let hashes ← readBranchHashes n
    pure (⟨hash⟩ :: hashes)

/-- The derived `StrictDecode for TapMerklePath`: the length, bounded by the confinement,
then the hashes. -/
def TapMerklePath.strictDecode : Decoder TapMerklePath := do
  let len ← readU8
  if len.toNat ≤ 128 then
    let path ← readBranchHashes len.toNat
    if hp : path.length ≤ 128 then pure ⟨path, hp⟩ else throw (.confinement path.length)
  else throw (.confinement len.toNat)

theorem readBranchHashes_run (hs : List TapBranchHash) (rest : List UInt8) :
    (readBranchHashes hs.length).run (hs.flatMap (·.inner.bytes) ++ rest) = .ok (hs, rest) := by
  induction hs with
  | nil => rfl
  | cons h hs ih =>
    simp only [readBranchHashes, List.length_cons, List.flatMap_cons, List.append_assoc]
    rw [bind_run_of_ok (readBytes32_run _ _), bind_run_of_ok ih]
    rfl

theorem readBranchHashes_inv {n : Nat} {input rest : List UInt8} {hs : List TapBranchHash}
    (h : (readBranchHashes n).run input = .ok (hs, rest)) :
    hs.length = n ∧ hs.flatMap (·.inner.bytes) ++ rest = input := by
  induction n generalizing input hs with
  | zero => cases h; exact ⟨rfl, rfl⟩
  | succ n ih =>
    obtain ⟨b, s₁, hb, hk⟩ := bind_run_eq_ok.mp h
    obtain ⟨bs, s₂, hbs, hk⟩ := bind_run_eq_ok.mp hk
    cases hk
    obtain ⟨hl, ha⟩ := ih hbs
    refine ⟨by simp [hl], ?_⟩
    rw [← readBytes32_inv hb, ← ha]
    simp

theorem TapMerklePath.strictDecode_run (p : TapMerklePath) (rest : List UInt8) :
    TapMerklePath.strictDecode.run (p.strictEncode ++ rest) = .ok (p, rest) := by
  have hlen : (UInt8.ofNat p.path.length).toNat = p.path.length :=
    UInt8.toNat_ofNat_of_lt (by have := p.length_le; unfold UInt8.size; omega)
  rw [TapMerklePath.strictDecode, TapMerklePath.strictEncode, List.cons_append,
    bind_run_of_ok (readU8_run _ _)]
  simp only [hlen, p.length_le, if_true]
  rw [bind_run_of_ok (readBranchHashes_run _ _)]
  simp only [p.length_le, dite_true]
  rfl

theorem TapMerklePath.strictDecode_inv {input rest : List UInt8} {p : TapMerklePath}
    (h : TapMerklePath.strictDecode.run input = .ok (p, rest)) :
    p.strictEncode ++ rest = input := by
  obtain ⟨len, s₁, hl, hk⟩ := bind_run_eq_ok.mp h
  obtain rfl := readU8_run_eq_ok.mp hl
  split_ifs at hk with h128
  · obtain ⟨hs, s₂, hhs, hk⟩ := bind_run_eq_ok.mp hk
    split_ifs at hk
    · cases hk
      obtain ⟨hn, ha⟩ := readBranchHashes_inv hhs
      simp only [TapMerklePath.strictEncode, hn, List.cons_append, ha, List.cons.injEq,
        and_true]
      exact UInt8.toNat.inj (UInt8.toNat_ofNat_of_lt (len.toNat_lt_size))
    · exact absurd hk (throw_run_ne_ok _ _ _ _)
  · exact absurd hk (throw_run_ne_ok _ _ _ _)

/-! ### Script bytes -/

/-- The derived `StrictEncode for ScriptBytes` (`Confined<Vec<u8>, 0, U32>`): a four-byte
little-endian length, then the bytes. -/
def ScriptBytes.strictEncode (s : ScriptBytes) : List UInt8 :=
  leBytes 4 s.bytes.length ++ s.bytes

/-- The derived `StrictDecode for ScriptBytes`. -/
def ScriptBytes.strictDecode : Decoder ScriptBytes := do
  let len ← readBytes 4
  let bytes ← readBytes (leValue len)
  if h : bytes.length ≤ 0xFFFFFFFF then pure ⟨bytes, h⟩ else throw (.confinement bytes.length)

theorem ScriptBytes.strictDecode_run (s : ScriptBytes) (rest : List UInt8) :
    ScriptBytes.strictDecode.run (s.strictEncode ++ rest) = .ok (s, rest) := by
  have hlen : leValue (leBytes 4 s.bytes.length) = s.bytes.length := by
    rw [leValue_leBytes]; exact Nat.mod_eq_of_lt (by have := s.length_le; omega)
  rw [ScriptBytes.strictDecode, ScriptBytes.strictEncode, List.append_assoc,
    bind_run_of_ok ((length_leBytes 4 _) ▸ readBytes_run (leBytes 4 s.bytes.length) _), hlen,
    bind_run_of_ok (readBytes_run _ _)]
  simp only [s.length_le, dite_true]
  rfl

theorem ScriptBytes.strictDecode_inv {input rest : List UInt8} {s : ScriptBytes}
    (h : ScriptBytes.strictDecode.run input = .ok (s, rest)) : s.strictEncode ++ rest = input := by
  obtain ⟨len, s₁, hl, hk⟩ := bind_run_eq_ok.mp h
  obtain ⟨bs, s₂, hbs, hk⟩ := bind_run_eq_ok.mp hk
  split_ifs at hk
  · cases hk
    obtain ⟨hn, ha⟩ := readBytes_inv hl
    obtain ⟨hm, hb⟩ := readBytes_inv hbs
    rw [ScriptBytes.strictEncode, ← ha, ← hb, hm, ← hn, leBytes_leValue, List.append_assoc]
  · exact absurd hk (throw_run_ne_ok _ _ _ _)

/-! ### Control blocks and leaf scripts -/

section Blocks

variable {xonly : Bytes32 → Bool}

/-- `ControlBlock`. -/
structure ControlBlock (xonly : Bytes32 → Bool) where
  leafVersion : LeafVer
  outputKeyParity : Parity
  internalKey : InternalPk xonly
  merkleBranch : TapMerklePath

/-- The derived `StrictEncode for ControlBlock`: the fields in order. -/
def ControlBlock.strictEncode (cb : ControlBlock xonly) : List UInt8 :=
  cb.leafVersion.strictEncode ++ cb.outputKeyParity.strictEncode ++
    cb.internalKey.strictEncode ++ cb.merkleBranch.strictEncode

/-- The derived `StrictDecode for ControlBlock`. -/
def ControlBlock.strictDecode : Decoder (ControlBlock xonly) := do
  let leafVersion ← LeafVer.strictDecode
  let outputKeyParity ← Parity.strictDecode
  let internalKey ← InternalPk.strictDecode
  let merkleBranch ← TapMerklePath.strictDecode
  pure { leafVersion, outputKeyParity, internalKey, merkleBranch }

/-- The derived `StrictEncode for LeafScript`. -/
def LeafScript.strictEncode (ls : LeafScript) : List UInt8 :=
  ls.version.strictEncode ++ ls.script.strictEncode

/-- The derived `StrictDecode for LeafScript`. -/
def LeafScript.strictDecode : Decoder LeafScript := do
  let version ← LeafVer.strictDecode
  let script ← ScriptBytes.strictDecode
  pure { version, script }

/-- Every byte string the control-block decoder accepts is the encoding of what it decodes
to, and the decoded leaf version is valid. -/
theorem ControlBlock.strictEncode_of_strictDecode {input rest : List UInt8}
    {cb : ControlBlock xonly} (h : ControlBlock.strictDecode.run input = .ok (cb, rest)) :
    cb.strictEncode ++ rest = input ∧ cb.leafVersion.Valid := by
  obtain ⟨lv, s₁, h₁, hk⟩ := bind_run_eq_ok.mp h
  obtain ⟨p, s₂, h₂, hk⟩ := bind_run_eq_ok.mp hk
  obtain ⟨k, s₃, h₃, hk⟩ := bind_run_eq_ok.mp hk
  obtain ⟨m, s₄, h₄, hk⟩ := bind_run_eq_ok.mp hk
  cases hk
  obtain ⟨e₁, hv⟩ := LeafVer.strictDecode_inv h₁
  refine ⟨?_, hv⟩
  rw [← e₁, ← Parity.strictDecode_inv h₂, ← InternalPk.strictDecode_inv h₃,
    ← TapMerklePath.strictDecode_inv h₄]
  simp [ControlBlock.strictEncode]

/-- **A control block survives `strict_decode ∘ strict_encode` exactly when its leaf version
is valid.** -/
theorem ControlBlock.strictDecode_strictEncode_iff (cb : ControlBlock xonly) (rest : List UInt8) :
    ControlBlock.strictDecode.run (cb.strictEncode ++ rest) = .ok (cb, rest) ↔
      cb.leafVersion.Valid := by
  refine ⟨fun h => (ControlBlock.strictEncode_of_strictDecode h).2, fun hv => ?_⟩
  simp only [ControlBlock.strictEncode, List.append_assoc]
  rw [ControlBlock.strictDecode, bind_run_of_ok (LeafVer.strictDecode_run hv _),
    bind_run_of_ok (Parity.strictDecode_run _ _), bind_run_of_ok (InternalPk.strictDecode_run _ _),
    bind_run_of_ok (TapMerklePath.strictDecode_run _ _)]
  rfl

/-- Every byte string the leaf-script decoder accepts is the encoding of what it decodes
to, and the decoded leaf version is valid. -/
theorem LeafScript.strictEncode_of_strictDecode {input rest : List UInt8} {ls : LeafScript}
    (h : LeafScript.strictDecode.run input = .ok (ls, rest)) :
    ls.strictEncode ++ rest = input ∧ ls.version.Valid := by
  obtain ⟨lv, s₁, h₁, hk⟩ := bind_run_eq_ok.mp h
  obtain ⟨sb, s₂, h₂, hk⟩ := bind_run_eq_ok.mp hk
  cases hk
  obtain ⟨e₁, hv⟩ := LeafVer.strictDecode_inv h₁
  refine ⟨?_, hv⟩
  rw [← e₁, ← ScriptBytes.strictDecode_inv h₂]
  simp [LeafScript.strictEncode]

/-- **A leaf script survives `strict_decode ∘ strict_encode` exactly when its leaf version is
valid.** -/
theorem LeafScript.strictDecode_strictEncode_iff (ls : LeafScript) (rest : List UInt8) :
    LeafScript.strictDecode.run (ls.strictEncode ++ rest) = .ok (ls, rest) ↔ ls.version.Valid := by
  refine ⟨fun h => (LeafScript.strictEncode_of_strictDecode h).2, fun hv => ?_⟩
  rw [LeafScript.strictEncode, List.append_assoc, LeafScript.strictDecode,
    bind_run_of_ok (LeafVer.strictDecode_run hv _),
    bind_run_of_ok (ScriptBytes.strictDecode_run _ _)]
  rfl

/-- **The control-block and leaf-script decoders accept exactly the encodings of the values
whose leaf version is valid**: what they read is the encoding of what they return, followed
by the rest of the input, and every such encoding is read back. -/
theorem strictDecode_eq_ok_iff (input rest : List UInt8) :
    (∀ cb : ControlBlock xonly, ControlBlock.strictDecode.run input = .ok (cb, rest) ↔
      input = cb.strictEncode ++ rest ∧ cb.leafVersion.Valid) ∧
    ∀ ls : LeafScript, LeafScript.strictDecode.run input = .ok (ls, rest) ↔
      input = ls.strictEncode ++ rest ∧ ls.version.Valid := by
  refine ⟨fun cb => ⟨fun h => ?_, ?_⟩, fun ls => ⟨fun h => ?_, ?_⟩⟩
  · exact (ControlBlock.strictEncode_of_strictDecode h).imp_left Eq.symm
  · rintro ⟨rfl, hv⟩
    exact (ControlBlock.strictDecode_strictEncode_iff cb rest).mpr hv
  · exact (LeafScript.strictEncode_of_strictDecode h).imp_left Eq.symm
  · rintro ⟨rfl, hv⟩
    exact (LeafScript.strictDecode_strictEncode_iff ls rest).mpr hv

theorem LeafVer.strictDecode_strictDumb (rest : List UInt8) :
    LeafVer.strictDecode.run ((LeafVer.future FutureLeafVer.strictDumb).strictEncode ++ rest) =
      .error (.dataIntegrityError "invalid taproot leaf version 81.") := rfl

/-- The derived dumb leaf version `Future(FutureLeafVer(0x51))` encodes, but its control
block and its leaf script do not decode: `from_consensus_u8` rejects the odd byte. -/
theorem strictDumb_encoding_rejected (p : Parity) (k : InternalPk xonly) (m : TapMerklePath)
    (s : ScriptBytes) :
    (ControlBlock.strictDecode : Decoder (ControlBlock xonly)).run
        (ControlBlock.strictEncode ⟨.future FutureLeafVer.strictDumb, p, k, m⟩) =
      .error (.dataIntegrityError "invalid taproot leaf version 81.") ∧
    LeafScript.strictDecode.run (LeafScript.strictEncode ⟨.future FutureLeafVer.strictDumb, s⟩) =
      .error (.dataIntegrityError "invalid taproot leaf version 81.") := by
  simp only [ControlBlock.strictEncode, LeafScript.strictEncode, ControlBlock.strictDecode,
    LeafScript.strictDecode, List.append_assoc, StateT.run_bind, LeafVer.strictDecode_strictDumb]
  exact ⟨rfl, rfl⟩

end Blocks

end BpCore.Taproot
