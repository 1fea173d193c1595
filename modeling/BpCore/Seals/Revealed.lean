import BpCore.Engine

/-!
# Revealed and concealed transaction-output seals

The seal data of `seals/src/txout/blind.rs`: a `RevealedSeal` names a close method, an
optional txid, an output number and a 64-bit blinding factor; `ConcealedSeal::commit`
hashes it under the `CommitConcealedSeal` tag.  The encoding fed to the engine is

  `method_byte ‖ txid_or_zeros_32 ‖ vout_le_u32 ‖ blinding_le_u64`,

fixed-width field by field, so it determines every field, with one exception built into
`unwrap_or_else(|| Txid::from([0u8; 32]))`: a missing txid and the all-zero txid are
written alike.

* `commitEngine_eq_iff` — **two seals feed the engine the same bytes exactly when they
  agree on method, vout, blinding and on the txid once `None` is read as the zero txid**;
* `commit_none_zero_txid_collide` — the collision that exception allows;
* the outpoint projections (`Outpoint.tryFrom`, `txidOr`, `outpointOr`) and the
  constructors, with the blinding factor as an argument in place of `thread_rng`.
-/

namespace BpCore.Seals

/-! ### Seal data -/

/-- `TxoutMethod` (`CloseMethod`), `#[repr(u8)]`. -/
inductive TxoutMethod where
  | opretFirst
  | tapretFirst
  deriving DecidableEq, Repr

/-- `method as u8`. -/
def TxoutMethod.toU8 : TxoutMethod → UInt8
  | .opretFirst => 0x00
  | .tapretFirst => 0x01

theorem TxoutMethod.toU8_inj {a b : TxoutMethod} (h : a.toU8 = b.toU8) : a = b := by
  cases a <;> cases b <;> first | rfl | cases h

/-- bp's `Txid`: 32 bytes. -/
structure Txid where
  inner : Bytes32
  deriving DecidableEq

/-- `Txid::from([0u8; 32])`. -/
def Txid.zero : Txid := ⟨⟨List.replicate 32 0, List.length_replicate _ _⟩⟩

/-- bp's `Vout`: an output number. -/
structure Vout where
  value : UInt32
  deriving DecidableEq

/-- `Vout::into_u32`. -/
def Vout.intoU32 (vout : Vout) : UInt32 := vout.value

/-- `RevealedSeal`. -/
structure RevealedSeal where
  method : TxoutMethod
  txid : Option Txid
  vout : Vout
  blinding : UInt64
  deriving DecidableEq

/-- bp's `Outpoint`. -/
structure Outpoint where
  txid : Txid
  vout : Vout
  deriving DecidableEq

/-- `WitnessVoutError`: the seal points into the yet-unknown witness transaction. -/
structure WitnessVoutError where
  deriving DecidableEq

/-! ### Constructors and projections -/

/-- `RevealedSeal::with`; the blinding factor is the value `rng.next_u64()` returned. -/
def RevealedSeal.with (method : TxoutMethod) (txid : Option Txid) (vout : Vout)
    (blinding : UInt64) : RevealedSeal :=
  { method, txid, vout, blinding }

/-- `RevealedSeal::new`; the blinding factor is the value `thread_rng().next_u64()` returned. -/
def RevealedSeal.new (method : TxoutMethod) (outpoint : Outpoint) (blinding : UInt64) :
    RevealedSeal :=
  { method, blinding, txid := some outpoint.txid, vout := outpoint.vout }

/-- `impl TryFrom<&RevealedSeal> for Outpoint`. -/
def Outpoint.tryFrom (reveal : RevealedSeal) : Except WitnessVoutError Outpoint :=
  match reveal.txid with
  | some txid => .ok ⟨txid, reveal.vout⟩
  | none => .error ⟨⟩

/-- `TxoSeal::txid_or`. -/
def RevealedSeal.txidOr (self : RevealedSeal) (defaultTxid : Txid) : Txid :=
  self.txid.getD defaultTxid

/-- `TxoSeal::outpoint_or`. -/
def RevealedSeal.outpointOr (self : RevealedSeal) (defaultTxid : Txid) : Outpoint :=
  ⟨self.txid.getD defaultTxid, self.vout⟩

theorem Outpoint.tryFrom_new (method : TxoutMethod) (outpoint : Outpoint) (blinding : UInt64) :
    Outpoint.tryFrom (RevealedSeal.new method outpoint blinding) = .ok outpoint := rfl

/-- A seal projects to an outpoint exactly when it names the outpoint's txid and vout. -/
theorem Outpoint.tryFrom_eq_ok_iff (reveal : RevealedSeal) (outpoint : Outpoint) :
    Outpoint.tryFrom reveal = .ok outpoint ↔
      reveal.txid = some outpoint.txid ∧ reveal.vout = outpoint.vout := by
  cases outpoint
  cases h : reveal.txid <;> simp [Outpoint.tryFrom, h, eq_comm]

/-! ### Concealment -/

/-- `MIDSTATE_CONCEALED_SEAL`. -/
def midstateConcealedSeal : List UInt8 :=
  [250, 13, 163, 5, 178, 220, 248, 173, 139, 222, 67, 198, 134, 127, 63, 153,
   147, 236, 172, 33, 17, 167, 176, 30, 70, 99, 185, 129, 217, 110, 183, 27]

/-- `ConcealedSeal`. -/
structure ConcealedSeal where
  inner : Bytes32
  deriving DecidableEq

/-- The engine `ConcealedSeal::commit` finishes. -/
def ConcealedSeal.commitEngine (reveal : RevealedSeal) : Sha256 :=
  ((((Sha256.fromTag midstateConcealedSeal).inputRaw [reveal.method.toU8]).inputRaw
    (reveal.txid.getD Txid.zero).inner.bytes).inputRaw
    (u32LeBytes reveal.vout.intoU32)).inputRaw (u64LeBytes reveal.blinding)

/-- `ConcealedSeal::commit` (`RevealedSeal::conceal`). -/
def ConcealedSeal.commit (sha256 : List UInt8 → Bytes32) (reveal : RevealedSeal) :
    ConcealedSeal :=
  ⟨(ConcealedSeal.commitEngine reveal).finish sha256⟩

theorem commitEngine_fed (r : RevealedSeal) :
    (ConcealedSeal.commitEngine r).fed =
      [r.method.toU8] ++ (r.txid.getD Txid.zero).inner.bytes ++ u32LeBytes r.vout.value ++
        u64LeBytes r.blinding := by
  simp [ConcealedSeal.commitEngine, Vout.intoU32]

/-- **The concealment encoding determines the seal up to reading a missing txid as the zero
txid**: `ConcealedSeal::commit` finishes an engine tagged `MIDSTATE_CONCEALED_SEAL` and fed
`method_byte ‖ txid_or_zeros ‖ vout_le_u32 ‖ blinding_le_u64`, and two seals feed it the same
bytes exactly when method, vout and blinding agree and `txid.unwrap_or(zero)` agrees. -/
theorem commitEngine_eq_iff (r₁ r₂ : RevealedSeal) :
    (∀ sha256, ConcealedSeal.commit sha256 r₁ =
      ⟨(ConcealedSeal.commitEngine r₁).finish sha256⟩) ∧
    ConcealedSeal.commitEngine r₁ =
      { tag := midstateConcealedSeal,
        fed := [r₁.method.toU8] ++ (r₁.txid.getD Txid.zero).inner.bytes ++
          u32LeBytes r₁.vout.intoU32 ++ u64LeBytes r₁.blinding } ∧
    (ConcealedSeal.commitEngine r₁ = ConcealedSeal.commitEngine r₂ ↔
      r₁.method = r₂.method ∧ r₁.txid.getD Txid.zero = r₂.txid.getD Txid.zero ∧
        r₁.vout = r₂.vout ∧ r₁.blinding = r₂.blinding) := by
  refine ⟨fun _ => rfl, rfl, ⟨fun h => ?_, ?_⟩⟩
  · have hfed := congrArg Sha256.fed h
    rw [commitEngine_fed, commitEngine_fed] at hfed
    obtain ⟨h₁, hb⟩ := List.append_inj' hfed (by simp)
    obtain ⟨h₂, hv⟩ := List.append_inj' h₁ (by simp)
    obtain ⟨hm, ht⟩ := List.append_inj' h₂ (by simp [Bytes32.length_eq])
    exact ⟨TxoutMethod.toU8_inj (List.singleton_inj.mp hm), congrArg Txid.mk (Bytes32.ext_bytes ht),
      congrArg Vout.mk (u32LeBytes_inj hv), u64LeBytes_inj hb⟩
  · rintro ⟨hm, ht, hv, hb⟩
    simp only [ConcealedSeal.commitEngine, hm, ht, hv, hb]

/-- Two distinct seals, one without txid and one with the all-zero txid, that conceal alike
under every digest. -/
theorem commit_none_zero_txid_collide :
    ({ method := .tapretFirst, txid := none, vout := ⟨21⟩, blinding := 54683213134637 } :
        RevealedSeal) ≠
      { method := .tapretFirst, txid := some Txid.zero, vout := ⟨21⟩, blinding := 54683213134637 } ∧
    ∀ sha256 : List UInt8 → Bytes32,
      ConcealedSeal.commit sha256
          { method := .tapretFirst, txid := none, vout := ⟨21⟩, blinding := 54683213134637 } =
        ConcealedSeal.commit sha256
          { method := .tapretFirst, txid := some Txid.zero, vout := ⟨21⟩,
            blinding := 54683213134637 } :=
  ⟨by simp, fun _ => rfl⟩

end BpCore.Seals
