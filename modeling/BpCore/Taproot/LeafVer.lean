import BpCore.Engine

/-!
# Taproot leaf versions and output-key parity

`primitives/src/taproot.rs` keeps the leaf version in two types: `LeafVer`, either the
BIP-342 `TapScript` version `0xC0` or `Future(FutureLeafVer)`, and `FutureLeafVer`, a bare
`u8` whose documentation says it has no public constructor.  The consensus validator
`from_consensus_u8` is the intended way in; the strict-encoding derives of `FutureLeafVer`
are other ways in (see `BpCore.Taproot.StrictCodec`), so `FutureLeafVer` carries no
invariant here and validity is the predicate `LeafVer.Valid`.

* `LeafVer.fromConsensusU8` / `toConsensusU8` — the consensus byte codec;
* `fromConsensusU8_toConsensusU8` — **the byte codec round-trips exactly on valid versions**;
* `toConsensusU8_of_fromConsensusU8` — every accepted byte is re-encoded as itself;
* `LeafVer.fromConsensusU8_eq_iff` — **the bytes accepted and the error for each rejected
  byte**;
* `Parity` with `fromConsensusU8`, `toConsensusU8` and `bitxor`, which is **XOR on the
  consensus byte** (`toConsensusU8_bitxor`) and makes parity a two-element group
  (`bitxor_group`).
-/

namespace BpCore.Taproot

/-! ### Constants -/

/-- `TAPROOT_ANNEX_PREFIX`. -/
def taprootAnnexPrefix : UInt8 := 0x50

/-- `TAPROOT_LEAF_TAPSCRIPT`. -/
def taprootLeafTapscript : UInt8 := 0xc0

/-! ### Leaf versions -/

/-- `InvalidLeafVer`: the rejected byte. -/
structure InvalidLeafVer where
  version : UInt8
  deriving DecidableEq, Repr

/-- `Display for InvalidLeafVer`: "invalid taproot leaf version {0}.". -/
def InvalidLeafVer.toString (err : InvalidLeafVer) : String :=
  "invalid taproot leaf version " ++ ToString.toString err.version ++ "."

/-- `FutureLeafVer`: a non-tapscript leaf version byte. -/
structure FutureLeafVer where
  version : UInt8
  deriving DecidableEq, Repr

/-- `LeafVer`. -/
inductive LeafVer where
  | tapScript
  | future (version : FutureLeafVer)
  deriving DecidableEq, Repr

/-- `FutureLeafVer::from_consensus`.  The source's `unreachable!()` arm for `0xC0` is a
precondition here: the only caller has already matched `0xC0`. -/
def FutureLeafVer.fromConsensus (version : UInt8) (_ : version ≠ taprootLeafTapscript) :
    Except InvalidLeafVer FutureLeafVer :=
  if version = taprootAnnexPrefix then .error ⟨taprootAnnexPrefix⟩
  else if version &&& 0xFE ≠ version then .error ⟨version⟩
  else .ok ⟨version⟩

/-- `FutureLeafVer::to_consensus`. -/
def FutureLeafVer.toConsensus (self : FutureLeafVer) : UInt8 := self.version

/-- The derived `StrictDumb` value of `FutureLeafVer`, `Self(0x51)`. -/
def FutureLeafVer.strictDumb : FutureLeafVer := ⟨0x51⟩

/-- `LeafVer::from_consensus_u8`. -/
def LeafVer.fromConsensusU8 (version : UInt8) : Except InvalidLeafVer LeafVer :=
  if h : version = taprootLeafTapscript then .ok .tapScript
  else if version = taprootAnnexPrefix then .error ⟨taprootAnnexPrefix⟩
  else (FutureLeafVer.fromConsensus version h).map .future

/-- `LeafVer::to_consensus_u8`. -/
def LeafVer.toConsensusU8 : LeafVer → UInt8
  | .tapScript => taprootLeafTapscript
  | .future version => version.toConsensus

/-- A leaf version the consensus rules admit: `TapScript`, or an even byte that is neither
the annex prefix nor `0xC0`. -/
def LeafVer.Valid : LeafVer → Prop
  | .tapScript => True
  | .future f => f.version &&& 0xFE = f.version ∧ f.version ≠ taprootAnnexPrefix ∧
      f.version ≠ taprootLeafTapscript

instance : DecidablePred LeafVer.Valid := fun
  | .tapScript => inferInstanceAs (Decidable True)
  | .future _ => inferInstanceAs (Decidable (_ ∧ _ ∧ _))

/-- **The consensus byte codec round-trips exactly on valid leaf versions.** -/
theorem fromConsensusU8_toConsensusU8 (lv : LeafVer) :
    LeafVer.fromConsensusU8 lv.toConsensusU8 = .ok lv ↔ lv.Valid := by
  cases lv with
  | tapScript => simp [LeafVer.fromConsensusU8, LeafVer.toConsensusU8, LeafVer.Valid]
  | future f =>
    simp only [LeafVer.fromConsensusU8, LeafVer.toConsensusU8, FutureLeafVer.toConsensus,
      FutureLeafVer.fromConsensus, LeafVer.Valid]
    split_ifs <;> simp_all [Except.map]

/-- Every byte `from_consensus_u8` accepts is re-encoded as itself, and decodes to a valid
version. -/
theorem toConsensusU8_of_fromConsensusU8 {v : UInt8} {lv : LeafVer}
    (h : LeafVer.fromConsensusU8 v = .ok lv) : lv.toConsensusU8 = v ∧ lv.Valid := by
  unfold LeafVer.fromConsensusU8 at h
  split_ifs at h with hc ha
  · cases h; exact ⟨hc.symm, trivial⟩
  · unfold FutureLeafVer.fromConsensus at h
    split_ifs at h with hm
    · cases h
    · cases h
      exact ⟨rfl, not_not.mp hm, ha, hc⟩

/-- **`from_consensus_u8` accepts exactly the consensus bytes of valid leaf versions**, and
rejects every other byte (an odd byte, or the annex prefix `0x50`) with an error that names
the byte. -/
theorem LeafVer.fromConsensusU8_eq_iff (v : UInt8) :
    (∀ lv, LeafVer.fromConsensusU8 v = .ok lv ↔ lv.toConsensusU8 = v ∧ lv.Valid) ∧
    ∀ e, LeafVer.fromConsensusU8 v = .error e ↔
      e = ⟨v⟩ ∧ (v &&& 0xFE ≠ v ∨ v = taprootAnnexPrefix) := by
  refine ⟨fun lv => ⟨toConsensusU8_of_fromConsensusU8,
    fun ⟨hv, hvalid⟩ => hv ▸ (fromConsensusU8_toConsensusU8 lv).mpr hvalid⟩, fun e => ?_⟩
  unfold LeafVer.fromConsensusU8 FutureLeafVer.fromConsensus
  split_ifs with hc ha hm
  · -- `0xC0` is accepted
    subst hc
    simp only [reduceCtorEq, false_iff, not_and]
    exact fun _ => by decide
  · -- the annex prefix
    simp [ha, eq_comm]
  · -- an odd byte
    exact ⟨fun h => ⟨(Except.error.inj h).symm, .inl hm⟩, fun h => by rw [h.1]; rfl⟩
  · -- an even byte, neither `0xC0` nor `0x50`
    simp only [Except.map, reduceCtorEq, false_iff, not_and]
    exact fun _ h => h.elim hm ha

/-! ### Output-key parity -/

/-- `Parity`. -/
inductive Parity where
  | even
  | odd
  deriving DecidableEq, Repr

/-- `InvalidParityValue`. -/
structure InvalidParityValue where
  value : UInt8
  deriving DecidableEq, Repr

/-- `Parity::to_consensus_u8`. -/
def Parity.toConsensusU8 : Parity → UInt8
  | .even => 0
  | .odd => 1

/-- `Parity::from_consensus_u8`. -/
def Parity.fromConsensusU8 (parity : UInt8) : Except InvalidParityValue Parity :=
  if parity = 0 then .ok .even
  else if parity = 1 then .ok .odd
  else .error ⟨parity⟩

/-- `impl BitXor for Parity`: even when the operands are equal, odd otherwise. -/
def Parity.bitxor (self rhs : Parity) : Parity :=
  if self = rhs then .even else .odd

theorem Parity.fromConsensusU8_toConsensusU8 (p : Parity) :
    Parity.fromConsensusU8 p.toConsensusU8 = .ok p := by
  cases p <;> rfl

theorem Parity.toConsensusU8_of_fromConsensusU8 {v : UInt8} {p : Parity}
    (h : Parity.fromConsensusU8 v = .ok p) : p.toConsensusU8 = v := by
  unfold Parity.fromConsensusU8 at h
  split_ifs at h with h0 h1 <;> cases h
  · exact h0.symm
  · exact h1.symm

/-- **`bitxor` is the XOR of the consensus bytes**, the source's argument from parity's one
bit (`1^1==0 and 0^0==0`, `1^0==1 and 0^1==1`). -/
theorem Parity.toConsensusU8_bitxor (p q : Parity) :
    (p.bitxor q).toConsensusU8 = p.toConsensusU8 ^^^ q.toConsensusU8 := by
  cases p <;> cases q <;> rfl

/-- Parity under `bitxor` is a group of two elements: `even` is the identity, every parity
is its own inverse, and the operation commutes and associates. -/
theorem Parity.bitxor_group (p q r : Parity) :
    Parity.even.bitxor p = p ∧ p.bitxor p = .even ∧ p.bitxor q = q.bitxor p ∧
      (p.bitxor q).bitxor r = p.bitxor (q.bitxor r) := by
  cases p <;> cases q <;> cases r <;> decide

end BpCore.Taproot
