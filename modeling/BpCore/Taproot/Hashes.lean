import BpCore.Taproot.LeafVer

/-!
# TapLeaf and TapBranch hashes

The tagged hashes of a Taproot script tree, as `TapLeafHash::with_leaf_script`,
`TapLeafHash::with_tap_script` and `TapBranchHash::with_nodes` compute them, stated on the
engine state they finish (`BpCore.Engine`).

* `withLeafScript_input` — what the sources fix of the TapLeaf input: the version byte, then
  `input_with_len::<U32>` of the script, whose length prefix belongs to the absent
  `commit_verify` and is a parameter here;
* `withTapScript_eq_withLeafScript` — **the dedicated tapscript path and the general path
  agree on every script**, whatever that prefix;
* `cmpBytes` — Rust's `Ord` on byte arrays, with `cmpBytes_eq_lt_iff` (it is Lean's
  lexicographic order `LexLt`), `cmpBytes_swap` and `cmpBytes_eq_eq_iff`;
* `withNodesEngine_fed`, `withNodes_comm` — **`with_nodes` feeds its engine the smaller node
  hash first, so it is commutative**;
* `withNodesEngine_eq_iff` — and swapping the children is the only way for two calls to feed
  the same bytes.
-/

namespace BpCore.Taproot

/-! ### Scripts -/

/-- `ScriptBytes`: `Confined<Vec<u8>, 0, U32>`, at most `u32::MAX` bytes. -/
structure ScriptBytes where
  bytes : List UInt8
  length_le : bytes.length ≤ 0xFFFFFFFF
  deriving DecidableEq

/-- `TapScript`: a wrapper around `ScriptBytes`. -/
structure TapScript where
  inner : ScriptBytes
  deriving DecidableEq

/-- `LeafScript`. -/
structure LeafScript where
  version : LeafVer
  script : ScriptBytes
  deriving DecidableEq

/-- `impl From<TapScript> for LeafScript`. -/
def LeafScript.ofTapScript (tapScript : TapScript) : LeafScript :=
  { version := .tapScript, script := tapScript.inner }

/-- `LeafScript::from_tap_script`. -/
def LeafScript.fromTapScript (tapScript : TapScript) : LeafScript :=
  LeafScript.ofTapScript tapScript

/-! ### Hash types -/

/-- `TapLeafHash`. -/
structure TapLeafHash where
  inner : Bytes32
  deriving DecidableEq

/-- `TapBranchHash`. -/
structure TapBranchHash where
  inner : Bytes32
  deriving DecidableEq

/-- `TapNodeHash`: leaf and branch hashes convert into it without rehashing. -/
structure TapNodeHash where
  inner : Bytes32
  deriving DecidableEq

/-- `IntoTapHash for TapLeafHash`. -/
def TapLeafHash.intoTapHash (self : TapLeafHash) : TapNodeHash := ⟨self.inner⟩

/-- `IntoTapHash for TapBranchHash`. -/
def TapBranchHash.intoTapHash (self : TapBranchHash) : TapNodeHash := ⟨self.inner⟩

/-- `MIDSTATE_TAPLEAF`, the tag `b"TapLeaf"`. -/
def midstateTapleaf : List UInt8 := [0x54, 0x61, 0x70, 0x4c, 0x65, 0x61, 0x66]

/-- `MIDSTATE_TAPBRANCH`, the tag `b"TapBranch"`. -/
def midstateTapbranch : List UInt8 := [0x54, 0x61, 0x70, 0x42, 0x72, 0x61, 0x6e, 0x63, 0x68]

/-! ### Leaf hashes -/

section Leaf

variable (sha256 : List UInt8 → Bytes32) (lenPrefix : Nat → Nat → List UInt8)

/-- The engine `TapLeafHash::with_leaf_script` finishes. -/
def TapLeafHash.withLeafScriptEngine (leafScript : LeafScript) : Sha256 :=
  ((Sha256.fromTag midstateTapleaf).inputRaw [leafScript.version.toConsensusU8]).inputWithLen
    lenPrefix u32 leafScript.script.bytes

/-- `TapLeafHash::with_leaf_script`. -/
def TapLeafHash.withLeafScript (leafScript : LeafScript) : TapLeafHash :=
  ⟨(TapLeafHash.withLeafScriptEngine lenPrefix leafScript).finish sha256⟩

/-- The engine `TapLeafHash::with_tap_script` finishes. -/
def TapLeafHash.withTapScriptEngine (tapScript : TapScript) : Sha256 :=
  ((Sha256.fromTag midstateTapleaf).inputRaw [taprootLeafTapscript]).inputWithLen
    lenPrefix u32 tapScript.inner.bytes

/-- `TapLeafHash::with_tap_script`. -/
def TapLeafHash.withTapScript (tapScript : TapScript) : TapLeafHash :=
  ⟨(TapLeafHash.withTapScriptEngine lenPrefix tapScript).finish sha256⟩

/-- `LeafScript::tap_leaf_hash`. -/
def LeafScript.tapLeafHash (self : LeafScript) : TapLeafHash :=
  TapLeafHash.withLeafScript sha256 lenPrefix self

/-- What the sources fix of the TapLeaf input: **the engine is fed the version byte, then
`input_with_len::<U32>` of the script** (the library's prefix for the bound `U32` and the
script's length, then the script), on both paths, and each hash finishes its engine. -/
theorem withLeafScript_input :
    (∀ ls : LeafScript,
      TapLeafHash.withLeafScript sha256 lenPrefix ls =
        ⟨(TapLeafHash.withLeafScriptEngine lenPrefix ls).finish sha256⟩ ∧
      TapLeafHash.withLeafScriptEngine lenPrefix ls =
        { tag := midstateTapleaf,
          fed := ls.version.toConsensusU8 ::
            (lenPrefix u32 ls.script.bytes.length ++ ls.script.bytes) }) ∧
    ∀ ts : TapScript,
      TapLeafHash.withTapScript sha256 lenPrefix ts =
        ⟨(TapLeafHash.withTapScriptEngine lenPrefix ts).finish sha256⟩ ∧
      TapLeafHash.withTapScriptEngine lenPrefix ts =
        { tag := midstateTapleaf,
          fed := 0xC0 :: (lenPrefix u32 ts.inner.bytes.length ++ ts.inner.bytes) } :=
  ⟨fun _ => ⟨rfl, rfl⟩, fun _ => ⟨rfl, rfl⟩⟩

/-- **The tapscript path and the general path feed the same engine**, so
`with_tap_script`, `with_leaf_script ∘ From` and `from_tap_script(..).tap_leaf_hash()` agree. -/
theorem withTapScript_eq_withLeafScript (ts : TapScript) :
    TapLeafHash.withTapScript sha256 lenPrefix ts =
        TapLeafHash.withLeafScript sha256 lenPrefix (LeafScript.ofTapScript ts) ∧
      TapLeafHash.withLeafScript sha256 lenPrefix (LeafScript.ofTapScript ts) =
        (LeafScript.fromTapScript ts).tapLeafHash sha256 lenPrefix :=
  ⟨rfl, rfl⟩

end Leaf

/-! ### Branch hashes -/

/-- Rust's derived `Ord` on byte arrays (`[u8; 32]`, hence `Bytes32` and the hash wrappers):
lexicographic, element by element. -/
def cmpBytes : List UInt8 → List UInt8 → Ordering
  | [], [] => .eq
  | [], _ :: _ => .lt
  | _ :: _, [] => .gt
  | a :: as, b :: bs =>
    match compare a.toNat b.toNat with
    | .eq => cmpBytes as bs
    | o => o

theorem cmpBytes_swap (as bs : List UInt8) : (cmpBytes as bs).swap = cmpBytes bs as := by
  induction as generalizing bs with
  | nil => cases bs <;> rfl
  | cons a as ih =>
    cases bs with
    | nil => rfl
    | cons b bs =>
      simp only [cmpBytes, ← Nat.compare_swap a.toNat b.toNat]
      cases compare a.toNat b.toNat <;> first | rfl | exact ih bs

theorem cmpBytes_eq_eq_iff {as bs : List UInt8} : cmpBytes as bs = .eq ↔ as = bs := by
  induction as generalizing bs with
  | nil => cases bs <;> simp [cmpBytes]
  | cons a as ih =>
    cases bs with
    | nil => simp [cmpBytes]
    | cons b bs =>
      have hab : a = b ↔ a.toNat = b.toNat := ⟨congrArg _, UInt8.toNat.inj⟩
      simp only [cmpBytes, List.cons.injEq, hab, ← Nat.compare_eq_eq (a := a.toNat)]
      cases compare a.toNat b.toNat <;> simp [ih]

/-- Lexicographic order on byte strings: the first differing byte decides, and a proper
prefix is smaller. -/
inductive LexLt : List UInt8 → List UInt8 → Prop
  | nil (b : UInt8) (bs : List UInt8) : LexLt [] (b :: bs)
  | head {a b : UInt8} (as bs : List UInt8) : a.toNat < b.toNat → LexLt (a :: as) (b :: bs)
  | tail (a : UInt8) {as bs : List UInt8} : LexLt as bs → LexLt (a :: as) (a :: bs)

/-- Rust's byte-array order is the lexicographic order. -/
theorem cmpBytes_eq_lt_iff {as bs : List UInt8} : cmpBytes as bs = .lt ↔ LexLt as bs := by
  induction as generalizing bs with
  | nil =>
    cases bs with
    | nil => exact ⟨nofun, nofun⟩
    | cons b bs => exact ⟨fun _ => .nil b bs, fun _ => rfl⟩
  | cons a as ih =>
    cases bs with
    | nil => exact ⟨nofun, nofun⟩
    | cons b bs =>
      constructor
      · intro h
        cases hc : compare a.toNat b.toNat <;> simp only [cmpBytes, hc] at h
        · exact .head _ _ (Nat.compare_eq_lt.mp hc)
        · obtain rfl : a = b := UInt8.toNat.inj (Nat.compare_eq_eq.mp hc)
          exact .tail a (ih.mp h)
        · cases h
      · intro h
        cases h with
        | head _ _ h => simp [cmpBytes, Nat.compare_eq_lt.mpr h]
        | tail _ h => simp [cmpBytes, Nat.compare_eq_eq.mpr rfl, ih.mpr h]

instance : DecidableRel LexLt := fun _ _ => decidable_of_iff _ cmpBytes_eq_lt_iff

theorem cmpBytes_eq_gt_iff {as bs : List UInt8} : cmpBytes as bs = .gt ↔ LexLt bs as := by
  rw [← cmpBytes_eq_lt_iff, ← cmpBytes_swap as bs]
  cases cmpBytes as bs <;> simp [Ordering.swap]

/-- `cmp::min` under the derived `Ord` (`Ord::min`: the first argument on ties). -/
def TapNodeHash.cmpMin (a b : TapNodeHash) : TapNodeHash :=
  match cmpBytes a.inner.bytes b.inner.bytes with
  | .lt | .eq => a
  | .gt => b

/-- `cmp::max` under the derived `Ord` (`Ord::max`: the second argument on ties). -/
def TapNodeHash.cmpMax (a b : TapNodeHash) : TapNodeHash :=
  match cmpBytes a.inner.bytes b.inner.bytes with
  | .lt | .eq => b
  | .gt => a

/-- The engine `TapBranchHash::with_nodes` finishes. -/
def TapBranchHash.withNodesEngine (node1 node2 : TapNodeHash) : Sha256 :=
  ((Sha256.fromTag midstateTapbranch).inputRaw
    (TapNodeHash.cmpMin node1 node2).inner.bytes).inputRaw
    (TapNodeHash.cmpMax node1 node2).inner.bytes

/-- `TapBranchHash::with_nodes`. -/
def TapBranchHash.withNodes (sha256 : List UInt8 → Bytes32) (node1 node2 : TapNodeHash) :
    TapBranchHash :=
  ⟨(TapBranchHash.withNodesEngine node1 node2).finish sha256⟩

theorem withNodesEngine_fed (a b : TapNodeHash) :
    (TapBranchHash.withNodesEngine a b).fed =
      if LexLt b.inner.bytes a.inner.bytes then b.inner.bytes ++ a.inner.bytes
      else a.inner.bytes ++ b.inner.bytes := by
  simp only [TapBranchHash.withNodesEngine, TapNodeHash.cmpMin, TapNodeHash.cmpMax,
    Sha256.inputRaw_fed, Sha256.fromTag_fed, List.nil_append, ← cmpBytes_eq_gt_iff]
  cases cmpBytes a.inner.bytes b.inner.bytes <;> simp

/-- Swapping the children feeds the same engine. -/
theorem withNodesEngine_swap (a b : TapNodeHash) :
    TapBranchHash.withNodesEngine a b = TapBranchHash.withNodesEngine b a := by
  rw [Sha256.ext_iff', withNodesEngine_fed, withNodesEngine_fed]
  refine ⟨rfl, ?_⟩
  simp only [← cmpBytes_eq_lt_iff, ← cmpBytes_swap a.inner.bytes b.inner.bytes]
  cases h : cmpBytes a.inner.bytes b.inner.bytes <;> simp [Ordering.swap]
  rw [cmpBytes_eq_eq_iff.mp h]

/-- **`with_nodes` finishes an engine fed the lexicographically smaller node hash first, and
is commutative.**  Ties are equal hashes, so the order chosen on a tie does not matter. -/
theorem withNodes_comm (sha256 : List UInt8 → Bytes32) (a b : TapNodeHash) :
    TapBranchHash.withNodes sha256 a b = ⟨(TapBranchHash.withNodesEngine a b).finish sha256⟩ ∧
    TapBranchHash.withNodesEngine a b =
      { tag := midstateTapbranch,
        fed := if LexLt b.inner.bytes a.inner.bytes then b.inner.bytes ++ a.inner.bytes
          else a.inner.bytes ++ b.inner.bytes } ∧
    TapBranchHash.withNodes sha256 a b = TapBranchHash.withNodes sha256 b a :=
  ⟨rfl, Sha256.ext_iff'.mpr ⟨rfl, withNodesEngine_fed a b⟩,
    by simp only [TapBranchHash.withNodes, withNodesEngine_swap a b]⟩

/-- The TapBranch engine is fed the two children's bytes, in one order or the other. -/
theorem withNodesEngine_fed_or (a b : TapNodeHash) :
    (TapBranchHash.withNodesEngine a b).fed = a.inner.bytes ++ b.inner.bytes ∨
      (TapBranchHash.withNodesEngine a b).fed = b.inner.bytes ++ a.inner.bytes := by
  rw [withNodesEngine_fed]
  split_ifs
  · exact .inr rfl
  · exact .inl rfl

/-- Two pairs of node hashes that spell the same 64 bytes are the same pair. -/
theorem TapNodeHash.append_inj {a b c d : TapNodeHash}
    (h : a.inner.bytes ++ b.inner.bytes = c.inner.bytes ++ d.inner.bytes) : a = c ∧ b = d := by
  obtain ⟨hac, hbd⟩ := List.append_inj h (a.inner.length_eq.trans c.inner.length_eq.symm)
  exact ⟨congrArg TapNodeHash.mk (Bytes32.ext_bytes hac),
    congrArg TapNodeHash.mk (Bytes32.ext_bytes hbd)⟩

/-- **The TapBranch input determines the pair of children**: `with_nodes` finishes its engine,
and two calls feed that engine the same bytes exactly when they are given the same two node
hashes, in either order. -/
theorem withNodesEngine_eq_iff (a b c d : TapNodeHash) :
    (∀ sha256, TapBranchHash.withNodes sha256 a b =
      ⟨(TapBranchHash.withNodesEngine a b).finish sha256⟩) ∧
    (TapBranchHash.withNodesEngine a b = TapBranchHash.withNodesEngine c d ↔
      (a = c ∧ b = d) ∨ (a = d ∧ b = c)) := by
  refine ⟨fun _ => rfl, fun h => ?_, ?_⟩
  · have hfed := congrArg Sha256.fed h
    rcases withNodesEngine_fed_or a b with h₁ | h₁ <;>
      rcases withNodesEngine_fed_or c d with h₂ | h₂ <;>
      rw [h₁, h₂] at hfed <;>
      obtain ⟨h₃, h₄⟩ := TapNodeHash.append_inj hfed
    · exact .inl ⟨h₃, h₄⟩
    · exact .inr ⟨h₃, h₄⟩
    · exact .inr ⟨h₄, h₃⟩
    · exact .inl ⟨h₄, h₃⟩
  · rintro (⟨rfl, rfl⟩ | ⟨rfl, rfl⟩)
    · rfl
    · exact withNodesEngine_swap _ _

end BpCore.Taproot
