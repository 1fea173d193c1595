import BpCore.Lockscript.Commit

/-!
# The lock-script container and its proof

`impl Container for LockscriptContainer` splits a container into what a verifier keeps, a
`Proof` (the source script and the key committed with) and a supplement (the tag), and
rebuilds a container from a proof and a supplement.  The tweaking factor is in neither, so a
rebuilt container holds none.  `Proof` and `ScriptEncodeData` are defined outside the sources
and are modelled from the spec: a proof's source is a lock script or data of another variant.

* `reconstruct_eq_error_iff` — **`reconstruct` fails exactly on a proof whose source is not
  a lock script, and then with `InvalidProofStructure`**;
* `reconstruct_of_lockScript` — on a lock-script proof it rebuilds the container with no
  tweaking factor;
* `reconstruct_deconstruct` — **a container rebuilt from its own proof and tag is the
  container without its tweaking factor, and commits as the container does**: the same
  result of `embed_commit`, the same factor recorded (`embedCommit_tweakingFactor_irrel`).
-/

namespace BpCore.Lockscript

/-! ### Proofs -/

/-- Modelled from the spec: `ScriptEncodeData` (absent from the sources), the source data a
commitment proof keeps: a lock script, or the data of another variant (`Other`), which the
spec names only as a wrong variant for this container (§7, class 1). -/
inductive ScriptEncodeData (Script Other : Type) where
  | lockScript (script : Script)
  | other (data : Other)
  deriving DecidableEq, Repr

/-- Modelled from the spec: `Proof` (absent from the sources), the source data and the key
the commitment was made with. -/
structure Proof (Pt Script Other : Type) where
  source : ScriptEncodeData Script Other
  pubkey : Pt
  deriving DecidableEq, Repr

variable {Pt Script Other : Type}

/-! ### `impl Container for LockscriptContainer` -/

/-- `Container::reconstruct`: the proof's lock script and key, the supplement as the tag, and
no tweaking factor; a proof of another source is `InvalidProofStructure`.  The host
(`Option<()>`) is not read. -/
def LockscriptContainer.reconstruct (proof : Proof Pt Script Other) (supplement : Bytes32)
    (_ : Option Unit) : Except Error (LockscriptContainer Pt Script) :=
  match proof.source with
  | .lockScript script => .ok ⟨script, proof.pubkey, supplement, none⟩
  | _ => .error .invalidProofStructure

/-- `Container::deconstruct`: the proof of the script and the key, and the tag as the
supplement. -/
def LockscriptContainer.deconstruct (self : LockscriptContainer Pt Script) :
    Proof Pt Script Other × Bytes32 :=
  (⟨.lockScript self.script, self.pubkey⟩, self.tag)

/-- `Container::to_proof`. -/
def LockscriptContainer.toProof (self : LockscriptContainer Pt Script) : Proof Pt Script Other :=
  ⟨.lockScript self.script, self.pubkey⟩

/-- `Container::into_proof`. -/
def LockscriptContainer.intoProof (self : LockscriptContainer Pt Script) :
    Proof Pt Script Other :=
  ⟨.lockScript self.script, self.pubkey⟩

theorem reconstruct_of_lockScript {proof : Proof Pt Script Other} {script : Script}
    (h : proof.source = .lockScript script) (supplement : Bytes32) (host : Option Unit) :
    LockscriptContainer.reconstruct proof supplement host =
      .ok ⟨script, proof.pubkey, supplement, none⟩ := by
  simp [LockscriptContainer.reconstruct, h]

/-- `reconstruct` fails exactly on a proof whose source is not a lock script, and then with
`InvalidProofStructure`. -/
theorem reconstruct_eq_error_iff {proof : Proof Pt Script Other} {supplement : Bytes32}
    {host : Option Unit} {e : Error} :
    LockscriptContainer.reconstruct proof supplement host = .error e ↔
      e = .invalidProofStructure ∧ ∀ script, proof.source ≠ .lockScript script := by
  obtain ⟨source, pubkey⟩ := proof
  cases source <;> simp [LockscriptContainer.reconstruct, eq_comm]

/-! ### Rebuilding a container from its proof -/

variable {H : Type} [DecidableEq Pt] [DecidableEq H] (B : Backend Pt H Script)

/-- **A container rebuilt from its own proof commits as the container does.**  Deconstructing
`c` and reconstructing, with any host, gives `c` without its tweaking factor; `embed_commit`
on the rebuilt container returns what it returns on `c`, and when it succeeds records the
same tweaking factor (a call that fails records none and leaves the rebuilt container as it
was); `to_proof` and `into_proof` are the deconstructed proof; and `reconstruct` fails,
with `InvalidProofStructure`, exactly on the proofs whose source is not a lock script. -/
theorem reconstruct_deconstruct (c : LockscriptContainer Pt Script) (msg : List UInt8)
    (host : Option Unit) :
    let deconstructed : Proof Pt Script Other × Bytes32 := c.deconstruct
    LockscriptContainer.reconstruct deconstructed.1 deconstructed.2 host =
        .ok { c with tweakingFactor := none } ∧
      (embedCommit B { c with tweakingFactor := none } msg).1 = (embedCommit B c msg).1 ∧
      (∀ s, (embedCommit B c msg).1 = .ok s →
        (embedCommit B { c with tweakingFactor := none } msg).2.tweakingFactor =
          (embedCommit B c msg).2.tweakingFactor) ∧
      (∀ e, (embedCommit B c msg).1 = .error e →
        (embedCommit B { c with tweakingFactor := none } msg).2 =
          { c with tweakingFactor := none }) ∧
      c.toProof = deconstructed.1 ∧ c.intoProof = deconstructed.1 ∧
      ∀ (proof : Proof Pt Script Other) (supplement : Bytes32) (host : Option Unit) (e : Error),
        LockscriptContainer.reconstruct proof supplement host = .error e ↔
          e = .invalidProofStructure ∧ ∀ script, proof.source ≠ .lockScript script := by
  obtain ⟨hres, hok⟩ := embedCommit_tweakingFactor_irrel B c none msg
  exact ⟨reconstruct_of_lockScript rfl _ _, hres, fun s h => by rw [hok s h],
    fun _ h => embedCommit_snd_of_error B (hres.trans h), rfl, rfl,
    fun _ _ _ _ => reconstruct_eq_error_iff⟩

end BpCore.Lockscript
