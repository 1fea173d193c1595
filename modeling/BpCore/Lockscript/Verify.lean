import BpCore.Lockscript.Commit

/-!
# Verifying a lock-script commitment

A verifier holds the container a commitment was made with, the message, and the script
claimed to commit to it.  It re-runs `embed_commit` on the container and the message, and
accepts when the script it gets back is the claimed one and the tweaking factor it records
is the one the container holds (spec §7, property P4).  The verifier's side of
`commit_verify` is not part of the sources; `verify` follows the spec.

* `verify_embedCommit` — **completeness**: the container a successful `embed_commit` leaves,
  with the same message and the script it returned, verifies;
* `rewrite_ne` — a rewrite that reaches `P` (a key on its point, or the hash of `P`
  compressed) tells two tweaked keys apart whenever their hashes differ;
* `verify_other_msg` — **binding**: when the script names `P` that way and the LNPBP-1
  commitment gives two messages tweaked keys with distinct hashes, the commitment to one
  message does not verify for the other;
* `embedCommit_recommit` — **a committed script cannot be committed to again with the same
  key**: when the script has no key hashes and `P' ≠ P`, a second call with `P` on the
  returned script fails with `LockscriptKeyNotFound`.

The binding theorem needs the script to name `P`: a script that names it neither way is
committed to unchanged (`embedCommit_ok_unreferenced`), whatever the message.  Both theorems
read the returned script back through the parser, so they ask the encoding of each rewrite
of the parsed script to parse back to that rewrite; nothing is asked of other trees.
-/

namespace BpCore.Lockscript

section Verify

variable {Pt H Script : Type} [DecidableEq Pt] [DecidableEq H] (B : Backend Pt H Script)

/-- A rewrite that reaches `P`, as a key on its point or as the hash of `P` compressed,
gives distinct trees for two tweaked keys whose hashes differ. -/
theorem rewrite_ne {ms : Miniscript (PublicKey Pt) H} {pubkey tweaked tweaked' : Pt}
    (hnamed : (∃ k ∈ ms.keys, k.key = pubkey) ∨ B.pubkeyHash ⟨true, pubkey⟩ ∈ ms.hashes)
    (hne : B.pubkeyHash ⟨true, tweaked⟩ ≠ B.pubkeyHash ⟨true, tweaked'⟩) :
    rewrite B ms pubkey tweaked ≠ rewrite B ms pubkey tweaked' := by
  intro heq
  obtain ⟨hkeys, hhashes⟩ := (Miniscript.translatePk_eq_iff ms).mp heq
  rcases hnamed with ⟨k, hk, hkey⟩ | hmem
  · -- the key on `P`'s point becomes each tweaked key
    have htweak := hkeys k hk
    simp only [tweakKey, hkey, if_true, PublicKey.mk.injEq, true_and] at htweak
    exact hne (by rw [htweak])
  · -- the hash of `P` becomes each tweaked hash
    exact hne (by simpa [tweakHash] using hhashes _ hmem)

variable [DecidableEq Script]

/-- Modelled from the spec: verification of a lock-script commitment (§7).  It re-runs
`embed_commit` on the container and the message, then compares the script with the
commitment and the recomputed tweaking factor with the stored one; an error of
`embed_commit` is returned as it is. -/
def verify (container : LockscriptContainer Pt Script) (msg : List UInt8) (commitment : Script) :
    Except Error Bool :=
  match embedCommit B container msg with
  | (.ok script, recomputed) =>
    .ok (decide (script = commitment) &&
      decide (recomputed.tweakingFactor = container.tweakingFactor))
  | (.error e, _) => .error e

/-- **Completeness**: after a successful `embed_commit`, the container it leaves, the same
message and the returned script verify. -/
theorem verify_embedCommit {c : LockscriptContainer Pt Script} {msg : List UInt8} {s : Script}
    (h : (embedCommit B c msg).1 = .ok s) : verify B (embedCommit B c msg).2 msg s = .ok true := by
  rcases embedCommit_cases B c msg with ⟨e, he⟩ | ⟨ms, tweaked, kc, hp, hk, hc, he⟩
  · simp [he] at h
  · rw [he] at h ⊢
    obtain rfl := Except.ok.inj h
    -- the recorded factor is not read again: the second run meets the same key-set call
    simp [verify, (embedCommit_of_keysetCommit B { c with tweakingFactor := kc.tweakingFactor }
      hp hk).2 tweaked hc]

example : verify toyBackend (embedCommit toyBackend (toyContainer pkZero) []).2 []
    (.wrap .check (.pkK ⟨true, 1⟩)) = .ok true := rfl

/-- **Binding**: when the script names `P` (a key on its point, or the hash of `P`
compressed), the encoding of each rewrite of the parsed script parses back to it, and the
LNPBP-1 commitment, on the script's key set, gives `msg` and `msg'` tweaked keys with distinct
hashes, the script committed to `msg` does not verify for `msg'`. -/
theorem verify_other_msg {c : LockscriptContainer Pt Script} {msg msg' : List UInt8}
    {s : Script} {ms : Miniscript (PublicKey Pt) H} (hp : B.parse c.script = some ms)
    (hnamed : (∃ k ∈ ms.keys, k.key = c.pubkey) ∨ B.pubkeyHash ⟨true, c.pubkey⟩ ∈ ms.hashes)
    (hround : ∀ tweaked, B.parse (B.encode (rewrite B ms c.pubkey tweaked)) =
      some (rewrite B ms c.pubkey tweaked))
    (hbind : ∀ t t' kc kc',
      B.keysetCommit ⟨c.pubkey, ms.keys.toFinset.image PublicKey.key, c.tag, none⟩ msg =
        (.ok t, kc) →
      B.keysetCommit ⟨c.pubkey, ms.keys.toFinset.image PublicKey.key, c.tag, none⟩ msg' =
        (.ok t', kc') →
      B.pubkeyHash ⟨true, t⟩ ≠ B.pubkeyHash ⟨true, t'⟩)
    (h : (embedCommit B c msg).1 = .ok s) :
    verify B (embedCommit B c msg).2 msg' s ≠ .ok true := by
  rcases embedCommit_cases B c msg with ⟨e, he⟩ | ⟨ms₁, tweaked, kc, hp₁, hk, hc, he⟩
  · simp [he] at h
  · obtain rfl : ms = ms₁ := Option.some.inj (hp.symm.trans hp₁)
    rw [he] at h ⊢
    obtain rfl := Except.ok.inj h
    rcases hc' : B.keysetCommit ⟨c.pubkey, ms.keys.toFinset.image PublicKey.key, c.tag, none⟩ msg'
      with ⟨e | tweaked', kc'⟩
    · -- the key-set commitment fails on `msg'`
      simp [verify, (embedCommit_of_keysetCommit B { c with tweakingFactor := kc.tweakingFactor }
        hp hk).1 e hc']
    · -- it succeeds with a tweaked key of another hash, so the rewrite and its encoding differ
      have hne := rewrite_ne B hnamed (hbind tweaked tweaked' kc kc' hc hc')
      have henc : B.encode (rewrite B ms c.pubkey tweaked') ≠
          B.encode (rewrite B ms c.pubkey tweaked) := fun heq =>
        hne.symm (Option.some.inj (by rw [← hround tweaked', heq, hround tweaked]))
      simp [verify, (embedCommit_of_keysetCommit B { c with tweakingFactor := kc.tweakingFactor }
        hp hk).2 tweaked' hc', henc]

/-- The toy backend with a key-set commitment that reads the message: `P' = P + 1 + |msg|`. -/
def toyLengthBackend : Backend Nat (PublicKey Nat) (Miniscript (PublicKey Nat) (PublicKey Nat)) :=
  { toyBackend with
    keysetCommit := fun kc msg => (.ok (kc.pubkey + 1 + msg.length),
      { kc with tweakingFactor := some ⟨List.replicate 32 0, rfl⟩ }) }

theorem verify_pkZero_other_msg :
    (embedCommit toyLengthBackend (toyContainer pkZero) []).1 =
      .ok (.wrap .check (.pkK ⟨true, 1⟩)) ∧
    verify toyLengthBackend (embedCommit toyLengthBackend (toyContainer pkZero) []).2 [0]
      (.wrap .check (.pkK ⟨true, 1⟩)) ≠ .ok true :=
  ⟨rfl, verify_other_msg toyLengthBackend rfl (.inl ⟨⟨true, 0⟩, by decide, rfl⟩)
    (fun _ => rfl) (by rintro _ _ _ _ ⟨⟩ ⟨⟩; simp [toyLengthBackend, toyBackend]) rfl⟩

/-! ### Committing twice -/

omit [DecidableEq Script] in
/-- **A committed script cannot be committed to again with the same key.**  When a script
without key hashes is committed to with `P`, the key-set commitment returns `P' ≠ P`, and the
encoding of each rewrite of the parsed script parses back to that rewrite, then a call with
`P` on the returned script fails with `LockscriptKeyNotFound`, whatever the message: every
key that was on `P`'s point is now `P'`. -/
theorem embedCommit_recommit {c : LockscriptContainer Pt Script} {msg msg' : List UInt8}
    {s : Script} {ms : Miniscript (PublicKey Pt) H} (hp : B.parse c.script = some ms)
    (hh : ms.hashes = [])
    (hround : ∀ tweaked, B.parse (B.encode (rewrite B ms c.pubkey tweaked)) =
      some (rewrite B ms c.pubkey tweaked))
    (hmoved : ∀ tweaked kc,
      B.keysetCommit ⟨c.pubkey, ms.keys.toFinset.image PublicKey.key, c.tag, none⟩ msg =
        (.ok tweaked, kc) → tweaked ≠ c.pubkey)
    (h : (embedCommit B c msg).1 = .ok s) :
    embedCommit B { c with script := s } msg' =
      (.error .lockscriptKeyNotFound, { c with script := s }) := by
  rcases embedCommit_cases B c msg with ⟨_, he⟩ | ⟨ms₁, tweaked, kc, hp₁, hk, hc, he⟩
  · simp [he] at h
  obtain rfl : ms = ms₁ := Option.some.inj (hp.symm.trans hp₁)
  obtain ⟨-, hsome, -, -⟩ := (checkKeys_eq_ok B).mp hk
  rw [he] at h
  obtain rfl := Except.ok.inj h
  -- the returned script parses to the rewrite, which has the script's keys and no hashes
  have hkeys : (rewrite B ms c.pubkey tweaked).keys ≠ [] := by
    simp only [rewrite, Miniscript.keys_translatePk, ne_eq, List.map_eq_nil_iff]
    exact fun hk0 => hsome ⟨by simp [hk0], by simp [hh]⟩
  have hhashes : (rewrite B ms c.pubkey tweaked).hashes = [] := by
    simp [rewrite, Miniscript.hashes_translatePk, hh]
  exact embedCommit_of_checkKeys_error B _ msg' (hround tweaked)
    (checkKeys_key_not_found B hkeys hhashes (rewrite_keys_ne B (hmoved tweaked kc hc)))

theorem embedCommit_recommit_pkZero :
    pkZero.hashes = [] ∧
    embedCommit toyBackend { toyContainer pkZero with script := .wrap .check (.pkK ⟨true, 1⟩) } [] =
      (.error .lockscriptKeyNotFound,
        { toyContainer pkZero with script := .wrap .check (.pkK ⟨true, 1⟩) }) :=
  ⟨rfl, @embedCommit_recommit _ _ _ _ _ toyBackend (toyContainer pkZero) [] [] _ pkZero rfl rfl
    (fun _ => rfl) (by rintro _ _ ⟨⟩; decide) rfl⟩

end Verify

end BpCore.Lockscript
