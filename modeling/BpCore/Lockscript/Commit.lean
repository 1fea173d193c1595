import BpCore.Engine
import BpCore.Lockscript.Miniscript
import Mathlib.Data.Finset.Image

/-!
# LNPBP-2: embedding a commitment into a lock script

`LockscriptCommitment::embed_commit` takes a `LockscriptContainer` (a lock script, the key
`P` to commit with, a protocol tag) by `&mut` and a message.  It extracts the script's keys
and `pk_h` hashes, checks them against `P`, asks the LNPBP-1 key-set commitment for the
tweaked key `P'` and its tweaking factor, records the factor in the container, and rewrites
the script: keys on `P`'s point become `P'` compressed, and the hash of `P` compressed becomes
the hash of `P'` compressed.  It is modelled in state-passing style: the result and the
container after the call.  The parser, `hash160` and the LNPBP-1 commitment are parameters
(`Backend`).

* `embedCommit_cases` — **what one call can do**: fail and leave the container as it was, or
  pass every check and return the rewritten script with the tweaking factor recorded;
* `embedCommit_container` — the container after a call: no field but `tweaking_factor`
  changes, an error leaves it whole, and success records the LNPBP-1 factor;
* `embedCommit_result_eq`, `embedCommit_tweakingFactor_irrel`, `embedCommitAll_spec` — the
  call never reads the stored factor, so **a container reused for message after message
  returns what a fresh one would**, and a successful call records the same factor;
* `embedCommit_rewrite` — the script returned, leaf by leaf;
* `embedCommit_same_points` — the key set handed to LNPBP-1 is the set of the keys' points,
  so scripts with keys on the same points are tweaked alike;
* `embedCommit_keeps_uncompressed_hash` — **a `pk_h` of `P` uncompressed survives the
  commitment**, against the doc comment's "compressed and uncompressed versions of the same
  public key must be treated as the same public key" and unlike the key callback, which
  replaces `P` in either encoding;
* `embedCommit_no_keys`, `embedCommit_key_not_found`, `embedCommit_unknown_hash` — the three
  rejections of the checks;
* `embedCommit_eq_error_iff` — **every way a call fails**, read off the parsed script's keys
  and hashes: it does not parse, one of the three checks rejects it, or the LNPBP-1
  commitment fails;
* `embedCommit_ok_unreferenced` — a script whose `pk_h` hashes all belong to its own keys is
  "committed" to without naming `P` at all, and comes back unchanged.
-/

namespace BpCore.Lockscript

/-! ### Data -/

/-- `bitcoin::PublicKey`: a curve point and whether it is serialised compressed. -/
structure PublicKey (Pt : Type) where
  compressed : Bool
  key : Pt
  deriving DecidableEq, Repr

/-- Modelled from the spec: `dbc::Error` (absent from the sources), the variants the
lock-script engine returns (§6), with the failure of the Miniscript parser that `?` turns
into `LockscriptParseError`. -/
inductive Error where
  | lockscriptParseError
  | lockscriptContainsNoKeys
  | lockscriptContainsUnknownHashes
  | lockscriptKeyNotFound
  | invalidProofStructure
  deriving DecidableEq, Repr

/-- `LockscriptContainer`: the script, the key committed with, the tag `SHA256(tag)`, and the
tweaking factor `embed_commit` stores. -/
structure LockscriptContainer (Pt Script : Type) where
  script : Script
  pubkey : Pt
  tag : Bytes32
  tweakingFactor : Option Bytes32

/-- `KeysetContainer`, with the fields `embed_commit` fills in. -/
structure KeysetContainer (Pt : Type) where
  pubkey : Pt
  keyset : Finset Pt
  tag : Bytes32
  tweakingFactor : Option Bytes32

/-- What `embed_commit` calls outside this crate: the Miniscript parser and encoder behind
`LockScript` (one parser serves `extract_pubkey_hash_set` and `replace_pubkeys_and_hashes`,
the spec's single external parser), `hash160` of a key's serialisation, and LNPBP-1's
`KeysetCommitment::embed_commit`, which returns the tweaked key and the key-set container
as it leaves it. -/
structure Backend (Pt H Script : Type) where
  parse : Script → Option (Miniscript (PublicKey Pt) H)
  encode : Miniscript (PublicKey Pt) H → Script
  pubkeyHash : PublicKey Pt → H
  keysetCommit : KeysetContainer Pt → List UInt8 → Except Error Pt × KeysetContainer Pt

/-- A backend to run the engine on: points are numbers, `hash160` is the identity on
serialised keys (so distinct keys and encodings have distinct hashes), a script is its own
parse, and the key-set commitment returns `P + 1` and records a zero tweaking factor. -/
def toyBackend : Backend Nat (PublicKey Nat) (Miniscript (PublicKey Nat) (PublicKey Nat)) where
  parse := some
  encode := id
  pubkeyHash := id
  keysetCommit kc _ := (.ok (kc.pubkey + 1),
    { kc with tweakingFactor := some ⟨List.replicate 32 0, rfl⟩ })

/-- A container of the toy backend committing with the point `0` and a zero tag. -/
def toyContainer (script : Miniscript (PublicKey Nat) (PublicKey Nat)) :
    LockscriptContainer Nat (Miniscript (PublicKey Nat) (PublicKey Nat)) :=
  ⟨script, 0, ⟨List.replicate 32 0, rfl⟩, none⟩

section Engine

variable {Pt H Script : Type} [DecidableEq Pt] [DecidableEq H] (B : Backend Pt H Script)

/-! ### The two script operations -/

/-- `LockScript::extract_pubkey_hash_set::<Segwitv0>`: the keys and the `pk_h` hashes of the
parsed script, as sets. -/
def extractPubkeyHashSet (script : Script) : Except Error (Finset (PublicKey Pt) × Finset H) :=
  match B.parse script with
  | some ms => .ok (ms.keys.toFinset, ms.hashes.toFinset)
  | none => .error .lockscriptParseError

/-- `LockScript::replace_pubkeys_and_hashes::<Segwitv0>`: the parsed script rewritten by the
two callbacks, encoded. -/
def replacePubkeysAndHashes (script : Script) (fpk : PublicKey Pt → PublicKey Pt)
    (fpkh : H → H) : Except Error Script :=
  match B.parse script with
  | some ms => .ok (B.encode (ms.translatePk fpk fpkh))
  | none => .error .lockscriptParseError

/-! ### `embed_commit` -/

/-- The checks of `embed_commit` on the extracted sets: some key or hash; with no hashes, `P`
among the keys by point; with hashes, each the hash of a key of the script or of `P`
compressed.  On success, the keys by point, the key set of the LNPBP-1 commitment. -/
def checkKeys (originalHash : H) (pubkey : Pt) (keys : Finset (PublicKey Pt))
    (hashes : Finset H) : Except Error (Finset Pt) :=
  if keys = ∅ ∧ hashes = ∅ then .error .lockscriptContainsNoKeys
  else
    let keyHashes := insert originalHash (keys.image B.pubkeyHash)
    let points := keys.image PublicKey.key
    if hashes = ∅ then
      if pubkey ∈ points then .ok points else .error .lockscriptKeyNotFound
    else if ∃ hash ∈ hashes, hash ∉ keyHashes then .error .lockscriptContainsUnknownHashes
    else .ok points

/-- The key callback: a key on the point `pubkey`, in either encoding, becomes `tweaked`
compressed. -/
def tweakKey (pubkey tweaked : Pt) (pk : PublicKey Pt) : PublicKey Pt :=
  if pk.key = pubkey then ⟨true, tweaked⟩ else pk

/-- The hash callback: `originalHash` becomes `tweakedHash`. -/
def tweakHash (originalHash tweakedHash : H) (hash : H) : H :=
  if hash = originalHash then tweakedHash else hash

/-- `LockscriptCommitment::embed_commit(container, msg)`: the result, and the container as
the call leaves it.  The `found` counter the callbacks increment is never read. -/
def embedCommit (container : LockscriptContainer Pt Script) (msg : List UInt8) :
    Except Error Script × LockscriptContainer Pt Script :=
  let originalHash := B.pubkeyHash ⟨true, container.pubkey⟩
  match extractPubkeyHashSet B container.script >>= fun (keys, hashes) =>
      checkKeys B originalHash container.pubkey keys hashes with
  | .error e => (.error e, container)
  | .ok keys =>
    match B.keysetCommit ⟨container.pubkey, keys, container.tag, none⟩ msg with
    | (.error e, _) => (.error e, container)
    | (.ok tweaked, keysetContainer) =>
      let container := { container with tweakingFactor := keysetContainer.tweakingFactor }
      let tweakedHash := B.pubkeyHash ⟨true, tweaked⟩
      (replacePubkeysAndHashes B container.script (tweakKey container.pubkey tweaked)
        (tweakHash originalHash tweakedHash), container)

/-! ### One call -/

theorem checkKeys_eq_ok {originalHash : H} {pubkey : Pt} {keys : Finset (PublicKey Pt)}
    {hashes : Finset H} {points : Finset Pt} :
    checkKeys B originalHash pubkey keys hashes = .ok points ↔
      points = keys.image PublicKey.key ∧ ¬(keys = ∅ ∧ hashes = ∅) ∧
        (hashes = ∅ → pubkey ∈ keys.image PublicKey.key) ∧
        ∀ hash ∈ hashes, hash ∈ insert originalHash (keys.image B.pubkeyHash) := by
  simp only [checkKeys]
  split_ifs with h₀ h₁ h₂ h₃
  · -- neither keys nor hashes
    simp [h₀]
  · -- no hashes, `P` among the keys
    exact ⟨fun h => by cases h; exact ⟨rfl, h₀, fun _ => h₂, by simp [h₁]⟩, fun h => by rw [h.1]⟩
  · -- no hashes, `P` missing
    simp [h₁, h₂]
  · -- an unknown hash
    obtain ⟨hash, hmem, hbad⟩ := h₃
    simp only [reduceCtorEq, false_iff, not_and]
    exact fun _ _ _ hall => hbad (hall hash hmem)
  · -- every hash known
    push_neg at h₃
    exact ⟨fun h => by cases h; exact ⟨rfl, h₀, fun h' => absurd h' h₁, h₃⟩, fun h => by rw [h.1]⟩

/-- The rewrite the engine applies, once `P'` is known. -/
def rewrite (ms : Miniscript (PublicKey Pt) H) (pubkey tweaked : Pt) :
    Miniscript (PublicKey Pt) H :=
  ms.translatePk (tweakKey pubkey tweaked)
    (tweakHash (B.pubkeyHash ⟨true, pubkey⟩) (B.pubkeyHash ⟨true, tweaked⟩))

theorem embedCommit_of_parse_none (c : LockscriptContainer Pt Script) (msg : List UInt8)
    (hp : B.parse c.script = none) : embedCommit B c msg = (.error .lockscriptParseError, c) := by
  simp [embedCommit, extractPubkeyHashSet, hp, bind, Except.bind]

theorem embedCommit_of_checkKeys_error (c : LockscriptContainer Pt Script) (msg : List UInt8)
    {ms : Miniscript (PublicKey Pt) H} {e : Error} (hp : B.parse c.script = some ms)
    (hk : checkKeys B (B.pubkeyHash ⟨true, c.pubkey⟩) c.pubkey ms.keys.toFinset
      ms.hashes.toFinset = .error e) :
    embedCommit B c msg = (.error e, c) := by
  simp [embedCommit, extractPubkeyHashSet, hp, hk, bind, Except.bind]

theorem embedCommit_of_keysetCommit (c : LockscriptContainer Pt Script) {msg : List UInt8}
    {ms : Miniscript (PublicKey Pt) H} {points : Finset Pt} {kc : KeysetContainer Pt}
    (hp : B.parse c.script = some ms)
    (hk : checkKeys B (B.pubkeyHash ⟨true, c.pubkey⟩) c.pubkey ms.keys.toFinset
      ms.hashes.toFinset = .ok points) :
    (∀ e, B.keysetCommit ⟨c.pubkey, points, c.tag, none⟩ msg = (.error e, kc) →
      embedCommit B c msg = (.error e, c)) ∧
    ∀ tweaked, B.keysetCommit ⟨c.pubkey, points, c.tag, none⟩ msg = (.ok tweaked, kc) →
      embedCommit B c msg = (.ok (B.encode (rewrite B ms c.pubkey tweaked)),
        { c with tweakingFactor := kc.tweakingFactor }) := by
  constructor <;> intro _ hc <;>
    simp [embedCommit, extractPubkeyHashSet, replacePubkeysAndHashes, rewrite, hp, hk, hc, bind,
      Except.bind]

/-- **What one call of `embed_commit` can do**: fail with the container as it was, or pass
every check, get `P'` from the key-set commitment on the points of the script's keys, and
return the rewritten script with the commitment's tweaking factor recorded.  The rewrite
cannot fail: it parses what extraction already parsed. -/
theorem embedCommit_cases (c : LockscriptContainer Pt Script) (msg : List UInt8) :
    (∃ e, embedCommit B c msg = (.error e, c)) ∨
    ∃ ms tweaked kc, B.parse c.script = some ms ∧
      checkKeys B (B.pubkeyHash ⟨true, c.pubkey⟩) c.pubkey ms.keys.toFinset ms.hashes.toFinset =
        .ok (ms.keys.toFinset.image PublicKey.key) ∧
      B.keysetCommit ⟨c.pubkey, ms.keys.toFinset.image PublicKey.key, c.tag, none⟩ msg =
        (.ok tweaked, kc) ∧
      embedCommit B c msg =
        (.ok (B.encode (rewrite B ms c.pubkey tweaked)),
          { c with tweakingFactor := kc.tweakingFactor }) := by
  cases hp : B.parse c.script with
  | none => exact .inl ⟨_, embedCommit_of_parse_none B c msg hp⟩
  | some ms =>
    cases hk : checkKeys B (B.pubkeyHash ⟨true, c.pubkey⟩) c.pubkey ms.keys.toFinset
        ms.hashes.toFinset with
    | error e => exact .inl ⟨e, embedCommit_of_checkKeys_error B c msg hp hk⟩
    | ok points =>
      obtain rfl := ((checkKeys_eq_ok B).mp hk).1
      rcases hc : B.keysetCommit ⟨c.pubkey, _, c.tag, none⟩ msg with ⟨e | tweaked, kc⟩
      · exact .inl ⟨e, (embedCommit_of_keysetCommit B c hp hk).1 e hc⟩
      · exact .inr ⟨ms, tweaked, kc, rfl, hk, hc,
          (embedCommit_of_keysetCommit B c hp hk).2 tweaked hc⟩

/-! ### The container -/

/-- One call changes no field of the container but the tweaking factor. -/
theorem embedCommit_frame (c : LockscriptContainer Pt Script) (msg : List UInt8) :
    (embedCommit B c msg).2 =
      { c with tweakingFactor := (embedCommit B c msg).2.tweakingFactor } := by
  rcases embedCommit_cases B c msg with ⟨_, he⟩ | ⟨_, _, _, _, _, _, he⟩ <;> rw [he]

/-- A call that fails leaves the container as it was. -/
theorem embedCommit_snd_of_error {c : LockscriptContainer Pt Script} {msg : List UInt8} {e : Error}
    (h : (embedCommit B c msg).1 = .error e) : (embedCommit B c msg).2 = c := by
  rcases embedCommit_cases B c msg with ⟨_, he⟩ | ⟨_, _, _, _, _, _, he⟩ <;> rw [he] at h ⊢
  cases h

/-- **The container after a call**: no field but `tweaking_factor` changes; an error leaves
the whole container as it was; success records the factor the LNPBP-1 commitment left in
its key-set container, the one made of the points of the script's keys. -/
theorem embedCommit_container (c : LockscriptContainer Pt Script) (msg : List UInt8) :
    (embedCommit B c msg).2 =
        { c with tweakingFactor := (embedCommit B c msg).2.tweakingFactor } ∧
    (∀ e, (embedCommit B c msg).1 = .error e → (embedCommit B c msg).2 = c) ∧
    ∀ s, (embedCommit B c msg).1 = .ok s → ∃ ms tweaked kc, B.parse c.script = some ms ∧
      B.keysetCommit ⟨c.pubkey, ms.keys.toFinset.image PublicKey.key, c.tag, none⟩ msg =
        (.ok tweaked, kc) ∧
      (embedCommit B c msg).2.tweakingFactor = kc.tweakingFactor := by
  refine ⟨embedCommit_frame B c msg, fun _ => embedCommit_snd_of_error B, fun s h => ?_⟩
  rcases embedCommit_cases B c msg with ⟨e, he⟩ | ⟨ms, tweaked, kc, hp, -, hc, he⟩
  · simp [he] at h
  · exact ⟨ms, tweaked, kc, hp, hc, by rw [he]⟩

/-- The result of `embed_commit` reads the script, the key and the tag of the container, and
never the tweaking factor stored in it. -/
theorem embedCommit_result_eq (c : LockscriptContainer Pt Script) (f : Option Bytes32)
    (msg : List UInt8) :
    (embedCommit B { c with tweakingFactor := f } msg).1 = (embedCommit B c msg).1 := by
  cases hparse : B.parse c.script with
  | none =>
    rw [embedCommit_of_parse_none B { c with tweakingFactor := f } msg hparse,
      embedCommit_of_parse_none B c msg hparse]
  | some ms =>
    cases hk : checkKeys B (B.pubkeyHash ⟨true, c.pubkey⟩) c.pubkey ms.keys.toFinset
        ms.hashes.toFinset with
    | error e =>
      rw [embedCommit_of_checkKeys_error B { c with tweakingFactor := f } msg hparse hk,
        embedCommit_of_checkKeys_error B c msg hparse hk]
    | ok points =>
      rcases hc : B.keysetCommit ⟨c.pubkey, points, c.tag, none⟩ msg with ⟨e | tweaked, kc⟩
      · rw [(embedCommit_of_keysetCommit B { c with tweakingFactor := f } hparse hk).1 e hc,
          (embedCommit_of_keysetCommit B c hparse hk).1 e hc]
      · rw [(embedCommit_of_keysetCommit B { c with tweakingFactor := f } hparse hk).2 tweaked hc,
          (embedCommit_of_keysetCommit B c hparse hk).2 tweaked hc]

/-- **The stored tweaking factor is never read**: on a container that differs only in the
stored factor, `embed_commit` returns the same result and, when it succeeds, leaves the same
container, so it records the same factor. -/
theorem embedCommit_tweakingFactor_irrel (c : LockscriptContainer Pt Script) (f : Option Bytes32)
    (msg : List UInt8) :
    (embedCommit B { c with tweakingFactor := f } msg).1 = (embedCommit B c msg).1 ∧
    ∀ s, (embedCommit B c msg).1 = .ok s →
      (embedCommit B { c with tweakingFactor := f } msg).2 = (embedCommit B c msg).2 := by
  refine ⟨embedCommit_result_eq B c f msg, fun s h => ?_⟩
  rcases embedCommit_cases B c msg with ⟨e, he⟩ | ⟨ms, tweaked, kc, hp, hk, hc, he⟩
  · simp [he] at h
  · rw [he, (embedCommit_of_keysetCommit B { c with tweakingFactor := f } hp hk).2 tweaked hc]

/-- `embed_commit` called on one container with each message in turn: the results, and the
container after the last call. -/
def embedCommitAll (c : LockscriptContainer Pt Script) :
    List (List UInt8) → List (Except Error Script) × LockscriptContainer Pt Script
  | [] => ([], c)
  | msg :: msgs =>
    let step := embedCommit B c msg
    let rest := embedCommitAll step.2 msgs
    (step.1 :: rest.1, rest.2)

/-- **A container can be reused**: calling `embed_commit` on one container with messages in
turn returns, for each message, what a call on the original container returns, and changes no
field of the container but the tweaking factor. -/
theorem embedCommitAll_spec (c : LockscriptContainer Pt Script) (msgs : List (List UInt8)) :
    (embedCommitAll B c msgs).1 = msgs.map (fun msg => (embedCommit B c msg).1) ∧
      (embedCommitAll B c msgs).2 =
        { c with tweakingFactor := (embedCommitAll B c msgs).2.tweakingFactor } := by
  induction msgs generalizing c with
  | nil => exact ⟨rfl, rfl⟩
  | cons msg msgs ih =>
    obtain ⟨hr, hc⟩ := ih (embedCommit B c msg).2
    have hframe := embedCommit_frame B c msg
    simp only [embedCommitAll, List.map_cons, hr]
    refine ⟨congrArg _ (List.map_congr_left fun m _ => ?_), ?_⟩
    · rw [hframe, embedCommit_result_eq]
    · rw [hc, hframe]

/-! ### The script -/

/-- **The script `embed_commit` returns, leaf by leaf**: the encoding of a tree of the parsed
script's shape whose keys are the script's keys with every key on `P`'s point, in either
encoding, replaced by `P'` compressed, and whose `pk_h` hashes are the script's with the hash
of `P` compressed replaced by the hash of `P'` compressed, where `P'` is the key the LNPBP-1
commitment returned on the points of the script's keys. -/
theorem embedCommit_rewrite {c : LockscriptContainer Pt Script} {msg : List UInt8} {s : Script}
    (h : (embedCommit B c msg).1 = .ok s) :
    ∃ ms ms' tweaked kc, B.parse c.script = some ms ∧
      B.keysetCommit ⟨c.pubkey, ms.keys.toFinset.image PublicKey.key, c.tag, none⟩ msg =
        (.ok tweaked, kc) ∧
      s = B.encode ms' ∧ ms'.skeleton = ms.skeleton ∧
      ms'.keys = ms.keys.map (tweakKey c.pubkey tweaked) ∧
      ms'.hashes = ms.hashes.map
        (tweakHash (B.pubkeyHash ⟨true, c.pubkey⟩) (B.pubkeyHash ⟨true, tweaked⟩)) := by
  rcases embedCommit_cases B c msg with ⟨e, he⟩ | ⟨ms, tweaked, kc, hp, -, hc, he⟩
  · simp [he] at h
  · simp only [he, Except.ok.injEq] at h
    exact ⟨ms, _, tweaked, kc, hp, hc, h.symm, Miniscript.skeleton_translatePk _ _ ms,
      Miniscript.keys_translatePk _ _ ms, Miniscript.hashes_translatePk _ _ ms⟩

/-- **The tweak depends on the script's keys only through their points**: two containers with
one key and one tag whose scripts have keys on the same curve points (in any order, number or
encoding) hand the LNPBP-1 commitment the same key set, so when both calls succeed they are
rewritten with the same tweaked key and record the same tweaking factor. -/
theorem embedCommit_same_points {c₁ c₂ : LockscriptContainer Pt Script} {msg : List UInt8}
    {s₁ s₂ : Script} {ms₁ ms₂ : Miniscript (PublicKey Pt) H}
    (hp₁ : B.parse c₁.script = some ms₁) (hp₂ : B.parse c₂.script = some ms₂)
    (hpub : c₁.pubkey = c₂.pubkey) (htag : c₁.tag = c₂.tag)
    (hpts : ms₁.keys.toFinset.image PublicKey.key = ms₂.keys.toFinset.image PublicKey.key)
    (h₁ : (embedCommit B c₁ msg).1 = .ok s₁) (h₂ : (embedCommit B c₂ msg).1 = .ok s₂) :
    ∃ tweaked kc,
      B.keysetCommit ⟨c₁.pubkey, ms₁.keys.toFinset.image PublicKey.key, c₁.tag, none⟩ msg =
        (.ok tweaked, kc) ∧
      s₁ = B.encode (rewrite B ms₁ c₁.pubkey tweaked) ∧
      s₂ = B.encode (rewrite B ms₂ c₂.pubkey tweaked) ∧
      (embedCommit B c₁ msg).2.tweakingFactor = kc.tweakingFactor ∧
      (embedCommit B c₂ msg).2.tweakingFactor = kc.tweakingFactor := by
  rcases embedCommit_cases B c₁ msg with ⟨_, he₁⟩ | ⟨ms₁', t₁, kc₁, hp₁', -, hc₁, he₁⟩
  · simp [he₁] at h₁
  rcases embedCommit_cases B c₂ msg with ⟨_, he₂⟩ | ⟨ms₂', t₂, kc₂, hp₂', -, hc₂, he₂⟩
  · simp [he₂] at h₂
  obtain rfl : ms₁ = ms₁' := Option.some.inj (hp₁.symm.trans hp₁')
  obtain rfl : ms₂ = ms₂' := Option.some.inj (hp₂.symm.trans hp₂')
  -- the second call hands the commitment the first call's input
  rw [← hpub, ← htag, ← hpts, hc₁, Prod.mk.injEq, Except.ok.injEq] at hc₂
  obtain ⟨rfl, rfl⟩ := hc₂
  rw [he₁, Except.ok.injEq] at h₁
  rw [he₂, Except.ok.injEq] at h₂
  exact ⟨t₁, kc₁, hc₁, h₁.symm, h₂.symm, by rw [he₁], by rw [he₂]⟩

/-- `c:pk_k(P)` with `P = 0` compressed. -/
def pkZero : Miniscript (PublicKey Nat) (PublicKey Nat) := .wrap .check (.pkK ⟨true, 0⟩)

/-- `and_v(v:pk(P),pk_h(hash160(P)))` with `P = 0` uncompressed in both leaves. -/
def keyAndOwnHashUncompressed : Miniscript (PublicKey Nat) (PublicKey Nat) :=
  .binary .andV (.wrap .verify (.wrap .check (.pkK ⟨false, 0⟩))) (.wrap .check (.pkH ⟨false, 0⟩))

/-- The keys of a rewrite lie off `pubkey`'s point when `tweaked` does. -/
theorem rewrite_keys_ne {ms : Miniscript (PublicKey Pt) H} {pubkey tweaked : Pt}
    (hne : tweaked ≠ pubkey) : ∀ k ∈ (rewrite B ms pubkey tweaked).keys, k.key ≠ pubkey := by
  simp only [rewrite, Miniscript.keys_translatePk, List.mem_map]
  rintro _ ⟨k, -, rfl⟩
  unfold tweakKey
  split_ifs with hk
  · exact hne
  · exact hk

/-- **A `pk_h` of `P` uncompressed survives the commitment, while keys on `P`'s point do not.**
The hash callback replaces only hash160 of `P` compressed; the key callback replaces `P` by
its point, in either encoding, and the doc comment of `embed_commit` has both encodings be the
same key.  So whenever `embed_commit` succeeds on a script with a `pk_h` holding hash160 of
`P` uncompressed (a hash other than that of `P` compressed), the script it returns still holds
that `pk_h`, which `P` satisfies, although none of its keys is on `P`'s point once `P' ≠ P`. -/
theorem embedCommit_keeps_uncompressed_hash {c : LockscriptContainer Pt Script}
    {msg : List UInt8} {s : Script} {ms : Miniscript (PublicKey Pt) H}
    (hp : B.parse c.script = some ms) (hmem : B.pubkeyHash ⟨false, c.pubkey⟩ ∈ ms.hashes)
    (hne : B.pubkeyHash ⟨false, c.pubkey⟩ ≠ B.pubkeyHash ⟨true, c.pubkey⟩)
    (h : (embedCommit B c msg).1 = .ok s) :
    ∃ tweaked kc,
      B.keysetCommit ⟨c.pubkey, ms.keys.toFinset.image PublicKey.key, c.tag, none⟩ msg =
        (.ok tweaked, kc) ∧
      s = B.encode (rewrite B ms c.pubkey tweaked) ∧
      B.pubkeyHash ⟨false, c.pubkey⟩ ∈ (rewrite B ms c.pubkey tweaked).hashes ∧
      (tweaked ≠ c.pubkey → ∀ k ∈ (rewrite B ms c.pubkey tweaked).keys, k.key ≠ c.pubkey) := by
  rcases embedCommit_cases B c msg with ⟨_, he⟩ | ⟨ms₁, tweaked, kc, hp₁, -, hc, he⟩
  · simp [he] at h
  obtain rfl : ms = ms₁ := Option.some.inj (hp.symm.trans hp₁)
  rw [he] at h
  refine ⟨tweaked, kc, hc, (Except.ok.inj h).symm, ?_, rewrite_keys_ne B⟩
  simp only [rewrite, Miniscript.hashes_translatePk, List.mem_map]
  exact ⟨_, hmem, if_neg hne⟩

theorem embedCommit_keeps_uncompressed_hash_pkZero :
    toyBackend.pubkeyHash ⟨false, 0⟩ ∈ keyAndOwnHashUncompressed.hashes ∧
    toyBackend.pubkeyHash ⟨false, 0⟩ ≠ toyBackend.pubkeyHash ⟨true, 0⟩ ∧
    ∃ tweaked kc,
      toyBackend.keysetCommit ⟨0, keyAndOwnHashUncompressed.keys.toFinset.image PublicKey.key,
        (toyContainer keyAndOwnHashUncompressed).tag, none⟩ [] = (.ok tweaked, kc) ∧
      .binary .andV (.wrap .verify (.wrap .check (.pkK ⟨true, 1⟩)))
          (.wrap .check (.pkH ⟨false, 0⟩)) =
        toyBackend.encode (rewrite toyBackend keyAndOwnHashUncompressed 0 tweaked) ∧
      toyBackend.pubkeyHash ⟨false, 0⟩ ∈
        (rewrite toyBackend keyAndOwnHashUncompressed 0 tweaked).hashes ∧
      (tweaked ≠ 0 →
        ∀ k ∈ (rewrite toyBackend keyAndOwnHashUncompressed 0 tweaked).keys, k.key ≠ 0) :=
  ⟨by decide, by decide, @embedCommit_keeps_uncompressed_hash _ _ _ _ _ toyBackend
    (toyContainer keyAndOwnHashUncompressed) [] _ keyAndOwnHashUncompressed rfl (by decide)
    (by decide) rfl⟩

/-! ### The checks -/

/-- A script with neither keys nor key hashes is rejected with `LockscriptContainsNoKeys`. -/
theorem embedCommit_no_keys {c : LockscriptContainer Pt Script} (msg : List UInt8)
    {ms : Miniscript (PublicKey Pt) H} (hp : B.parse c.script = some ms) (hk : ms.keys = [])
    (hh : ms.hashes = []) : embedCommit B c msg = (.error .lockscriptContainsNoKeys, c) :=
  embedCommit_of_checkKeys_error B c msg hp (by simp [checkKeys, hk, hh])

/-- The checks reject keys without hashes, none on `pubkey`'s point, as `LockscriptKeyNotFound`. -/
theorem checkKeys_key_not_found {pubkey : Pt} {ms : Miniscript (PublicKey Pt) H}
    (hk : ms.keys ≠ []) (hh : ms.hashes = []) (hkey : ∀ k ∈ ms.keys, k.key ≠ pubkey) :
    checkKeys B (B.pubkeyHash ⟨true, pubkey⟩) pubkey ms.keys.toFinset ms.hashes.toFinset =
      .error .lockscriptKeyNotFound := by
  have hpk : pubkey ∉ ms.keys.toFinset.image PublicKey.key := by
    simpa using hkey
  simp [checkKeys, hk, hh, hpk]

/-- A script with keys but no key hashes, none of its keys on `P`'s point, is rejected with
`LockscriptKeyNotFound`. -/
theorem embedCommit_key_not_found {c : LockscriptContainer Pt Script} (msg : List UInt8)
    {ms : Miniscript (PublicKey Pt) H} (hp : B.parse c.script = some ms) (hk : ms.keys ≠ [])
    (hh : ms.hashes = []) (hkey : ∀ k ∈ ms.keys, k.key ≠ c.pubkey) :
    embedCommit B c msg = (.error .lockscriptKeyNotFound, c) :=
  embedCommit_of_checkKeys_error B c msg hp (checkKeys_key_not_found B hk hh hkey)

/-- A key hash that is the hash of no key of the script and not the hash of `P` compressed is
rejected with `LockscriptContainsUnknownHashes`. -/
theorem embedCommit_unknown_hash {c : LockscriptContainer Pt Script} (msg : List UInt8)
    {ms : Miniscript (PublicKey Pt) H} (hp : B.parse c.script = some ms) {hash : H}
    (hmem : hash ∈ ms.hashes) (hkey : ∀ k ∈ ms.keys, B.pubkeyHash k ≠ hash)
    (horig : hash ≠ B.pubkeyHash ⟨true, c.pubkey⟩) :
    embedCommit B c msg = (.error .lockscriptContainsUnknownHashes, c) := by
  refine embedCommit_of_checkKeys_error B c msg hp ?_
  have hne : ms.hashes.toFinset ≠ ∅ := by simpa using List.ne_nil_of_mem hmem
  have hbad : ∃ h ∈ ms.hashes.toFinset,
      h ∉ insert (B.pubkeyHash ⟨true, c.pubkey⟩) (ms.keys.toFinset.image B.pubkeyHash) :=
    ⟨hash, by simpa using hmem, by simpa [horig] using hkey⟩
  simp only [checkKeys, hne, and_false, if_false, hbad, if_true]

/-- The checks pass on a parsed script exactly when, if it has no key hashes, one of its keys
is on `pubkey`'s point, and each of its hashes is the hash of `pubkey` compressed or of one of
its keys; the key set is then the points of its keys. -/
theorem checkKeys_toFinset_eq_ok_iff {pubkey : Pt} {ms : Miniscript (PublicKey Pt) H}
    {points : Finset Pt} :
    checkKeys B (B.pubkeyHash ⟨true, pubkey⟩) pubkey ms.keys.toFinset ms.hashes.toFinset =
        .ok points ↔
      points = ms.keys.toFinset.image PublicKey.key ∧
        (ms.hashes = [] → ∃ k ∈ ms.keys, k.key = pubkey) ∧
        ∀ hash ∈ ms.hashes, hash = B.pubkeyHash ⟨true, pubkey⟩ ∨
          ∃ k ∈ ms.keys, B.pubkeyHash k = hash := by
  simp only [checkKeys_eq_ok, List.toFinset_eq_empty_iff, Finset.mem_image, List.mem_toFinset,
    Finset.mem_insert]
  refine ⟨fun ⟨hp, _, hkey, hhash⟩ => ⟨hp, hkey, hhash⟩,
    fun ⟨hp, hkey, hhash⟩ => ⟨hp, ?_, hkey, hhash⟩⟩
  rintro ⟨hk, hh⟩
  obtain ⟨k, hmem, -⟩ := hkey hh
  simp [hk] at hmem

/-- The checks fail on a parsed script in three ways: neither keys nor key hashes; keys, no
hashes, and no key on `pubkey`'s point; or a hash that is neither the hash of `pubkey`
compressed nor the hash of one of the script's keys. -/
theorem checkKeys_toFinset_eq_error_iff {pubkey : Pt} {ms : Miniscript (PublicKey Pt) H}
    {e : Error} :
    checkKeys B (B.pubkeyHash ⟨true, pubkey⟩) pubkey ms.keys.toFinset ms.hashes.toFinset =
        .error e ↔
      (ms.keys = [] ∧ ms.hashes = [] ∧ e = .lockscriptContainsNoKeys) ∨
      (ms.keys ≠ [] ∧ ms.hashes = [] ∧ (∀ k ∈ ms.keys, k.key ≠ pubkey) ∧
        e = .lockscriptKeyNotFound) ∨
      ((∃ hash ∈ ms.hashes, hash ≠ B.pubkeyHash ⟨true, pubkey⟩ ∧
        ∀ k ∈ ms.keys, B.pubkeyHash k ≠ hash) ∧ e = .lockscriptContainsUnknownHashes) := by
  simp only [checkKeys, List.toFinset_eq_empty_iff, Finset.mem_image, List.mem_toFinset,
    Finset.mem_insert]
  split_ifs with h₀ h₁ h₂ h₃
  · simp [h₀, eq_comm]
  · -- no hashes, and a key on `pubkey`'s point
    refine iff_of_false (by simp) ?_
    rintro (⟨hk, hh, -⟩ | ⟨-, -, hkey, -⟩ | ⟨⟨hash, hmem, -⟩, -⟩)
    · exact h₀ ⟨hk, hh⟩
    · obtain ⟨k, hk, rfl⟩ := h₂
      exact hkey k hk rfl
    · simp [h₁] at hmem
  · -- no hashes and no key on `pubkey`'s point
    have hk : ms.keys ≠ [] := fun hk => h₀ ⟨hk, h₁⟩
    push_neg at h₂
    simp only [Except.error.injEq, h₁, hk, List.not_mem_nil, false_and, exists_false, and_false,
      ne_eq, not_false_eq_true, true_and, false_or, or_false]
    exact ⟨fun h => ⟨h₂, h.symm⟩, fun h => h.2.symm⟩
  · -- a hash the checks do not know
    push_neg at h₃
    simp only [Except.error.injEq, h₁, and_false, false_and, false_or]
    exact ⟨fun h => ⟨h₃, h.symm⟩, fun h => h.2.symm⟩
  · -- every hash known
    push_neg at h₃
    simp only [reduceCtorEq, false_iff, h₁, and_false, false_and, false_or, not_and]
    rintro ⟨hash, hmem, hne, hkey⟩ -
    obtain h | ⟨k, hk, rfl⟩ := h₃ hash hmem
    · exact hne h
    · exact hkey k hk rfl

/-- **Every way `embed_commit` fails**: the script does not parse (`LockscriptParseError`);
it has neither keys nor key hashes (`LockscriptContainsNoKeys`); it has keys, no hashes, and
no key on `P`'s point (`LockscriptKeyNotFound`); one of its hashes is neither the hash of `P`
compressed nor the hash of one of its keys (`LockscriptContainsUnknownHashes`); or it passes
the checks and the LNPBP-1 commitment on the points of its keys fails, with that error. -/
theorem embedCommit_eq_error_iff {c : LockscriptContainer Pt Script} {msg : List UInt8}
    {e : Error} :
    (embedCommit B c msg).1 = .error e ↔
      (B.parse c.script = none ∧ e = .lockscriptParseError) ∨
      ∃ ms, B.parse c.script = some ms ∧
        (((ms.keys = [] ∧ ms.hashes = [] ∧ e = .lockscriptContainsNoKeys) ∨
          (ms.keys ≠ [] ∧ ms.hashes = [] ∧ (∀ k ∈ ms.keys, k.key ≠ c.pubkey) ∧
            e = .lockscriptKeyNotFound) ∨
          ((∃ hash ∈ ms.hashes, hash ≠ B.pubkeyHash ⟨true, c.pubkey⟩ ∧
            ∀ k ∈ ms.keys, B.pubkeyHash k ≠ hash) ∧ e = .lockscriptContainsUnknownHashes)) ∨
        ((ms.hashes = [] → ∃ k ∈ ms.keys, k.key = c.pubkey) ∧
          (∀ hash ∈ ms.hashes, hash = B.pubkeyHash ⟨true, c.pubkey⟩ ∨
            ∃ k ∈ ms.keys, B.pubkeyHash k = hash) ∧
          (B.keysetCommit ⟨c.pubkey, ms.keys.toFinset.image PublicKey.key, c.tag, none⟩ msg).1 =
            .error e)) := by
  cases hp : B.parse c.script with
  | none =>
    simp only [embedCommit_of_parse_none B c msg hp, Except.error.injEq, true_and, reduceCtorEq,
      false_and, exists_false, or_false]
    exact eq_comm
  | some ms =>
    simp only [reduceCtorEq, false_and, Option.some.injEq, exists_eq_left', false_or]
    rw [← checkKeys_toFinset_eq_error_iff B]
    cases hk : checkKeys B (B.pubkeyHash ⟨true, c.pubkey⟩) c.pubkey ms.keys.toFinset
        ms.hashes.toFinset with
    | error e' =>
      -- the checks fail, so they do not pass
      have hpass : ¬((ms.hashes = [] → ∃ k ∈ ms.keys, k.key = c.pubkey) ∧
          ∀ hash ∈ ms.hashes, hash = B.pubkeyHash ⟨true, c.pubkey⟩ ∨
            ∃ k ∈ ms.keys, B.pubkeyHash k = hash) := fun ⟨h₁, h₂⟩ =>
        nomatch hk.symm.trans ((checkKeys_toFinset_eq_ok_iff B).mpr ⟨rfl, h₁, h₂⟩)
      rw [embedCommit_of_checkKeys_error B c msg hp hk, or_iff_left fun h => hpass ⟨h.1, h.2.1⟩]
      simp
    | ok points =>
      -- the checks pass, so the result is the key-set commitment's
      obtain ⟨rfl, h₁, h₂⟩ := (checkKeys_toFinset_eq_ok_iff B).mp hk
      simp only [reduceCtorEq, false_or]
      rw [and_iff_right h₁, and_iff_right h₂]
      rcases hc : B.keysetCommit ⟨c.pubkey, ms.keys.toFinset.image PublicKey.key, c.tag, none⟩ msg
        with ⟨e' | tweaked, kc⟩
      · simp [(embedCommit_of_keysetCommit B c hp hk).1 e' hc]
      · simp [(embedCommit_of_keysetCommit B c hp hk).2 tweaked hc]

/-- A rewrite whose callbacks match no leaf returns the tree. -/
theorem rewrite_eq_self {ms : Miniscript (PublicKey Pt) H} {pubkey tweaked : Pt}
    (hkeys : ∀ k ∈ ms.keys, k.key ≠ pubkey) (horig : B.pubkeyHash ⟨true, pubkey⟩ ∉ ms.hashes) :
    rewrite B ms pubkey tweaked = ms := by
  calc rewrite B ms pubkey tweaked = ms.translatePk id id :=
        Miniscript.translatePk_congr ms (fun k hk => if_neg (hkeys k hk))
          (fun h hh => if_neg (by rintro rfl; exact horig hh))
    _ = ms := Miniscript.translatePk_id ms

/-- **A script whose key hashes all belong to its own keys is committed to without naming
`P`**: when the script has `pk_h` leaves, each the hash of one of its keys, and has neither a
key on `P`'s point nor the hash of `P` compressed, the checks pass (the branch for scripts
with hashes never looks for `P`), and once the key-set commitment succeeds `embed_commit`
returns the script re-encoded with nothing replaced. -/
theorem embedCommit_ok_unreferenced {c : LockscriptContainer Pt Script} {msg : List UInt8}
    {ms : Miniscript (PublicKey Pt) H} {tweaked : Pt} {kc : KeysetContainer Pt}
    (hp : B.parse c.script = some ms) (hh : ms.hashes ≠ [])
    (hres : ∀ h ∈ ms.hashes, ∃ k ∈ ms.keys, B.pubkeyHash k = h)
    (hkeys : ∀ k ∈ ms.keys, k.key ≠ c.pubkey)
    (horig : B.pubkeyHash ⟨true, c.pubkey⟩ ∉ ms.hashes)
    (hc : B.keysetCommit ⟨c.pubkey, ms.keys.toFinset.image PublicKey.key, c.tag, none⟩ msg =
      (.ok tweaked, kc)) :
    embedCommit B c msg = (.ok (B.encode ms), { c with tweakingFactor := kc.tweakingFactor }) := by
  have hk : checkKeys B (B.pubkeyHash ⟨true, c.pubkey⟩) c.pubkey ms.keys.toFinset
      ms.hashes.toFinset = .ok (ms.keys.toFinset.image PublicKey.key) := by
    refine (checkKeys_eq_ok B).mpr ⟨rfl, fun h => hh (by simpa using h.2), fun h => ?_, ?_⟩
    · exact absurd (by simpa using h) hh
    · intro hash hmem
      obtain ⟨k, hk, rfl⟩ := hres hash (by simpa using hmem)
      exact Finset.mem_insert_of_mem (Finset.mem_image_of_mem _ (by simpa using hk))
  rw [(embedCommit_of_keysetCommit B c hp hk).2 tweaked hc, rewrite_eq_self B hkeys horig]

/-- `and_v(v:pk(K1),pk_h(hash160(K1)))` with `K1 = 1` compressed: a key and its own hash. -/
def keyAndOwnHash : Miniscript (PublicKey Nat) (PublicKey Nat) :=
  .binary .andV (.wrap .verify (.wrap .check (.pkK ⟨true, 1⟩))) (.wrap .check (.pkH ⟨true, 1⟩))

theorem embedCommit_ok_key_and_own_hash :
    (∀ k ∈ keyAndOwnHash.keys, k.key ≠ 0) ∧
    toyBackend.pubkeyHash ⟨true, 0⟩ ∉ keyAndOwnHash.hashes ∧
    toyBackend.pubkeyHash ⟨false, 0⟩ ∉ keyAndOwnHash.hashes ∧
    embedCommit toyBackend (toyContainer keyAndOwnHash) [] =
      (.ok keyAndOwnHash,
        { toyContainer keyAndOwnHash with tweakingFactor := some ⟨List.replicate 32 0, rfl⟩ }) :=
  ⟨by decide, by decide, by decide,
    embedCommit_ok_unreferenced toyBackend rfl (by decide) (by decide) (by decide) (by decide) rfl⟩

end Engine

end BpCore.Lockscript
