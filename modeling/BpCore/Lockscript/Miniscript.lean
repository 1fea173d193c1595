import Mathlib.Data.List.Basic

/-!
# Miniscript trees and the leaf rewrite

`LockscriptCommitment::embed_commit` reads a lock script only through two operations of
`bitcoin_scripts::LockScript`: `extract_pubkey_hash_set`, which parses the script as a
Miniscript and collects its public keys (`pk_k`, `multi`) and public-key hashes (`pk_h`),
and `replace_pubkeys_and_hashes`, which parses it and rewrites those leaves with two
callbacks (`Miniscript::translate_pk`).  Neither that crate nor rust-miniscript is part of
the sources; the spec fixes what the engine consumes of them (§1, §9: the set of keys, the
set of `pk_h` hashes, and the rewrite of those occurrences).  This file models the parsed
script and the two traversals.

* `Miniscript` — the fragments of a Segwit v0 Miniscript (`Terminal`), generic in the key
  type and the key-hash type, with the induction principle `Miniscript.induction` and the
  derived equality `beq`, which decides `=` (`beq_iff`);
* `keys` / `hashes` — `iter_pk_pkh`, split by the kind of item;
* `translatePk` — `translate_pk` with a key callback and a key-hash callback;
* `keys_translatePk`, `hashes_translatePk`, `skeleton_translatePk` — **the rewrite maps
  every key leaf by the key callback and every key-hash leaf by the hash callback, in
  place, and keeps everything else of the tree**;
* `translatePk_congr`, `translatePk_eq_iff`, `translatePk_id` — **two rewrites of a tree
  agree exactly when their callbacks agree on its leaves**, so callbacks that fix every leaf
  return the tree unchanged.
-/

namespace BpCore.Lockscript

/-- The wrappers `a:`, `s:`, `c:`, `d:`, `v:`, `j:`, `n:`. -/
inductive Wrapper where
  | alt | swap | check | dupIf | verify | nonZero | zeroNotEqual
  deriving DecidableEq, Repr

/-- The two-argument fragments `and_v`, `and_b`, `or_b`, `or_d`, `or_c`, `or_i`. -/
inductive Binary where
  | andV | andB | orB | orD | orC | orI
  deriving DecidableEq, Repr

/-- The preimage locks `sha256`, `hash256`, `ripemd160` and `hash160`.  A `hash160` lock
holds a 20-byte digest like `pk_h` does, but it is no key hash: no callback touches it. -/
inductive HashLock where
  | sha256 | hash256 | ripemd160 | hash160
  deriving DecidableEq, Repr

/-- Modelled from the spec: rust-miniscript's `Terminal` (absent from the sources), the
fragments of a Segwit v0 Miniscript, with `Pk` its key type and `H` its key-hash type
(`Pk::Hash`). -/
inductive Miniscript (Pk H : Type) where
  | «true»
  | «false»
  | pkK (pk : Pk)
  | pkH (hash : H)
  | after (n : UInt32)
  | older (n : UInt32)
  | hashLock (kind : HashLock) (digest : List UInt8)
  | wrap (wrapper : Wrapper) (sub : Miniscript Pk H)
  | binary (op : Binary) (left right : Miniscript Pk H)
  | andOr (cond left right : Miniscript Pk H)
  | thresh (k : Nat) (subs : List (Miniscript Pk H))
  | multi (k : Nat) (keys : List Pk)
  deriving Repr

namespace Miniscript

variable {Pk H Q G R J : Type}

/-- Induction over a Miniscript, with every sub-script of a `thresh` as a hypothesis. -/
@[elab_as_elim, induction_eliminator]
theorem induction {motive : Miniscript Pk H → Prop}
    (true : motive .true) (false : motive .false) (pkK : ∀ pk, motive (.pkK pk))
    (pkH : ∀ hash, motive (.pkH hash)) (after : ∀ n, motive (.after n))
    (older : ∀ n, motive (.older n))
    (hashLock : ∀ kind digest, motive (.hashLock kind digest))
    (wrap : ∀ w sub, motive sub → motive (.wrap w sub))
    (binary : ∀ op l r, motive l → motive r → motive (.binary op l r))
    (andOr : ∀ a b c, motive a → motive b → motive c → motive (.andOr a b c))
    (thresh : ∀ k subs, (∀ s ∈ subs, motive s) → motive (.thresh k subs))
    (multi : ∀ k keys, motive (.multi k keys)) (t : Miniscript Pk H) : motive t :=
  @Miniscript.rec Pk H motive (fun subs => ∀ s ∈ subs, motive s) true false pkK pkH after
    older hashLock wrap binary andOr thresh multi
    (fun _ h => absurd h (List.not_mem_nil _))
    (fun _ _ hs hss _ hx => (List.mem_cons.mp hx).elim (fun h => h ▸ hs) (hss _)) t

/-! ### Equality -/

section Equality

variable [DecidableEq Pk] [DecidableEq H]

/-- The derived `PartialEq` of `Terminal`: the same fragment with equal fields. -/
def beq : Miniscript Pk H → Miniscript Pk H → Bool
  | .true, t => match t with | .true => Bool.true | _ => Bool.false
  | .false, t => match t with | .false => Bool.true | _ => Bool.false
  | .pkK pk, t => match t with | .pkK pk' => pk = pk' | _ => Bool.false
  | .pkH hash, t => match t with | .pkH hash' => hash = hash' | _ => Bool.false
  | .after n, t => match t with | .after n' => n = n' | _ => Bool.false
  | .older n, t => match t with | .older n' => n = n' | _ => Bool.false
  | .hashLock kind digest, t => match t with
    | .hashLock kind' digest' => kind = kind' && digest = digest' | _ => Bool.false
  | .wrap w sub, t => match t with | .wrap w' sub' => w = w' && beq sub sub' | _ => Bool.false
  | .binary op l r, t => match t with
    | .binary op' l' r' => op = op' && beq l l' && beq r r' | _ => Bool.false
  | .andOr a b c, t => match t with
    | .andOr a' b' c' => beq a a' && beq b b' && beq c c' | _ => Bool.false
  | .thresh k subs, t => match t with
    | .thresh k' subs' => k = k' && beqList subs subs' | _ => Bool.false
  | .multi k ks, t => match t with | .multi k' ks' => k = k' && ks = ks' | _ => Bool.false
where
  /-- The equality of the sub-scripts of two `thresh`es, element by element. -/
  beqList : List (Miniscript Pk H) → List (Miniscript Pk H) → Bool
    | [], ss' => ss'.isEmpty
    | s :: ss, ss' => match ss' with
      | s' :: ss' => beq s s' && beqList ss ss'
      | [] => Bool.false

theorem beq_iff (t t' : Miniscript Pk H) : beq t t' = Bool.true ↔ t = t' := by
  induction t generalizing t' with
  | thresh k subs ih =>
    cases t' with
    | thresh k' subs' =>
      simp only [beq, thresh.injEq, Bool.and_eq_true, decide_eq_true_eq]
      suffices beq.beqList subs subs' = Bool.true ↔ subs = subs' by rw [this]
      induction subs generalizing subs' with
      | nil => cases subs' <;> simp [beq.beqList]
      | cons s ss ihs =>
        cases subs' with
        | nil => simp [beq.beqList]
        | cons s' ss' =>
          simp only [beq.beqList, Bool.and_eq_true, List.cons.injEq, ih s (List.mem_cons_self _ _),
            ihs (fun t ht => ih t (List.mem_cons_of_mem _ ht))]
    | _ => exact iff_of_false Bool.false_ne_true Miniscript.noConfusion
  | _ =>
    -- fragments of two kinds are unequal and `beq` says so; one kind compares the fields
    cases t' <;> first
      | exact iff_of_false Bool.false_ne_true Miniscript.noConfusion
      | simp_all [beq, and_assoc]

instance : DecidableEq (Miniscript Pk H) := fun t t' => decidable_of_iff _ (beq_iff t t')

example : Miniscript.thresh 1 [.pkK (2 : Nat), .wrap .check (.pkK 3)] ≠
    (Miniscript.thresh 1 [.pkK 2, .wrap .check (.pkK 4)] : Miniscript Nat Nat) := by decide

end Equality

/-! ### The leaves -/

/-- The public keys of `iter_pk_pkh` (`PkPkh::PlainPubkey`): the `pk_k` leaves and the keys
of every `multi`, in the order of the tree. -/
def keys : Miniscript Pk H → List Pk
  | pkK pk => [pk]
  | wrap _ sub => keys sub
  | binary _ l r => keys l ++ keys r
  | andOr a b c => keys a ++ keys b ++ keys c
  | thresh _ subs => keysList subs
  | multi _ ks => ks
  | _ => []
where
  /-- The keys of the sub-scripts of a `thresh`. -/
  keysList : List (Miniscript Pk H) → List Pk
    | [] => []
    | s :: ss => keys s ++ keysList ss

/-- The key hashes of `iter_pk_pkh` (`PkPkh::HashedPubkey`): the `pk_h` leaves. -/
def hashes : Miniscript Pk H → List H
  | pkH hash => [hash]
  | wrap _ sub => hashes sub
  | binary _ l r => hashes l ++ hashes r
  | andOr a b c => hashes a ++ hashes b ++ hashes c
  | thresh _ subs => hashesList subs
  | _ => []
where
  /-- The key hashes of the sub-scripts of a `thresh`. -/
  hashesList : List (Miniscript Pk H) → List H
    | [] => []
    | s :: ss => hashes s ++ hashesList ss

@[simp] theorem keysList_eq (subs : List (Miniscript Pk H)) :
    keys.keysList subs = subs.flatMap keys := by
  induction subs with
  | nil => rfl
  | cons s ss ih => simp [keys.keysList, ih]

@[simp] theorem hashesList_eq (subs : List (Miniscript Pk H)) :
    hashes.hashesList subs = subs.flatMap hashes := by
  induction subs with
  | nil => rfl
  | cons s ss ih => simp [hashes.hashesList, ih]

/-! ### The rewrite -/

/-- `Miniscript::translate_pk(fpk, fpkh)`: every `pk_k` and `multi` key through `fpk`, every
`pk_h` hash through `fpkh`, everything else as it is. -/
def translatePk (fpk : Pk → Q) (fpkh : H → G) : Miniscript Pk H → Miniscript Q G
  | .true => .true
  | .false => .false
  | pkK pk => pkK (fpk pk)
  | pkH hash => pkH (fpkh hash)
  | after n => after n
  | older n => older n
  | hashLock kind digest => hashLock kind digest
  | wrap w sub => wrap w (translatePk fpk fpkh sub)
  | binary op l r => binary op (translatePk fpk fpkh l) (translatePk fpk fpkh r)
  | andOr a b c => andOr (translatePk fpk fpkh a) (translatePk fpk fpkh b) (translatePk fpk fpkh c)
  | thresh k subs => thresh k (translateList subs)
  | multi k ks => multi k (ks.map fpk)
where
  /-- The rewrite of the sub-scripts of a `thresh`. -/
  translateList : List (Miniscript Pk H) → List (Miniscript Q G)
    | [] => []
    | s :: ss => translatePk fpk fpkh s :: translateList ss

@[simp] theorem translateList_eq (fpk : Pk → Q) (fpkh : H → G) (subs : List (Miniscript Pk H)) :
    translatePk.translateList fpk fpkh subs = subs.map (translatePk fpk fpkh) := by
  induction subs with
  | nil => rfl
  | cons s ss ih => simp [translatePk.translateList, ih]

/-- The shape of a tree: the tree with every key and key hash forgotten. -/
def skeleton (t : Miniscript Pk H) : Miniscript Unit Unit :=
  t.translatePk (fun _ => ()) (fun _ => ())

/-- The keys of a rewritten tree are the keys of the tree, each through the key callback. -/
theorem keys_translatePk (fpk : Pk → Q) (fpkh : H → G) (t : Miniscript Pk H) :
    (t.translatePk fpk fpkh).keys = t.keys.map fpk := by
  induction t with
  | wrap w sub ih => exact ih
  | binary op l r ihl ihr => simp only [translatePk, keys, ihl, ihr, List.map_append]
  | andOr a b c iha ihb ihc => simp only [translatePk, keys, iha, ihb, ihc, List.map_append]
  | thresh k subs ih =>
    simp only [translatePk, keys, translateList_eq, keysList_eq, List.flatMap_map,
      List.map_flatMap]
    exact List.flatMap_congr ih
  | _ => rfl

/-- The key hashes of a rewritten tree are its key hashes, each through the hash callback. -/
theorem hashes_translatePk (fpk : Pk → Q) (fpkh : H → G) (t : Miniscript Pk H) :
    (t.translatePk fpk fpkh).hashes = t.hashes.map fpkh := by
  induction t with
  | wrap w sub ih => exact ih
  | binary op l r ihl ihr => simp only [translatePk, hashes, ihl, ihr, List.map_append]
  | andOr a b c iha ihb ihc => simp only [translatePk, hashes, iha, ihb, ihc, List.map_append]
  | thresh k subs ih =>
    simp only [translatePk, hashes, translateList_eq, hashesList_eq, List.flatMap_map,
      List.map_flatMap]
    exact List.flatMap_congr ih
  | _ => rfl

/-- Two rewrites in a row are one rewrite with the composed callbacks. -/
theorem translatePk_translatePk (fpk : Pk → Q) (fpkh : H → G) (gpk : Q → R) (gpkh : G → J)
    (t : Miniscript Pk H) :
    (t.translatePk fpk fpkh).translatePk gpk gpkh = t.translatePk (gpk ∘ fpk) (gpkh ∘ fpkh) := by
  induction t with
  | wrap w sub ih => simp [translatePk, ih]
  | binary op l r ihl ihr => simp [translatePk, ihl, ihr]
  | andOr a b c iha ihb ihc => simp [translatePk, iha, ihb, ihc]
  | thresh k subs ih =>
    simp only [translatePk, translateList_eq, List.map_map, thresh.injEq, true_and]
    exact List.map_congr_left fun s hs => ih s hs
  | _ => simp [translatePk]

/-- **A rewrite keeps the shape of the tree.** -/
theorem skeleton_translatePk (fpk : Pk → Q) (fpkh : H → G) (t : Miniscript Pk H) :
    (t.translatePk fpk fpkh).skeleton = t.skeleton :=
  translatePk_translatePk fpk fpkh _ _ t

/-- The rewrite reads the callbacks only at the leaves of the tree. -/
theorem translatePk_congr {fpk fpk' : Pk → Q} {fpkh fpkh' : H → G} (t : Miniscript Pk H)
    (hk : ∀ k ∈ t.keys, fpk k = fpk' k) (hh : ∀ h ∈ t.hashes, fpkh h = fpkh' h) :
    t.translatePk fpk fpkh = t.translatePk fpk' fpkh' := by
  induction t with
  | pkK pk => simp_all [translatePk, keys]
  | pkH hash => simp_all [translatePk, hashes]
  | wrap w sub ih => simp_all [translatePk, keys, hashes]
  | binary op l r ihl ihr =>
    simp only [keys, hashes, List.mem_append] at hk hh
    simp only [translatePk, ihl (fun k h => hk k (.inl h)) (fun k h => hh k (.inl h)),
      ihr (fun k h => hk k (.inr h)) (fun k h => hh k (.inr h))]
  | andOr a b c iha ihb ihc =>
    simp only [keys, hashes, List.mem_append] at hk hh
    simp only [translatePk, iha (fun k h => hk k (.inl (.inl h))) (fun k h => hh k (.inl (.inl h))),
      ihb (fun k h => hk k (.inl (.inr h))) (fun k h => hh k (.inl (.inr h))),
      ihc (fun k h => hk k (.inr h)) (fun k h => hh k (.inr h))]
  | thresh k subs ih =>
    simp only [keys, hashes, keysList_eq, hashesList_eq, List.mem_flatMap] at hk hh
    simp only [translatePk, translateList_eq, thresh.injEq, true_and]
    exact List.map_congr_left fun s hs =>
      ih s hs (fun k h => hk k ⟨s, hs, h⟩) (fun k h => hh k ⟨s, hs, h⟩)
  | multi k ks => simp_all [translatePk, keys, List.map_congr_left]
  | _ => rfl

/-- **Two rewrites of a tree agree exactly when their callbacks agree on its leaves.** -/
theorem translatePk_eq_iff {fpk fpk' : Pk → Q} {fpkh fpkh' : H → G} (t : Miniscript Pk H) :
    t.translatePk fpk fpkh = t.translatePk fpk' fpkh' ↔
      (∀ k ∈ t.keys, fpk k = fpk' k) ∧ ∀ h ∈ t.hashes, fpkh h = fpkh' h := by
  refine ⟨fun h => ⟨?_, ?_⟩, fun h => translatePk_congr t h.1 h.2⟩
  · have hkeys := congrArg keys h
    rwa [keys_translatePk, keys_translatePk, List.map_inj_left] at hkeys
  · have hhashes := congrArg hashes h
    rwa [hashes_translatePk, hashes_translatePk, List.map_inj_left] at hhashes

theorem translatePk_id (t : Miniscript Pk H) : t.translatePk id id = t := by
  induction t with
  | wrap w sub ih => simp [translatePk, ih]
  | binary op l r ihl ihr => simp [translatePk, ihl, ihr]
  | andOr a b c iha ihb ihc => simp [translatePk, iha, ihb, ihc]
  | thresh k subs ih =>
    simp only [translatePk, translateList_eq, thresh.injEq, true_and]
    exact (List.map_congr_left ih).trans (List.map_id subs)
  | _ => simp [translatePk]

end Miniscript

end BpCore.Lockscript
