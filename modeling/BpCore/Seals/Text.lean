import BpCore.Seals.Numerals

/-!
# The text form of revealed seals

`Display for RevealedSeal` writes `method:txid_or_~:vout#0x<blinding>`
(`"{}:{}:{}#{:#010x}"`); `FromStr for RevealedSeal` splits its input at every `:` and
every `#`, matches the first five pieces against the arms of a `match` and parses the
fields with `TxoutMethod::from_str`, `Txid::from_str`, `u32::from_str` and
`u64::from_str_radix` after `trim_start_matches("0x")`.  Both are modelled on character
lists; `fromStr`/`toString` wrap them for `String`.

* `splitOnP_eq_cons`, `splitOnP_eq_four_iff` — a split into pieces is a decomposition at
  separator characters into separator-free pieces;
* `fromChars_of_split_four` — on a four-piece split, the arms of the parser in order;
* `fromStr_toString` — **every revealed seal reads back from its text form**;
* `fromStr_eq_ok_iff` — **the strings the parser accepts, and what it returns for them**;
* `fromStr_accepts_grammar` — every string of the spec's seal grammar is accepted;
* `fromStr_accepts_ruled_out_forms` — **for every seal, three texts outside that grammar,
  which the parser's own error messages rule out, read as the seal**: `:` in place of `#`,
  and a blinding written `0x0x…` or `0x+…`;
* `fromStr_accepts_plus_blinding`, `fromStr_accepts_outside_grammar` — the third of them at
  `tapret1st:~:5#0x+00000001` and the first at `tapret1st:~:5:0x1`.
-/

namespace BpCore.Seals

/-! ### Field texts -/

/-- `Display for TxoutMethod`. -/
def TxoutMethod.toChars : TxoutMethod → List Char
  | .opretFirst => "opret1st".toList
  | .tapretFirst => "tapret1st".toList

/-- `MethodParseError`: the rejected text. -/
structure MethodParseError where
  text : String
  deriving DecidableEq, Repr

/-- `str::to_lowercase` on ASCII letters.  No other character lowercases into the ASCII
letters of the method names, so on method names this is the Unicode mapping. -/
def toLowercase (s : List Char) : List Char := s.map Char.toLower

/-- `TxoutMethod::from_str`: the lowercased text against each method's `Display`; the error
carries the text as given. -/
def TxoutMethod.fromStr (s : List Char) : Except MethodParseError TxoutMethod :=
  if toLowercase s = TxoutMethod.opretFirst.toChars then .ok .opretFirst
  else if toLowercase s = TxoutMethod.tapretFirst.toChars then .ok .tapretFirst
  else .error ⟨String.mk s⟩

theorem TxoutMethod.fromStr_toChars (m : TxoutMethod) : TxoutMethod.fromStr m.toChars = .ok m := by
  cases m <;> rfl

/-- A lowercase hex digit. -/
def lowerHexDigit (c : Char) : Option Nat :=
  if 65 ≤ c.toNat ∧ c.toNat ≤ 90 then none else toDigit 16 c

/-- Pairs of lowercase hex digits as bytes. -/
def hexBytes : List Char → Option (List UInt8)
  | [] => some []
  | [_] => none
  | hi :: lo :: rest => do
    let h ← lowerHexDigit hi
    let l ← lowerHexDigit lo
    let bytes ← hexBytes rest
    pure (UInt8.ofNat (16 * h + l) :: bytes)

/-- Modelled from the spec: bp's `Display for Txid` (absent from the sources), 64 lowercase
hex characters (§6: `TXID := 64 lowercase hex chars`). -/
def Txid.toChars (txid : Txid) : List Char := bytesHex txid.inner.bytes

/-- Modelled from the spec: bp's `Txid::from_str` (absent from the sources), exactly 64
lowercase hex characters. -/
def Txid.fromChars (s : List Char) : Option Txid :=
  match hexBytes s with
  | some bytes => if h : bytes.length = 32 then some ⟨⟨bytes, h⟩⟩ else none
  | none => none

/-- bp's `Display for Vout`: the decimal `u32`. -/
def Vout.toChars (vout : Vout) : List Char := Nat.toDigits 10 vout.value.toNat

/-- bp's `Vout::from_str`: `u32::from_str`. -/
def Vout.fromChars (s : List Char) : Option Vout :=
  (fromStrRadix 10 0xFFFFFFFF s).map fun n => ⟨UInt32.ofNat n⟩

/-- `str::starts_with("0x")`. -/
def startsWith0x : List Char → Bool
  | '0' :: 'x' :: _ => true
  | _ => false

/-- `str::trim_start_matches("0x")`: strips every leading `0x`. -/
def trimStartMatches0x : List Char → List Char
  | '0' :: 'x' :: rest => trimStartMatches0x rest
  | s => s

/-- The blinding field: `u64::from_str_radix(blinding.trim_start_matches("0x"), 16)`. -/
def parseBlinding (blinding : List Char) : Option UInt64 :=
  (fromStrRadix 16 0xFFFFFFFFFFFFFFFF (trimStartMatches0x blinding)).map UInt64.ofNat

/-! ### The seal text -/

/-- `ParseError`, the errors `RevealedSeal::from_str` returns. -/
inductive ParseError where
  | methodRequired
  | txidRequired
  | blindingRequired
  | wrongMethod (err : MethodParseError)
  | wrongBlinding
  | wrongTxid
  | wrongVout
  | wrongStructure
  | nonHexBlinding
  deriving DecidableEq, Repr

/-- `.map_err(|_| err)` on a field parser. -/
def orErr {α : Type} (r : Option α) (err : ParseError) : Except ParseError α :=
  match r with
  | some a => .ok a
  | none => .error err

/-- The pattern `&[':', '#'][..]` of `str::split`. -/
def isSeparator (c : Char) : Bool := c = ':' || c = '#'

/-- The last two arms of `FromStr for RevealedSeal`, `(Some(method), Some("~"), Some(vout),
Some(blinding), None)` and `(Some(method), Some(txid), ..)`: the fields are parsed in the
order the struct literal lists them. -/
def RevealedSeal.fromFields (method txid vout blinding : List Char) :
    Except ParseError RevealedSeal :=
  if txid = ['~'] then do
    let method ← (TxoutMethod.fromStr method).mapError .wrongMethod
    let blinding ← orErr (parseBlinding blinding) .wrongBlinding
    let vout ← orErr (Vout.fromChars vout) .wrongVout
    pure { method, blinding, txid := none, vout }
  else do
    let method ← (TxoutMethod.fromStr method).mapError .wrongMethod
    let blinding ← orErr (parseBlinding blinding) .wrongBlinding
    let txid ← orErr (Txid.fromChars txid) .wrongTxid
    let vout ← orErr (Vout.fromChars vout) .wrongVout
    pure { method, blinding, txid := some txid, vout }

/-- `FromStr for RevealedSeal` on the characters of the input.  The guard of the
`NonHexBlinding` arm falls through to the two arms of the same shape after it. -/
def RevealedSeal.fromChars (s : List Char) : Except ParseError RevealedSeal :=
  let split := s.splitOnP isSeparator
  match split[0]?, split[1]?, split[2]?, split[3]?, split[4]? with
  | some ['~'], _, _, _, _ | some [], _, _, _, _ => .error .methodRequired
  | some _, some [], _, _, _ => .error .txidRequired
  | some _, some _, none, _, _ =>
    if ':' ∈ s then .error .blindingRequired else .error .wrongStructure
  | some method, some txid, some vout, some blinding, none =>
    if !startsWith0x blinding then .error .nonHexBlinding
    else RevealedSeal.fromFields method txid vout blinding
  | _, _, _, _, _ => .error .wrongStructure

/-- `Display for RevealedSeal`: `"{}:{}:{}#{:#010x}"`. -/
def RevealedSeal.toChars (r : RevealedSeal) : List Char :=
  r.method.toChars ++ ':' :: ((r.txid.map Txid.toChars).getD ['~'] ++ ':' ::
    (r.vout.toChars ++ '#' :: fmtHex010 r.blinding))

/-- `RevealedSeal::from_str`. -/
def RevealedSeal.fromStr (s : String) : Except ParseError RevealedSeal :=
  RevealedSeal.fromChars s.data

/-- `RevealedSeal::to_string`. -/
def RevealedSeal.toString (r : RevealedSeal) : String := ⟨r.toChars⟩

/-! ### Splitting at separators -/

section Split

variable {α : Type} {p : α → Bool}

/-- The first piece of a split is the separator-free prefix before the first separator;
the other pieces split what follows it. -/
theorem splitOnP_eq_cons {s x : List α} {xs : List (List α)} (h : s.splitOnP p = x :: xs) :
    (∀ c ∈ x, p c = false) ∧
      ((xs = [] ∧ s = x) ∨ ∃ c rest, p c = true ∧ s = x ++ c :: rest ∧ rest.splitOnP p = xs) := by
  induction s generalizing x xs with
  | nil => cases h; simp
  | cons a s ih =>
    rw [List.splitOnP_cons] at h
    cases hpa : p a
    · -- `a` continues the first piece
      obtain ⟨y, ys, hy⟩ := List.exists_cons_of_ne_nil (List.splitOnP_ne_nil p s)
      simp only [hpa, hy, Bool.false_eq_true, if_false, List.modifyHead_cons,
        List.cons.injEq] at h
      obtain ⟨rfl, rfl⟩ := h
      obtain ⟨hx, hrest⟩ := ih hy
      refine ⟨List.forall_mem_cons.mpr ⟨hpa, hx⟩, ?_⟩
      rcases hrest with ⟨rfl, rfl⟩ | ⟨c, rest, hc, rfl, hr⟩
      · exact .inl ⟨rfl, rfl⟩
      · exact .inr ⟨c, rest, hc, rfl, hr⟩
    · -- `a` ends the first piece
      simp only [hpa, if_true, List.cons.injEq] at h
      obtain ⟨rfl, rfl⟩ := h
      exact ⟨by simp, .inr ⟨a, s, hpa, rfl, rfl⟩⟩

/-- A split into exactly four pieces is a decomposition at three separators into four
separator-free pieces. -/
theorem splitOnP_eq_four_iff {s m t v b : List α} :
    s.splitOnP p = [m, t, v, b] ↔ ∃ c₁ c₂ c₃, p c₁ = true ∧ p c₂ = true ∧ p c₃ = true ∧
      (∀ c ∈ m ++ t ++ v ++ b, p c = false) ∧ s = m ++ c₁ :: (t ++ c₂ :: (v ++ c₃ :: b)) := by
  constructor
  · intro h
    obtain ⟨hm, ⟨h₀, -⟩ | ⟨c₁, r₁, h₁, rfl, e₁⟩⟩ := splitOnP_eq_cons h
    · cases h₀
    obtain ⟨ht, ⟨h₀, -⟩ | ⟨c₂, r₂, h₂, rfl, e₂⟩⟩ := splitOnP_eq_cons e₁
    · cases h₀
    obtain ⟨hv, ⟨h₀, -⟩ | ⟨c₃, r₃, h₃, rfl, e₃⟩⟩ := splitOnP_eq_cons e₂
    · cases h₀
    obtain ⟨hb, ⟨-, rfl⟩ | ⟨c₄, r₄, -, -, e₄⟩⟩ := splitOnP_eq_cons e₃
    · refine ⟨c₁, c₂, c₃, h₁, h₂, h₃, ?_, rfl⟩
      simp only [List.mem_append]
      rintro c (((hc | hc) | hc) | hc)
      exacts [hm c hc, ht c hc, hv c hc, hb c hc]
    · exact absurd e₄ (List.splitOnP_ne_nil p r₄)
  · rintro ⟨c₁, c₂, c₃, h₁, h₂, h₃, hsep, rfl⟩
    have free : ∀ l : List α, (∀ c ∈ l, c ∈ m ++ t ++ v ++ b) → ∀ c ∈ l, ¬p c = true :=
      fun l hl c hc => by
      simp [hsep c (hl c hc)]
    rw [List.splitOnP_first p m (free m (by simp +contextual)) c₁ h₁,
      List.splitOnP_first p t (free t (by simp +contextual)) c₂ h₂,
      List.splitOnP_first p v (free v (by simp +contextual)) c₃ h₃,
      List.splitOnP_eq_single p b (free b (by simp +contextual))]

end Split

/-! ### The parser on a split -/

/-- On a four-piece split the parser takes the arms of its `match` in order. -/
theorem fromChars_of_split_four {s m t v b : List Char}
    (h : s.splitOnP isSeparator = [m, t, v, b]) :
    RevealedSeal.fromChars s =
      if m = ['~'] ∨ m = [] then .error .methodRequired
      else if t = [] then .error .txidRequired
      else if !startsWith0x b then .error .nonHexBlinding
      else RevealedSeal.fromFields m t v b := by
  simp only [RevealedSeal.fromChars, h, List.getElem?_cons_zero, List.getElem?_cons_succ,
    List.getElem?_nil]
  split
  case h_6 hne => exact absurd rfl (hne m t v b rfl rfl rfl rfl)
  all_goals simp_all

/-- The parser succeeds only on four-piece splits. -/
theorem split_four_of_fromChars {s : List Char} {r : RevealedSeal}
    (h : RevealedSeal.fromChars s = .ok r) : ∃ m t v b, s.splitOnP isSeparator = [m, t, v, b] := by
  simp only [RevealedSeal.fromChars] at h
  rcases hs : s.splitOnP isSeparator with _ | ⟨m, _ | ⟨t, _ | ⟨v, _ | ⟨b, _ | ⟨e, rest⟩⟩⟩⟩⟩
  · exact absurd hs (List.splitOnP_ne_nil _ _)
  all_goals simp only [hs, List.getElem?_cons_zero, List.getElem?_cons_succ,
    List.getElem?_nil] at h
  all_goals first
    | exact ⟨m, t, v, b, rfl⟩
    | (split at h <;> first | contradiction | split_ifs at h)

theorem except_bind_eq_ok {ε α β : Type} {x : Except ε α} {f : α → Except ε β} {b : β} :
    x >>= f = .ok b ↔ ∃ a, x = .ok a ∧ f a = .ok b := by
  cases x <;> simp [bind, Except.bind]

theorem orErr_eq_ok {α : Type} {o : Option α} {e : ParseError} {a : α} :
    orErr o e = .ok a ↔ o = some a := by
  cases o <;> simp [orErr]

theorem mapError_eq_ok {ε ε' α : Type} {x : Except ε α} {f : ε → ε'} {a : α} :
    x.mapError f = .ok a ↔ x = .ok a := by
  cases x <;> simp [Except.mapError]

/-- The last two arms succeed exactly when every field parses, into the seal they name. -/
theorem fromFields_eq_ok_iff {m t v b : List Char} {r : RevealedSeal} :
    RevealedSeal.fromFields m t v b = .ok r ↔
      TxoutMethod.fromStr m = .ok r.method ∧ parseBlinding b = some r.blinding ∧
        Vout.fromChars v = some r.vout ∧
        (t = ['~'] ∧ r.txid = none ∨
          t ≠ ['~'] ∧ ∃ x, Txid.fromChars t = some x ∧ r.txid = some x) := by
  obtain ⟨rm, rt, rv, rb⟩ := r
  unfold RevealedSeal.fromFields
  split_ifs with ht <;>
    simp only [except_bind_eq_ok, orErr_eq_ok, mapError_eq_ok, pure, Except.pure,
      Except.ok.injEq, RevealedSeal.mk.injEq, ht, true_and, false_and, or_false, false_or,
      not_false_eq_true, ne_eq, not_true_eq_false] <;>
    constructor
  · rintro ⟨_, hm, _, hb, _, hv, rfl, rfl, rfl, rfl⟩; exact ⟨hm, hb, hv, rfl⟩
  · rintro ⟨hm, hb, hv, rfl⟩; exact ⟨_, hm, _, hb, _, hv, rfl, rfl, rfl, rfl⟩
  · rintro ⟨_, hm, _, hb, _, hx, _, hv, rfl, rfl, rfl, rfl⟩; exact ⟨hm, hb, hv, _, hx, rfl⟩
  · rintro ⟨hm, hb, hv, _, hx, rfl⟩; exact ⟨_, hm, _, hb, _, hx, _, hv, rfl, rfl, rfl, rfl⟩

/-- A method text that reads is neither of the texts the first arm rejects. -/
theorem TxoutMethod.fromStr_ok_ne {m : List Char} {a : TxoutMethod}
    (h : TxoutMethod.fromStr m = .ok a) : ¬(m = ['~'] ∨ m = []) := by
  rintro (rfl | rfl) <;> cases h

/-- A txid field that reads is not empty. -/
theorem txid_field_ne_nil {t : List Char} {o : Option Txid}
    (h : t = ['~'] ∧ o = none ∨ t ≠ ['~'] ∧ ∃ x, Txid.fromChars t = some x ∧ o = some x) :
    t ≠ [] := by
  rintro rfl
  rcases h with ⟨h, -⟩ | ⟨-, x, hx, -⟩
  · cases h
  · cases hx

/-! ### Printed fields -/

/-- The lowercase hex digits are no separator and no `x`, and read back as their value. -/
theorem digitChar_hex {d : Nat} (hd : d < 16) :
    isSeparator (Nat.digitChar d) = false ∧ Nat.digitChar d ≠ 'x' ∧
      lowerHexDigit (Nat.digitChar d) = some d := by
  have : ∀ d < 16, isSeparator (Nat.digitChar d) = false ∧ Nat.digitChar d ≠ 'x' ∧
      lowerHexDigit (Nat.digitChar d) = some d := by decide
  exact this d hd

theorem mem_bytesHex {bs : List UInt8} {c : Char} (hc : c ∈ bytesHex bs) :
    ∃ d < 16, c = Nat.digitChar d := by
  simp only [bytesHex, byteHex, List.mem_flatMap, List.mem_cons, List.mem_singleton,
    List.not_mem_nil, or_false] at hc
  obtain ⟨b, -, rfl | rfl⟩ := hc
  · exact ⟨_, by have := b.toNat_lt_size; simp only [UInt8.size] at this; omega, rfl⟩
  · exact ⟨_, Nat.mod_lt _ (by decide), rfl⟩

theorem hexBytes_bytesHex (bs : List UInt8) : hexBytes (bytesHex bs) = some bs := by
  induction bs with
  | nil => rfl
  | cons b bs ih =>
    have hb : b.toNat < 256 := b.toNat_lt_size
    have hval : 16 * (b.toNat / 16) + b.toNat % 16 = b.toNat := by omega
    simp only [bytesHex, List.flatMap_cons, byteHex] at ih ⊢
    simp [hexBytes, (digitChar_hex (by omega : b.toNat / 16 < 16)).2.2,
      (digitChar_hex (Nat.mod_lt b.toNat (by decide : 16 > 0))).2.2, ih, hval,
      UInt8.toNat.inj (UInt8.toNat_ofNat_of_lt b.toNat_lt_size)]

/-- Every txid reads back from its text. -/
theorem Txid.fromChars_toChars (x : Txid) : Txid.fromChars x.toChars = some x := by
  obtain ⟨⟨bs, hbs⟩⟩ := x
  simp [Txid.fromChars, Txid.toChars, hexBytes_bytesHex, hbs]

theorem Txid.toChars_ne (x : Txid) : x.toChars ≠ ['~'] := by
  obtain ⟨⟨_ | ⟨b, bs⟩, hbs⟩⟩ := x
  · cases hbs
  · simp [Txid.toChars, bytesHex, byteHex]

/-- Every output number reads back from its text. -/
theorem Vout.fromChars_toChars (v : Vout) : Vout.fromChars v.toChars = some v := by
  have hv : v.value.toNat ≤ 0xFFFFFFFF := Nat.le_of_lt_succ v.value.toNat_lt_size
  have h := fromStrRadix_toDigits (by decide : 2 ≤ 10) (by decide : 10 ≤ 16) 0 _ hv
  simp only [List.replicate_zero, List.nil_append] at h
  simp [Vout.fromChars, Vout.toChars, h,
    UInt32.toNat.inj (UInt32.toNat_ofNat_of_lt v.value.toNat_lt_size)]

theorem trimStartMatches0x_of_not_mem {s : List Char} (h : 'x' ∉ s) : trimStartMatches0x s = s := by
  unfold trimStartMatches0x
  split
  · simp at h
  · rfl

/-- The digits `{:#010x}` writes after its `0x`. -/
theorem mem_fmtHex010_digits {v : UInt64} {c : Char}
    (hc : c ∈ List.replicate (8 - (Nat.toDigits 16 v.toNat).length) '0' ++
      Nat.toDigits 16 v.toNat) :
    ∃ d < 16, c = Nat.digitChar d := by
  rcases List.mem_append.mp hc with hc | hc
  · exact ⟨0, by decide, (List.eq_of_mem_replicate hc).trans (by decide)⟩
  · exact mem_toDigits (by decide) hc

/-- Every blinding factor reads back from its `{:#010x}` text. -/
theorem parseBlinding_fmtHex010 (v : UInt64) : parseBlinding (fmtHex010 v) = some v := by
  have hx : 'x' ∉ List.replicate (8 - (Nat.toDigits 16 v.toNat).length) '0' ++
      Nat.toDigits 16 v.toNat := fun hc => by
    obtain ⟨d, hd, hdx⟩ := mem_fmtHex010_digits hc
    exact (digitChar_hex hd).2.1 hdx.symm
  have hv : v.toNat ≤ 0xFFFFFFFFFFFFFFFF := Nat.le_of_lt_succ v.toNat_lt_size
  simp only [parseBlinding, fmtHex010, trimStartMatches0x, trimStartMatches0x_of_not_mem hx,
    fromStrRadix_toDigits (by decide : 2 ≤ 16) (le_refl 16) _ _ hv, Option.map_some']
  exact congrArg some (UInt64.toNat.inj (UInt64.toNat_ofNat_of_lt v.toNat_lt_size))

/-- The four field texts of a seal contain no separator. -/
theorem toChars_fields_sep_free (r : RevealedSeal) :
    ∀ c ∈ r.method.toChars ++ (r.txid.map Txid.toChars).getD ['~'] ++ r.vout.toChars ++
      fmtHex010 r.blinding, isSeparator c = false := by
  obtain ⟨m, txid, v, b⟩ := r
  simp only [List.mem_append]
  rintro c (((hc | hc) | hc) | hc)
  · cases m <;> revert c <;> decide
  · cases txid with
    | none => revert c; decide
    | some x =>
      obtain ⟨d, hd, rfl⟩ := mem_bytesHex hc
      exact (digitChar_hex hd).1
  · obtain ⟨d, hd, rfl⟩ := mem_toDigits (by decide) hc
    exact (digitChar_hex (by omega)).1
  · rcases hc with _ | ⟨_, _ | ⟨_, hc⟩⟩
    · rfl
    · rfl
    · obtain ⟨d, hd, rfl⟩ := mem_fmtHex010_digits hc
      exact (digitChar_hex hd).1

/-! ### Round trip and acceptance -/

/-- A string cut by three separators into separator-free fields that read is accepted, as the
seal the fields name. -/
theorem fromChars_of_fields {m t v b : List Char} {c₁ c₂ c₃ : Char} {r : RevealedSeal}
    (h₁ : isSeparator c₁ = true) (h₂ : isSeparator c₂ = true) (h₃ : isSeparator c₃ = true)
    (hsep : ∀ c ∈ m ++ t ++ v ++ b, isSeparator c = false)
    (hm : TxoutMethod.fromStr m = .ok r.method)
    (htxid : t = ['~'] ∧ r.txid = none ∨
      t ≠ ['~'] ∧ ∃ x, Txid.fromChars t = some x ∧ r.txid = some x)
    (hv : Vout.fromChars v = some r.vout) (hb : startsWith0x b = true)
    (hbl : parseBlinding b = some r.blinding) :
    RevealedSeal.fromChars (m ++ c₁ :: (t ++ c₂ :: (v ++ c₃ :: b))) = .ok r := by
  rw [fromChars_of_split_four (splitOnP_eq_four_iff.mpr ⟨c₁, c₂, c₃, h₁, h₂, h₃, hsep, rfl⟩),
    if_neg (TxoutMethod.fromStr_ok_ne hm), if_neg (txid_field_ne_nil htxid), hb]
  exact fromFields_eq_ok_iff.mpr ⟨hm, hbl, hv, htxid⟩

/-- The txid field of a seal's text reads back as its txid. -/
theorem txid_field_toChars (r : RevealedSeal) :
    (r.txid.map Txid.toChars).getD ['~'] = ['~'] ∧ r.txid = none ∨
      (r.txid.map Txid.toChars).getD ['~'] ≠ ['~'] ∧
        ∃ x, Txid.fromChars ((r.txid.map Txid.toChars).getD ['~']) = some x ∧ r.txid = some x := by
  cases r.txid with
  | none => exact .inl ⟨rfl, rfl⟩
  | some x => exact .inr ⟨Txid.toChars_ne x, x, Txid.fromChars_toChars x, rfl⟩

/-- **Every revealed seal reads back from its text form.** -/
theorem fromStr_toString (r : RevealedSeal) : RevealedSeal.fromStr r.toString = .ok r :=
  fromChars_of_fields rfl rfl rfl (toChars_fields_sep_free r)
    (TxoutMethod.fromStr_toChars r.method) (txid_field_toChars r) (Vout.fromChars_toChars _) rfl
    (parseBlinding_fmtHex010 _)

/-- **The strings the parser accepts, and what it returns for them**: the strings cut by three
separators, each `:` or `#`, into four separator-free fields, where the method field reads
in any case, the txid field is `~` or a txid, the vout field reads as a `u32`, and the
blinding field starts with `0x` and, with every leading `0x` removed, reads as a hex `u64`. -/
theorem fromStr_eq_ok_iff (s : String) (r : RevealedSeal) :
    RevealedSeal.fromStr s = .ok r ↔
      ∃ m t v b c₁ c₂ c₃, s.data = m ++ c₁ :: (t ++ c₂ :: (v ++ c₃ :: b)) ∧
        isSeparator c₁ = true ∧ isSeparator c₂ = true ∧ isSeparator c₃ = true ∧
        (∀ c ∈ m ++ t ++ v ++ b, isSeparator c = false) ∧
        TxoutMethod.fromStr m = .ok r.method ∧
        (t = ['~'] ∧ r.txid = none ∨ t ≠ ['~'] ∧ ∃ x, Txid.fromChars t = some x ∧ r.txid = some x) ∧
        Vout.fromChars v = some r.vout ∧
        startsWith0x b = true ∧ parseBlinding b = some r.blinding := by
  constructor
  · intro h
    obtain ⟨m, t, v, b, hs⟩ := split_four_of_fromChars h
    obtain ⟨c₁, c₂, c₃, h₁, h₂, h₃, hsep, heq⟩ := splitOnP_eq_four_iff.mp hs
    rw [RevealedSeal.fromStr, fromChars_of_split_four hs] at h
    split_ifs at h with hm ht hb
    obtain ⟨hm, hbl, hv, htxid⟩ := fromFields_eq_ok_iff.mp h
    exact ⟨m, t, v, b, c₁, c₂, c₃, heq, h₁, h₂, h₃, hsep, hm, htxid, hv, by simpa using hb, hbl⟩
  · rintro ⟨m, t, v, b, c₁, c₂, c₃, heq, h₁, h₂, h₃, hsep, hm, htxid, hv, hb, hbl⟩
    rw [RevealedSeal.fromStr, heq]
    exact fromChars_of_fields h₁ h₂ h₃ hsep hm htxid hv hb hbl

/-! ### The seal grammar of the spec -/

/-- Neither separator is a digit in any base. -/
theorem isSeparator_of_toDigit {radix : Nat} {c : Char} (h : (toDigit radix c).isSome) :
    isSeparator c = false := by
  have hcolon : toDigit radix ':' = none := by simp [toDigit, show ':'.toNat = 58 from rfl]
  have hhash : toDigit radix '#' = none := by simp [toDigit, show '#'.toNat = 35 from rfl]
  cases hc : isSeparator c
  · rfl
  · simp only [isSeparator, Bool.or_eq_true, decide_eq_true_eq] at hc
    rcases hc with rfl | rfl <;> simp_all

theorem toDigit_of_lowerHexDigit {c : Char} {d : Nat} (h : lowerHexDigit c = some d) :
    toDigit 16 c = some d := by
  unfold lowerHexDigit at h
  split_ifs at h
  exact h

/-- `2n` lowercase hex digits read as `n` bytes. -/
theorem hexBytes_of_lowerHex (n : Nat) : ∀ t : List Char, t.length = 2 * n →
    (∀ c ∈ t, (lowerHexDigit c).isSome) → ∃ bytes, hexBytes t = some bytes ∧ bytes.length = n := by
  induction n with
  | zero => intro t ht _; rw [List.length_eq_zero.mp ht]; exact ⟨[], rfl, rfl⟩
  | succ n ih =>
    rintro (_ | ⟨hi, _ | ⟨lo, rest⟩⟩) ht hd
    · simp only [List.length_nil] at ht; omega
    · simp only [List.length_singleton] at ht; omega
    · obtain ⟨h, hh⟩ := Option.isSome_iff_exists.mp (hd hi (by simp))
      obtain ⟨l, hl⟩ := Option.isSome_iff_exists.mp (hd lo (by simp))
      obtain ⟨bytes, hb, hlen⟩ :=
        ih rest (by simp at ht; omega) (fun c hc => hd c (by simp [hc]))
      exact ⟨UInt8.ofNat (16 * h + l) :: bytes, by simp [hexBytes, hh, hl, hb], by simp [hlen]⟩

theorem Txid.fromChars_of_lowerHex {t : List Char} (hlen : t.length = 64)
    (hd : ∀ c ∈ t, (lowerHexDigit c).isSome) : ∃ x, Txid.fromChars t = some x := by
  obtain ⟨bytes, hb, hblen⟩ := hexBytes_of_lowerHex 32 t hlen hd
  exact ⟨⟨⟨bytes, hblen⟩⟩, by simp [Txid.fromChars, hb, hblen]⟩

/-- A text that lowercases to a method name reads as that method. -/
theorem TxoutMethod.fromStr_of_lowercase {m : List Char}
    (h : toLowercase m = "opret1st".toList ∨ toLowercase m = "tapret1st".toList) :
    ∃ a, TxoutMethod.fromStr m = .ok a := by
  rcases h with h | h
  · exact ⟨.opretFirst, by simp [TxoutMethod.fromStr, h, TxoutMethod.toChars]⟩
  · exact ⟨.tapretFirst, by simp [TxoutMethod.fromStr, h, TxoutMethod.toChars]⟩

/-- A text that lowercases to a method name has no separator. -/
theorem isSeparator_of_lowercase {m : List Char}
    (h : toLowercase m = "opret1st".toList ∨ toLowercase m = "tapret1st".toList) :
    ∀ c ∈ m, isSeparator c = false := by
  intro c hc
  have hl : c.toLower ∈ toLowercase m := List.mem_map_of_mem _ hc
  cases hs : isSeparator c
  · rfl
  · simp only [isSeparator, Bool.or_eq_true, decide_eq_true_eq] at hs
    rcases hs with rfl | rfl <;> rcases h with h | h <;> rw [h] at hl <;> revert hl <;> decide

/-- Following the spec, not the code: `SEAL := METHOD ":" (TXID | "~") ":" VOUT "#" "0x"
HEX16`, with `METHOD` a method name in any case, `TXID` 64 lowercase hex characters, `VOUT`
a decimal `u32` and `HEX16` 1 to 16 hex digits. -/
def InSealGrammar (s : List Char) : Prop :=
  ∃ m t v h, s = m ++ ':' :: (t ++ ':' :: (v ++ '#' :: '0' :: 'x' :: h)) ∧
    (toLowercase m = "opret1st".toList ∨ toLowercase m = "tapret1st".toList) ∧
    (t = ['~'] ∨ t.length = 64 ∧ ∀ c ∈ t, (lowerHexDigit c).isSome) ∧
    (v ≠ [] ∧ (∀ c ∈ v, (toDigit 10 c).isSome) ∧ digitsValue 10 0 v < 2 ^ 32) ∧
    (1 ≤ h.length ∧ h.length ≤ 16 ∧ ∀ c ∈ h, (toDigit 16 c).isSome)

/-- **Every string of the seal grammar is accepted.** -/
theorem fromStr_accepts_grammar {s : String} (h : InSealGrammar s.data) :
    ∃ r, RevealedSeal.fromStr s = .ok r := by
  obtain ⟨m, t, v, hex, hs, hm, ht, ⟨hvne, hvd, hvlt⟩, hxne, hxlen, hxd⟩ := h
  obtain ⟨method, hmethod⟩ := TxoutMethod.fromStr_of_lowercase hm
  obtain ⟨txid, htxid⟩ : ∃ txid : Option Txid, t = ['~'] ∧ txid = none ∨
      t ≠ ['~'] ∧ ∃ x, Txid.fromChars t = some x ∧ txid = some x := by
    rcases ht with rfl | ⟨hlen, hd⟩
    · exact ⟨none, .inl ⟨rfl, rfl⟩⟩
    · obtain ⟨x, hx⟩ := Txid.fromChars_of_lowerHex hlen hd
      exact ⟨some x, .inr ⟨by rintro rfl; simp at hlen, x, hx, rfl⟩⟩
  have hv : Vout.fromChars v = some ⟨UInt32.ofNat (digitsValue 10 0 v)⟩ := by
    simp [Vout.fromChars, fromStrRadix_of_digits (by decide) hvne hvd (Nat.le_of_lt_succ hvlt)]
  have hbl : parseBlinding ('0' :: 'x' :: hex) = some (UInt64.ofNat (digitsValue 16 0 hex)) := by
    have hnox : 'x' ∉ hex := fun hx => absurd (hxd 'x' hx) (by decide)
    have hval : digitsValue 16 0 hex ≤ 0xFFFFFFFFFFFFFFFF := by
      have hlt := digitsValue_lt 0 hex hxd
      have hpow : 16 ^ hex.length ≤ 16 ^ 16 := Nat.pow_le_pow_right (by decide) hxlen
      have h16 : (16 : Nat) ^ 16 = 0xFFFFFFFFFFFFFFFF + 1 := rfl
      omega
    have hne : hex ≠ [] := List.ne_nil_of_length_pos hxne
    simp [parseBlinding, trimStartMatches0x, trimStartMatches0x_of_not_mem hnox,
      fromStrRadix_of_digits (by decide) hne hxd hval]
  have hsep : ∀ c ∈ m ++ t ++ v ++ '0' :: 'x' :: hex, isSeparator c = false := by
    simp only [List.mem_append, List.mem_cons]
    rintro c (((hc | hc) | hc) | (rfl | rfl | hc))
    · exact isSeparator_of_lowercase hm c hc
    · rcases ht with rfl | ⟨-, hd⟩
      · obtain rfl := List.mem_singleton.mp hc; rfl
      · obtain ⟨d, hcd⟩ := Option.isSome_iff_exists.mp (hd c hc)
        exact isSeparator_of_toDigit
          (show (toDigit 16 c).isSome by simp [toDigit_of_lowerHexDigit hcd])
    · exact isSeparator_of_toDigit (hvd c hc)
    · rfl
    · rfl
    · exact isSeparator_of_toDigit (hxd c hc)
  exact ⟨⟨method, txid, ⟨UInt32.ofNat (digitsValue 10 0 v)⟩, UInt64.ofNat (digitsValue 16 0 hex)⟩,
    by rw [RevealedSeal.fromStr, hs]
       exact fromChars_of_fields rfl rfl rfl hsep hmethod htxid hv rfl hbl⟩

/-- `#` is in none of the four field texts of a seal. -/
theorem hash_not_mem_fields (r : RevealedSeal) :
    '#' ∉ r.method.toChars ++ (r.txid.map Txid.toChars).getD ['~'] ++ r.vout.toChars ++
      fmtHex010 r.blinding :=
  fun h => absurd (toChars_fields_sep_free r '#' h) (by decide)

/-- The blinding field with a `+` after its `0x` reads as the blinding: `from_str_radix`
takes a leading sign. -/
theorem parseBlinding_plus (v : UInt64) :
    parseBlinding ('0' :: 'x' :: '+' :: (fmtHex010 v).drop 2) = some v := by
  have hv : v.toNat ≤ 0xFFFFFFFFFFFFFFFF := Nat.le_of_lt_succ v.toNat_lt_size
  show (fromStrRadix 16 _ ('+' :: (List.replicate _ '0' ++ Nat.toDigits 16 v.toNat))).map
    UInt64.ofNat = some v
  rw [fromStrRadix_plus (List.append_ne_nil_of_right_ne_nil _ (toDigits_ne_nil 16 _)),
    accumulate_zeros_toDigits (by decide) (le_refl 16) _ _ hv, Option.map_some']
  exact congrArg some (UInt64.toNat.inj (UInt64.toNat_ofNat_of_lt v.toNat_lt_size))

/-- A seal's text whose blinding field, after `#0x`, holds a character that is no hex digit
is outside the seal grammar: the grammar's one `#` is the seal's. -/
theorem not_inSealGrammar_of_nonhex {r : RevealedSeal} {tail : List Char} {c : Char}
    (hz : '#' ∉ tail) (hc : c ∈ tail) (hd : toDigit 16 c = none) :
    ¬InSealGrammar (r.method.toChars ++ ':' :: ((r.txid.map Txid.toChars).getD ['~'] ++
      ':' :: (r.vout.toChars ++ '#' :: '0' :: 'x' :: tail))) := by
  have hfree := hash_not_mem_fields r
  simp only [List.mem_append, not_or] at hfree
  obtain ⟨⟨⟨hm, ht⟩, hv⟩, -⟩ := hfree
  rintro ⟨m, t, v, h, hs, -, -, -, -, -, hdigits⟩
  have hx : '#' ∉ r.method.toChars ++ ':' :: ((r.txid.map Txid.toChars).getD ['~'] ++
      ':' :: r.vout.toChars) := by simp [hm, ht, hv]
  have hz' : '#' ∉ '0' :: 'x' :: tail := by simp [hz]
  obtain ⟨-, -, hrest⟩ := (@List.append_cons_inj_of_not_mem _ _ (m ++ ':' :: (t ++ ':' :: v)) _
    ('0' :: 'x' :: h) '#' '#' hx hz').mp (by simpa only [List.append_assoc, List.cons_append])
  simp only [List.cons.injEq, true_and] at hrest
  exact absurd (hdigits c (hrest ▸ hc)) (by simp [hd])

/-- **The parser accepts three forms of every seal that its own errors rule out**, all
outside the seal grammar.  `BlindingRequired` says the blinding factor must follow `#`, yet
the text with `:` in that place reads as the seal, since the input is split at both
characters; `WrongBlinding` says the blinding is a hexadecimal string starting with `0x`, yet
`0x0x…` reads as the blinding, since `trim_start_matches` removes every leading `0x`, and so
does `0x+…`, since `from_str_radix` takes a leading `+`. -/
theorem fromStr_accepts_ruled_out_forms (r : RevealedSeal) :
    ∀ p ∈ [(':', fmtHex010 r.blinding), ('#', '0' :: 'x' :: fmtHex010 r.blinding),
        ('#', '0' :: 'x' :: '+' :: (fmtHex010 r.blinding).drop 2)],
      RevealedSeal.fromStr ⟨r.method.toChars ++ ':' :: ((r.txid.map Txid.toChars).getD ['~'] ++
          ':' :: (r.vout.toChars ++ p.1 :: p.2))⟩ = .ok r ∧
        ¬InSealGrammar (r.method.toChars ++ ':' :: ((r.txid.map Txid.toChars).getD ['~'] ++
          ':' :: (r.vout.toChars ++ p.1 :: p.2))) := by
  have hsep := toChars_fields_sep_free r
  have hfree := hash_not_mem_fields r
  simp only [List.mem_append, not_or] at hfree
  obtain ⟨⟨⟨hm, ht⟩, hv⟩, hb⟩ := hfree
  have hhex : fmtHex010 r.blinding = '0' :: 'x' :: (fmtHex010 r.blinding).drop 2 := rfl
  -- `0` and `x` open the printed blinding, so a repeated `0x` adds no new character
  have h0x : '0' ∈ fmtHex010 r.blinding ∧ 'x' ∈ fmtHex010 r.blinding := by rw [hhex]; simp
  -- a blinding field that adds no separator to the seal's fields splits the text into them
  have hread : ∀ c tail, isSeparator c = true →
      (∀ x ∈ tail, x ∈ fmtHex010 r.blinding ∨ x = '+') → startsWith0x tail = true →
      parseBlinding tail = some r.blinding →
      RevealedSeal.fromStr ⟨r.method.toChars ++ ':' :: ((r.txid.map Txid.toChars).getD ['~'] ++
        ':' :: (r.vout.toChars ++ c :: tail))⟩ = .ok r := by
    intro c tail hc htail h0x hbl
    refine fromChars_of_fields rfl rfl hc (fun x hx => ?_) (TxoutMethod.fromStr_toChars _)
      (txid_field_toChars r) (Vout.fromChars_toChars _) h0x hbl
    simp only [List.mem_append] at hx
    rcases hx with ((hx | hx) | hx) | hx
    · exact hsep x (by simp [hx])
    · exact hsep x (by simp [hx])
    · exact hsep x (by simp [hx])
    · rcases htail x hx with hx | rfl
      · exact hsep x (by simp [hx])
      · rfl
  simp only [List.mem_cons, List.mem_nil_iff, or_false]
  rintro p (rfl | rfl | rfl)
  · -- `:` in place of `#`: the text has no `#`, which the grammar needs
    refine ⟨hread _ _ rfl (fun x hx => .inl hx) rfl (parseBlinding_fmtHex010 _), ?_⟩
    rintro ⟨m, t, v, h, hs, -⟩
    have hmem : '#' ∈ m ++ ':' :: (t ++ ':' :: (v ++ '#' :: '0' :: 'x' :: h)) := by simp
    rw [← hs] at hmem
    simp [hm, ht, hv, hb] at hmem
  · -- `0x0x…`: the grammar reads hex digits after `#0x`, and `x` is none
    have hsub : '0' :: 'x' :: fmtHex010 r.blinding ⊆ fmtHex010 r.blinding :=
      List.cons_subset.mpr ⟨h0x.1, List.cons_subset.mpr ⟨h0x.2, List.Subset.refl _⟩⟩
    exact ⟨hread _ _ rfl (fun x hx => .inl (hsub hx)) rfl (parseBlinding_fmtHex010 _),
      @not_inSealGrammar_of_nonhex r _ 'x' hb h0x.2 (by decide)⟩
  · -- `0x+…`: `+` is no hex digit either
    refine ⟨hread _ _ rfl (fun x hx => ?_) rfl (parseBlinding_plus _),
      @not_inSealGrammar_of_nonhex r _ '+' (by simpa using fun h => hb (List.mem_of_mem_drop h))
        (List.mem_cons_self _ _) (by decide)⟩
    simp only [List.mem_cons] at hx
    rcases hx with rfl | rfl | rfl | hx
    · exact .inl h0x.1
    · exact .inl h0x.2
    · exact .inr rfl
    · exact .inl (List.mem_of_mem_drop hx)

theorem fromStr_accepts_plus_blinding :
    RevealedSeal.fromStr "tapret1st:~:5#0x+00000001" =
        .ok { method := .tapretFirst, txid := none, vout := ⟨5⟩, blinding := 1 } ∧
      ¬InSealGrammar "tapret1st:~:5#0x+00000001".data :=
  fromStr_accepts_ruled_out_forms { method := .tapretFirst, txid := none, vout := ⟨5⟩, blinding := 1 }
    ('#', '0' :: 'x' :: '+' :: (fmtHex010 1).drop 2) (by simp)

/-- The parser accepts a string outside the seal grammar: its third separator is a `:`
where the grammar has `#`. -/
theorem fromStr_accepts_outside_grammar :
    RevealedSeal.fromStr "tapret1st:~:5:0x1" =
        .ok { method := .tapretFirst, txid := none, vout := ⟨5⟩, blinding := 1 } ∧
      ¬InSealGrammar "tapret1st:~:5:0x1".data := by
  refine ⟨rfl, ?_⟩
  rintro ⟨m, t, v, h, hs, -⟩
  have hmem : '#' ∈ "tapret1st:~:5:0x1".data := by rw [hs]; simp
  exact absurd hmem (by decide)

end BpCore.Seals
