import BpCore.Seals.Revealed
import Mathlib.Data.Nat.Digits

/-!
# Decimal and hexadecimal numerals

The seal text form writes the output number with `Display for u32` and the blinding factor
with `{:#010x}`, and reads them back with `u32::from_str` and `u64::from_str_radix(_, 16)`.
This file models those library routines on character lists:

* `toDigit` — `char::to_digit`, both letter cases;
* `accumulate` / `fromStrRadix` — the checked loop of `from_str_radix`, with its leading
  `+` and its `Empty`/`InvalidDigit`/`PosOverflow` failures as `none`;
* `fmtHex010` — `{:#010x}`: `0x`, then the lowercase digits of `Nat.toDigits` padded to 8;
* `fromStrRadix_toDigits` — **every numeral `Nat.toDigits` prints, behind any number of
  zeros, reads back as its value**, when that value fits the target type;
* `fromStrRadix_of_digits` — every non-empty digit string whose value `digitsValue` fits
  reads as that value, and `digitsValue_lt` bounds it by the string's length.
-/

namespace BpCore.Seals

/-! ### Digits -/

/-- `char::to_digit(radix)`: `0-9`, then `a-z` or `A-Z` as 10 to 35, below `radix`. -/
def toDigit (radix : Nat) (c : Char) : Option Nat :=
  let n := c.toNat
  let d := if 48 ≤ n ∧ n ≤ 57 then n - 48
    else if 97 ≤ n ∧ n ≤ 122 then n - 87
    else if 65 ≤ n ∧ n ≤ 90 then n - 55
    else radix
  if d < radix then some d else none

theorem toDigit_zero {radix : Nat} (hr : 0 < radix) : toDigit radix '0' = some 0 := by
  simp [toDigit, show '0'.toNat = 48 from rfl, hr]

/-- The signs are no digits. -/
theorem toDigit_sign (radix : Nat) : toDigit radix '+' = none ∧ toDigit radix '-' = none := by
  simp [toDigit, show '+'.toNat = 43 from rfl, show '-'.toNat = 45 from rfl]

theorem toDigit_digitChar {radix d : Nat} (hr : radix ≤ 16) (hd : d < radix) :
    toDigit radix (Nat.digitChar d) = some d := by
  have : ∀ r ≤ 16, ∀ d < r, toDigit r (Nat.digitChar d) = some d := by decide
  exact this radix hr d hd

/-- The checked accumulation of `from_str_radix`: `result * radix + digit`, failing on a
non-digit and as soon as the value leaves `0..=max`. -/
def accumulate (radix max : Nat) : Nat → List Char → Option Nat
  | acc, [] => some acc
  | acc, c :: cs =>
    match toDigit radix c with
    | none => none
    | some d => if acc * radix + d ≤ max then accumulate radix max (acc * radix + d) cs else none

/-- `uN::from_str_radix(src, radix)` for an unsigned type whose largest value is `max`. -/
def fromStrRadix (radix max : Nat) : List Char → Option Nat
  | [] => none
  | ['+'] => none
  | ['-'] => none
  | '+' :: digits => accumulate radix max 0 digits
  | src => accumulate radix max 0 src

theorem accumulate_append (radix max acc : Nat) (xs ys : List Char) :
    accumulate radix max acc (xs ++ ys) =
      (accumulate radix max acc xs).bind fun a => accumulate radix max a ys := by
  induction xs generalizing acc with
  | nil => rfl
  | cons c cs ih =>
    simp only [List.cons_append, accumulate]
    cases toDigit radix c with
    | none => rfl
    | some d =>
      dsimp only
      split_ifs
      · exact ih _
      · rfl

theorem accumulate_zero_cons {radix max : Nat} (hr : 0 < radix) (cs : List Char) :
    accumulate radix max 0 ('0' :: cs) = accumulate radix max 0 cs := by
  simp [accumulate, toDigit_zero hr]

theorem accumulate_replicate_zero {radix max : Nat} (hr : 0 < radix) (k : Nat) (cs : List Char) :
    accumulate radix max 0 (List.replicate k '0' ++ cs) = accumulate radix max 0 cs := by
  induction k with
  | zero => rfl
  | succ k ih => rw [List.replicate_succ, List.cons_append, accumulate_zero_cons hr, ih]

/-! ### `Nat.toDigits` -/

theorem toDigitsCore_append (b f n : Nat) (ds : List Char) :
    Nat.toDigitsCore b f n ds = Nat.toDigitsCore b f n [] ++ ds := by
  induction f generalizing n ds with
  | zero => rfl
  | succ f ih =>
    simp only [Nat.toDigitsCore]
    split_ifs
    · rfl
    · rw [ih, ih (n / b) [Nat.digitChar (n % b)], List.append_assoc, List.singleton_append]

/-- With enough fuel, the digits `Nat.toDigits` prints read back as the number. -/
theorem accumulate_toDigitsCore {b max : Nat} (hb : 2 ≤ b) (hb16 : b ≤ 16) :
    ∀ f n, n < f → n ≤ max → accumulate b max 0 (Nat.toDigitsCore b f n []) = some n := by
  intro f
  induction f with
  | zero => intro n hn; omega
  | succ f ih =>
    intro n hnf hmax
    have hdig : toDigit b (Nat.digitChar (n % b)) = some (n % b) :=
      toDigit_digitChar hb16 (Nat.mod_lt _ (by omega))
    have hsplit : n / b * b + n % b = n := Nat.div_add_mod' n b
    simp only [Nat.toDigitsCore]
    split_ifs with hq
    · have hn : n % b = n := Nat.mod_eq_of_lt ((Nat.div_eq_zero_iff (by omega)).mp hq)
      simp only [accumulate, hdig]
      simp [hn, hmax]
    · have hpos : 0 < n := Nat.pos_of_ne_zero fun h => hq (by simp [h])
      have hlt : n / b < n := Nat.div_lt_self hpos (by omega)
      have hf : n / b < f := by omega
      have hm : n / b ≤ max := by omega
      rw [toDigitsCore_append, accumulate_append, ih (n / b) hf hm]
      simp [accumulate, hdig, hsplit, hmax]

theorem toDigits_ne_nil (b n : Nat) : Nat.toDigits b n ≠ [] := by
  simp only [Nat.toDigits, Nat.toDigitsCore]
  split_ifs
  · simp
  · rw [toDigitsCore_append]; simp

/-- Every character `Nat.toDigits` prints is a digit of the base. -/
theorem mem_toDigitsCore {b : Nat} (hb : 0 < b) :
    ∀ f n (ds : List Char), ∀ c ∈ Nat.toDigitsCore b f n ds,
      c ∈ ds ∨ ∃ d < b, c = Nat.digitChar d := by
  intro f
  induction f with
  | zero => intro n ds c hc; exact .inl hc
  | succ f ih =>
    intro n ds c hc
    simp only [Nat.toDigitsCore] at hc
    split_ifs at hc
    · rcases List.mem_cons.mp hc with rfl | hc
      · exact .inr ⟨n % b, Nat.mod_lt _ hb, rfl⟩
      · exact .inl hc
    · rcases ih _ _ c hc with hc | hc
      · rcases List.mem_cons.mp hc with rfl | hc
        · exact .inr ⟨n % b, Nat.mod_lt _ hb, rfl⟩
        · exact .inl hc
      · exact .inr hc

theorem mem_toDigits {b n : Nat} (hb : 0 < b) {c : Char} (hc : c ∈ Nat.toDigits b n) :
    ∃ d < b, c = Nat.digitChar d := by
  rcases mem_toDigitsCore hb _ _ _ c hc with h | h
  · cases h
  · exact h

/-- A string whose first character is a digit is read without the sign step. -/
theorem fromStrRadix_of_toDigit {radix max d : Nat} {c : Char} (h : toDigit radix c = some d)
    (cs : List Char) : fromStrRadix radix max (c :: cs) = accumulate radix max 0 (c :: cs) := by
  have hp : c ≠ '+' := by rintro rfl; simp [(toDigit_sign radix).1] at h
  have hm : c ≠ '-' := by rintro rfl; simp [(toDigit_sign radix).2] at h
  unfold fromStrRadix
  split <;> simp_all

/-- A printed numeral behind any run of zeros accumulates to its value when the value fits. -/
theorem accumulate_zeros_toDigits {b max : Nat} (hb : 2 ≤ b) (hb16 : b ≤ 16) (k n : Nat)
    (hn : n ≤ max) : accumulate b max 0 (List.replicate k '0' ++ Nat.toDigits b n) = some n := by
  rw [accumulate_replicate_zero (by omega)]
  exact accumulate_toDigitsCore hb hb16 _ _ (Nat.lt_succ_self n) hn

/-- **A printed numeral, behind any run of zeros, reads back as its value** when the value
fits. -/
theorem fromStrRadix_toDigits {b max : Nat} (hb : 2 ≤ b) (hb16 : b ≤ 16) (k n : Nat)
    (hn : n ≤ max) : fromStrRadix b max (List.replicate k '0' ++ Nat.toDigits b n) = some n := by
  obtain ⟨c, cs, hcs⟩ := List.exists_cons_of_ne_nil
    (List.append_ne_nil_of_right_ne_nil (List.replicate k '0') (toDigits_ne_nil b n))
  have hc : ∃ d, toDigit b c = some d := by
    cases k with
    | zero =>
      have hmem : c ∈ Nat.toDigits b n := by
        rw [show Nat.toDigits b n = c :: cs by simpa using hcs]; exact List.mem_cons_self _ _
      obtain ⟨d, hd, rfl⟩ := mem_toDigits (by omega) hmem
      exact ⟨d, toDigit_digitChar hb16 hd⟩
    | succ k =>
      simp only [List.replicate_succ, List.cons_append, List.cons.injEq] at hcs
      obtain ⟨rfl, -⟩ := hcs
      exact ⟨0, toDigit_zero (by omega)⟩
  obtain ⟨d, hd⟩ := hc
  rw [hcs, fromStrRadix_of_toDigit hd, ← hcs]
  exact accumulate_zeros_toDigits hb hb16 k n hn

/-- The sign step: a `+` before a non-empty string is dropped. -/
theorem fromStrRadix_plus {radix max : Nat} {cs : List Char} (hne : cs ≠ []) :
    fromStrRadix radix max ('+' :: cs) = accumulate radix max 0 cs := by
  cases cs with
  | nil => exact absurd rfl hne
  | cons c cs => rfl

/-! ### Digit strings -/

/-- The value of a digit string: `n * radix + digit`, from the left. -/
def digitsValue (radix : Nat) (acc : Nat) (cs : List Char) : Nat :=
  cs.foldl (fun n c => n * radix + (toDigit radix c).getD 0) acc

theorem le_digitsValue {radix : Nat} (hr : 0 < radix) (acc : Nat) (cs : List Char) :
    acc ≤ digitsValue radix acc cs := by
  induction cs generalizing acc with
  | nil => exact le_refl _
  | cons c cs ih =>
    show acc ≤ digitsValue radix (acc * radix + (toDigit radix c).getD 0) cs
    exact (Nat.le_add_right_of_le (Nat.le_mul_of_pos_right acc hr)).trans (ih _)

theorem toDigit_lt {radix d : Nat} {c : Char} (h : toDigit radix c = some d) : d < radix := by
  simp only [toDigit, Option.ite_none_right_eq_some] at h
  exact Option.some.inj h.2 ▸ h.1

/-- The checked loop of `from_str_radix` returns the value of a digit string that fits. -/
theorem accumulate_eq_digitsValue {radix max : Nat} (hr : 0 < radix) (acc : Nat) (cs : List Char)
    (hd : ∀ c ∈ cs, (toDigit radix c).isSome) (hmax : digitsValue radix acc cs ≤ max) :
    accumulate radix max acc cs = some (digitsValue radix acc cs) := by
  induction cs generalizing acc with
  | nil => rfl
  | cons c cs ih =>
    obtain ⟨d, hcd⟩ := Option.isSome_iff_exists.mp (hd c (List.mem_cons_self _ _))
    have hstep : digitsValue radix acc (c :: cs) = digitsValue radix (acc * radix + d) cs := by
      simp [digitsValue, hcd]
    rw [hstep] at hmax ⊢
    have hle : acc * radix + d ≤ max := (le_digitsValue hr _ cs).trans hmax
    simp only [accumulate, hcd, hle, if_true]
    exact ih _ (fun c hc => hd c (List.mem_cons_of_mem _ hc)) hmax

/-- A digit string of length `n` has a value below `(acc + 1) * radix ^ n`. -/
theorem digitsValue_lt {radix : Nat} (acc : Nat) (cs : List Char)
    (hd : ∀ c ∈ cs, (toDigit radix c).isSome) :
    digitsValue radix acc cs < (acc + 1) * radix ^ cs.length := by
  induction cs generalizing acc with
  | nil => simp [digitsValue]
  | cons c cs ih =>
    obtain ⟨d, hcd⟩ := Option.isSome_iff_exists.mp (hd c (List.mem_cons_self _ _))
    have hdr := toDigit_lt hcd
    have := ih (acc * radix + d) (fun c hc => hd c (List.mem_cons_of_mem _ hc))
    simp only [digitsValue, List.foldl_cons, hcd, Option.getD_some, List.length_cons] at this ⊢
    calc _ < (acc * radix + d + 1) * radix ^ cs.length := this
      _ ≤ (acc + 1) * radix * radix ^ cs.length :=
        Nat.mul_le_mul_right _ (by rw [Nat.add_mul, Nat.one_mul]; omega)
      _ = (acc + 1) * radix ^ (cs.length + 1) := by
        rw [Nat.pow_succ, Nat.mul_comm (radix ^ _) radix, Nat.mul_assoc]

/-- `from_str_radix` reads a non-empty digit string that fits as its value. -/
theorem fromStrRadix_of_digits {radix max : Nat} (hr : 0 < radix) {cs : List Char} (hne : cs ≠ [])
    (hd : ∀ c ∈ cs, (toDigit radix c).isSome) (hmax : digitsValue radix 0 cs ≤ max) :
    fromStrRadix radix max cs = some (digitsValue radix 0 cs) := by
  obtain ⟨c, cs', rfl⟩ := List.exists_cons_of_ne_nil hne
  obtain ⟨d, hcd⟩ := Option.isSome_iff_exists.mp (hd c (List.mem_cons_self _ _))
  rw [fromStrRadix_of_toDigit hcd, accumulate_eq_digitsValue hr 0 _ hd hmax]

/-! ### Formatting -/

/-- `{:#010x}`: `0x`, then the lowercase hex digits zero-padded to width 8. -/
def fmtHex010 (v : UInt64) : List Char :=
  let digits := Nat.toDigits 16 v.toNat
  '0' :: 'x' :: (List.replicate (8 - digits.length) '0' ++ digits)

end BpCore.Seals
