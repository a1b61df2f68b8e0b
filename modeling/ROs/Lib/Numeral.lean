import Mathlib.Data.Nat.Digits.Lemmas

/-!
# Numerals

A numeral is the list of its digits, the most significant one first; `value` is the number that it
denotes.  A numeral is `Canonical` for a minimal length if it has as many digits, and no zero in
front if it has more.  A loop that divides, or that looks at one group of bits after another, makes
the numeral of `v` from that of `v / b` and one more digit (`value_concat`, `Canonical.concat_zero`,
`Canonical.concat_succ`).  There is only one (`Canonical.unique`), `numeral`.

`digitByte` is the ASCII character of a digit and `digitOf` reads it; what is written is read back
(`mapM_digitOf`).
-/

namespace ROs

namespace Numeral

/-- The number denoted by digits in base `b`. -/
def value (b : ℕ) (ds : List ℕ) : ℕ := Nat.ofDigits b ds.reverse

/-- At least `m` digits in base `b`, the first of which is not zero if there are more. -/
structure Canonical (b m : ℕ) (ds : List ℕ) : Prop where
  digit_lt : ∀ d ∈ ds, d < b
  le_length : m ≤ ds.length
  head_ne_zero : m < ds.length → ds.head? ≠ some 0

variable {b m d v : ℕ} {ds : List ℕ}

@[simp] theorem value_nil : value b [] = 0 := rfl

theorem value_concat (b : ℕ) (ds : List ℕ) (d : ℕ) :
    value b (ds ++ [d]) = d + b * value b ds := by
  rw [value, List.reverse_concat, Nat.ofDigits_cons]
  rfl

/-- The numeral of `v` from that of `v / b`. -/
theorem value_concat_mod (h : value b ds = v / b) : value b (ds ++ [v % b]) = v := by
  rw [value_concat, h, Nat.mod_add_div]

theorem canonical_nil : Canonical b 0 [] := ⟨nofun, Nat.le_refl _, fun h => absurd h (by decide)⟩

theorem head?_concat (hds : ds ≠ []) : (ds ++ [d]).head? = ds.head? := by
  cases ds with
  | nil => exact absurd rfl hds
  | cons d' ds => rfl

/-- One digit more than a numeral without a minimal length: not a zero in front. -/
theorem Canonical.concat_zero (h : Canonical b 0 ds) (hd : d < b) (hne : ds = [] → d ≠ 0) :
    Canonical b 0 (ds ++ [d]) := by
  refine ⟨?_, Nat.zero_le _, ?_⟩
  · intro d' hd'
    rcases List.mem_append.1 hd' with hd' | hd'
    · exact h.digit_lt d' hd'
    · rwa [List.mem_singleton.1 hd']
  · intro _
    by_cases hds : ds = []
    · subst hds
      simpa using hne rfl
    · rw [head?_concat hds]
      exact h.head_ne_zero (List.length_pos_iff.2 hds)

/-- One digit more, and a minimal length of one more. -/
theorem Canonical.concat_succ (h : Canonical b m ds) (hd : d < b) :
    Canonical b (m + 1) (ds ++ [d]) := by
  refine ⟨?_, ?_, ?_⟩
  · intro d' hd'
    rcases List.mem_append.1 hd' with hd' | hd'
    · exact h.digit_lt d' hd'
    · rwa [List.mem_singleton.1 hd']
  · rw [List.length_append]
    exact Nat.succ_le_succ h.le_length
  · intro hlen
    rw [List.length_append, List.length_singleton] at hlen
    have hlen' : m < ds.length := by omega
    rw [head?_concat (List.ne_nil_of_length_pos (by omega))]
    exact h.head_ne_zero hlen'

/-- The first digit of a number other than zero is not a zero. -/
theorem Canonical.one_le (h : Canonical b 0 ds) (hv : value b ds ≠ 0) : Canonical b 1 ds := by
  have hds : ds ≠ [] := by
    rintro rfl
    exact hv rfl
  exact ⟨h.digit_lt, List.length_pos_iff.2 hds, fun hlen => h.head_ne_zero (by omega)⟩

theorem value_lt (hb : 1 < b) (hds : ∀ d ∈ ds, d < b) : value b ds < b ^ ds.length := by
  rw [value, ← List.length_reverse]
  exact Nat.ofDigits_lt_base_pow_length hb fun d hd => hds d (List.mem_reverse.1 hd)

/-- A numeral without a zero in front has no shorter one of the same number. -/
theorem Canonical.pow_le_value (h : Canonical b m ds) (hb : 1 < b) (hlen : m < ds.length) :
    b ^ (ds.length - 1) ≤ value b ds := by
  obtain ⟨b, rfl⟩ : ∃ k, b = k + 2 := ⟨b - 2, by omega⟩
  have hne : ds.reverse ≠ [] := by
    rintro hnil
    rw [List.reverse_eq_nil_iff.1 hnil] at hlen
    exact absurd hlen (Nat.not_lt_zero m)
  have hlast : ds.reverse.getLast hne ≠ 0 := by
    intro hzero
    refine h.head_ne_zero hlen ?_
    rw [← List.getLast?_reverse, List.getLast?_eq_getLast_of_ne_nil hne, hzero]
  have hpow := Nat.pow_length_le_mul_ofDigits (b := b) hne hlast
  rw [List.length_reverse] at hpow
  refine Nat.le_of_mul_le_mul_left (Nat.le_trans (Nat.le_of_eq ?_) hpow) (Nat.succ_pos (b + 1))
  rw [← Nat.pow_succ']
  congr 1
  omega

/-- **There is one canonical numeral of a number.** -/
theorem Canonical.unique (h : Canonical b m ds) {ds' : List ℕ} (h' : Canonical b m ds') (hb : 1 < b)
    (hvalue : value b ds = value b ds') : ds = ds' := by
  have hlt := value_lt hb h.digit_lt
  have hlt' := value_lt hb h'.digit_lt
  have hle := h.le_length
  have hle' := h'.le_length
  have hlen : ds.length = ds'.length := by
    rcases Nat.lt_trichotomy ds.length ds'.length with hless | heq | hmore
    · have hpow := h'.pow_le_value hb (by omega)
      have hmono : b ^ ds.length ≤ b ^ (ds'.length - 1) :=
        Nat.pow_le_pow_right (by omega) (by omega)
      omega
    · exact heq
    · have hpow := h.pow_le_value hb (by omega)
      have hmono : b ^ ds'.length ≤ b ^ (ds.length - 1) :=
        Nat.pow_le_pow_right (by omega) (by omega)
      omega
  exact List.reverse_inj.1 (Nat.ofDigits_inj_of_len_eq hb (by simpa using hlen)
    (fun d hd => h.digit_lt d (List.mem_reverse.1 hd))
    (fun d hd => h'.digit_lt d (List.mem_reverse.1 hd)) hvalue)

/-- The canonical numeral of a number: `0` for zero. -/
def numeral (b v : ℕ) : List ℕ := if v = 0 then [0] else (Nat.digits b v).reverse

theorem value_numeral (b v : ℕ) : value b (numeral b v) = v := by
  by_cases hv : v = 0
  · rw [numeral, if_pos hv, hv]
    rfl
  · rw [numeral, if_neg hv, value, List.reverse_reverse, Nat.ofDigits_digits]

theorem canonical_numeral (hb : 1 < b) (v : ℕ) : Canonical b 1 (numeral b v) := by
  by_cases hv : v = 0
  · rw [numeral, if_pos hv]
    refine ⟨?_, Nat.le_refl 1, fun hlen => absurd hlen (Nat.lt_irrefl 1)⟩
    intro d hd
    rw [List.mem_singleton.1 hd]
    omega
  · have hne : Nat.digits b v ≠ [] := Nat.digits_ne_nil_iff_ne_zero.2 hv
    rw [numeral, if_neg hv]
    refine ⟨?_, ?_, fun _ hhead => ?_⟩
    · intro d hd
      exact Nat.digits_lt_base hb (List.mem_reverse.1 hd)
    · rw [List.length_reverse]
      exact List.length_pos_iff.2 hne
    · rw [List.head?_reverse, List.getLast?_eq_getLast_of_ne_nil hne] at hhead
      exact Nat.getLast_digit_ne_zero b hv (Option.some.inj hhead)

/-! ### Characters -/

/-- The ASCII character of a digit: `0` to `9`, `a` to `f`. -/
def digitByte (d : ℕ) : UInt8 := if d < 10 then '0'.toUInt8 + d.toUInt8 else 'a'.toUInt8 + d.toUInt8 - 10

/-- The digit that a character stands for. -/
def digitOf (c : UInt8) : Option ℕ :=
  if '0'.toUInt8 ≤ c ∧ c ≤ '9'.toUInt8 then some (c.toNat - '0'.toNat)
  else if 'a'.toUInt8 ≤ c ∧ c ≤ 'f'.toUInt8 then some (c.toNat - 'a'.toNat + 10)
  else none

theorem digitOf_digitByte (hd : d < 16) : digitOf (digitByte d) = some d := by
  decide +revert

/-- **Digits are read back.** -/
theorem mapM_digitOf (hds : ∀ d ∈ ds, d < 16) : (ds.map digitByte).mapM digitOf = some ds := by
  induction ds with
  | nil => rfl
  | cons d ds ih =>
    rw [List.forall_mem_cons] at hds
    rw [List.map_cons, List.mapM_cons, digitOf_digitByte hds.1, ih hds.2]
    rfl

end Numeral

end ROs
