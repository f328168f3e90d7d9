/-
Integers beyond the finite binary64 numbers. Rounding takes a natural number beyond them from the one on that lies half
way between the largest finite number and the power of two behind it, as a tie goes to the even neighbour.
-/
import Mathlib.Order.Basic
import TemplateEngine.Number.Binary64

namespace TemplateEngine.Number

variable {m n num den h : Nat}

/-! ## Rounding -/

/-- A quotient is rounded to an even number or a larger one if it is at most one half less. -/
theorem le_roundHalfEven_iff (hm : m % 2 = 0) (hh : 0 < h) :
    m ≤ roundHalfEven num (2 * h) ↔ 2 * (m * h) ≤ num + h := by
  have hdiv : 2 * (num / (2 * h) * h) + num % (2 * h) = num := by
    have hdiv := Nat.div_add_mod' num (2 * h)
    rwa [Nat.mul_left_comm] at hdiv
  have hmod : num % (2 * h) < 2 * h := Nat.mod_lt _ (by omega)
  have hmul {a b : Nat} (hab : a ≤ b) : a * h ≤ b * h := Nat.mul_le_mul_right h hab
  unfold roundHalfEven
  generalize num / (2 * h) = q at hdiv ⊢
  generalize num % (2 * h) = r at hdiv hmod ⊢
  dsimp only
  split
  · rename_i hdown
    simp only [Bool.or_eq_true, Bool.and_eq_true, decide_eq_true_eq, beq_iff_eq] at hdown
    constructor
    · intro hq
      have hq := hmul hq
      omega
    · intro hle
      by_contra hlt
      rcases Nat.lt_or_ge (q + 1) m with htwo | hone
      · have htwo := hmul (Nat.succ_le_of_lt htwo)
        rw [Nat.succ_eq_add_one, Nat.add_mul, Nat.add_mul] at htwo
        omega
      · have hm' : m = q + 1 := by omega
        subst hm'
        rw [Nat.add_mul] at hle
        omega
  · rename_i hup
    simp only [Bool.or_eq_true, Bool.and_eq_true, decide_eq_true_eq, beq_iff_eq] at hup
    constructor
    · intro hq
      have hq := hmul hq
      rw [Nat.add_mul] at hq
      omega
    · intro hle
      by_contra hlt
      have htwo := hmul (Nat.succ_le_of_lt (Nat.not_le.1 hlt))
      rw [Nat.succ_eq_add_one, Nat.add_mul, Nat.add_mul] at htwo
      omega

theorem div_le_roundHalfEven (num den : Nat) : num / den ≤ roundHalfEven num den := by
  unfold roundHalfEven
  dsimp only
  split <;> omega

theorem roundHalfEven_le (num den : Nat) : roundHalfEven num den ≤ num / den + 1 := by
  unfold roundHalfEven
  dsimp only
  split <;> omega

/-! ## Integers -/

theorem log2_bounds (hn : n ≠ 0) : Nat.pow 2 n.log2 ≤ n ∧ n < Nat.pow 2 (n.log2 + 1) :=
  ⟨Nat.log2_self_le hn, Nat.lt_log2_self⟩

theorem binade_one (hn : n ≠ 0) : binade n 1 = n.log2 := by
  have hle := (log2_bounds hn).1
  have hlog : Nat.log2 1 = 0 := rfl
  unfold binade scaleBinary
  rw [hlog]
  dsimp only
  split
  · rename_i hzero
    rw [if_pos]
    · omega
    · have hlog : (-((n.log2 : Int) - (0 : Nat))).toNat = 0 := by omega
      have hone : Nat.pow 2 0 = 1 := rfl
      rw [hlog, hone, Nat.mul_one]
      exact Nat.pos_of_ne_zero hn
  · rw [if_pos]
    · omega
    · have hlog : (- -((n.log2 : Int) - (0 : Nat))).toNat = n.log2 := by omega
      rw [hlog, Nat.one_mul]
      exact hle

/-- A natural number as a quotient between two powers of two, as which it is rounded. -/
theorem exists_scaled (hn : n ≠ 0) : ∃ num den, scaleBinary n 1 (-((n.log2 : Int) - 52)) = (num, den) ∧
    Nat.pow 2 52 ≤ num / den ∧ num / den < Nat.pow 2 53 ∧
    ∀ k, n.log2 = k + 53 → num = n ∧ den = 2 * Nat.pow 2 k := by
  obtain ⟨hle, hlt⟩ := log2_bounds hn
  have hadd (i j : Nat) : Nat.pow 2 (i + j) = Nat.pow 2 i * Nat.pow 2 j := Nat.pow_add 2 i j
  have hpos (j : Nat) : 0 < Nat.pow 2 j := Nat.two_pow_pos j
  generalize n.log2 = k at hle hlt ⊢
  unfold scaleBinary
  split
  · obtain ⟨j, hj⟩ : ∃ j, 52 = k + j := Nat.exists_eq_add_of_le (by omega)
    have hexponent : (-((k : Int) - 52)).toNat = j := by omega
    refine ⟨n * Nat.pow 2 j, 1, by rw [hexponent], ?_, ?_, by omega⟩
    · rw [Nat.div_one, hj, hadd]
      exact Nat.mul_le_mul_right _ hle
    · rw [Nat.div_one, show 53 = k + 1 + j by omega, hadd]
      exact Nat.mul_lt_mul_of_pos_right hlt (hpos j)
  · obtain ⟨j, rfl⟩ : ∃ j, k = 52 + j := Nat.exists_eq_add_of_le (by omega)
    have hexponent : (- -(((52 + j : Nat) : Int) - 52)).toNat = j := by omega
    refine ⟨n, Nat.pow 2 j, by rw [hexponent, Nat.one_mul], ?_, ?_, fun k hk => ⟨rfl, ?_⟩⟩
    · rwa [Nat.le_div_iff_mul_le (hpos j), ← hadd]
    · rwa [Nat.div_lt_iff_lt_mul (hpos j), ← hadd, show 53 + j = 52 + j + 1 by omega]
    · rw [show j = 1 + k by omega, hadd]

/-- The magnitude bits of a natural number: the exponent field stands for its binade. -/
theorem exists_nearestBits (hn : n ≠ 0) : ∃ num den,
    nearestBits n 1 = min infinityBits ((n.log2 + 1022) * Nat.pow 2 52 + roundHalfEven num den) ∧
    Nat.pow 2 52 ≤ num / den ∧ num / den < Nat.pow 2 53 ∧
    ∀ k, n.log2 = k + 53 → num = n ∧ den = 2 * Nat.pow 2 k := by
  obtain ⟨num, den, hscale, hbits⟩ := exists_scaled hn
  have hexponent : max (binade n 1 - 52) (-1074) = (n.log2 : Int) - 52 := by
    rw [binade_one hn]
    omega
  have hfield : ((n.log2 : Int) - 52 + 1074).toNat = n.log2 + 1022 := by omega
  refine ⟨num, den, ?_, hbits⟩
  rw [nearestBits, if_neg (by simpa using hn), hexponent]
  dsimp only
  rw [hscale]
  dsimp only
  rw [hfield]

/-- A natural number is rounded to infinity from half way between the largest finite number and `2 ^ 1024` on; the
exponent is a variable, so that nothing evaluates the powers. -/
theorem nearestBits_eq_infinityBits_iff_of_exponent {k : Nat} (hk : k = 970) (n : Nat) :
    nearestBits n 1 = infinityBits ↔ Nat.pow 2 (k + 54) - Nat.pow 2 k ≤ n := by
  have hhalf : Nat.pow 2 (k + 53) = Nat.pow 2 k * 9007199254740992 := Nat.pow_add 2 k 53
  have htop : Nat.pow 2 (k + 54) = Nat.pow 2 k * 18014398509481984 := Nat.pow_add 2 k 54
  have hpos : 0 < Nat.pow 2 k := Nat.two_pow_pos k
  have hmono {i j : Nat} (h : i ≤ j) : Nat.pow 2 i ≤ Nat.pow 2 j := Nat.pow_le_pow_right (by decide) h
  have hinfinity : infinityBits = 9218868437227405312 := rfl
  have hlow : Nat.pow 2 52 = 4503599627370496 := rfl
  have hhigh : Nat.pow 2 53 = 9007199254740992 := rfl
  by_cases hn : n = 0
  · subst hn
    have hzero : nearestBits 0 1 = 0 := rfl
    rw [hzero, hinfinity, htop]
    generalize Nat.pow 2 k = p at hpos ⊢
    omega
  · obtain ⟨num, den, hbits, hle, hlt, hlast⟩ := exists_nearestBits hn
    obtain ⟨hfloor, hceil⟩ := log2_bounds hn
    have hlower := div_le_roundHalfEven num den
    have hupper := roundHalfEven_le num den
    rw [hlow] at hbits hle
    rw [hhigh] at hlt
    rw [hbits, hinfinity, htop]
    rcases Nat.lt_trichotomy n.log2 (k + 53) with hlog | hlog | hlog
    · have hsmall : n < Nat.pow 2 k * 9007199254740992 :=
        hhalf ▸ Nat.lt_of_lt_of_le hceil (hmono (Nat.succ_le_of_lt hlog))
      clear hbits hlast hhalf htop hfloor hceil hmono
      generalize Nat.pow 2 k = p at hsmall hpos ⊢
      refine iff_of_false ?_ ?_ <;> omega
    · obtain ⟨rfl, rfl⟩ := hlast k hlog
      have hround := @le_roundHalfEven_iff 9007199254740992 num _ (by decide) hpos
      rw [hlog]
      clear hbits hlast hhalf htop hfloor hceil hmono hlog
      generalize Nat.pow 2 k = p at *
      omega
    · have hlarge : Nat.pow 2 k * 18014398509481984 ≤ n :=
        htop ▸ Nat.le_trans (hmono (Nat.succ_le_of_lt hlog)) hfloor
      clear hbits hlast hhalf htop hfloor hceil hmono
      generalize Nat.pow 2 k = p at hlarge hpos ⊢
      refine iff_of_true ?_ ?_ <;> omega

theorem floatOfInt?_eq_none_iff (n : Int) :
    floatOfInt? n = none ↔ Nat.pow 2 1024 - Nat.pow 2 970 ≤ n.natAbs := by
  have hexponent : 1024 = 970 + 54 := rfl
  have hiff := nearestBits_eq_infinityBits_iff_of_exponent (Eq.refl 970) n.natAbs
  rw [hexponent, ← hiff, floatOfInt?]
  simp

end TemplateEngine.Number
