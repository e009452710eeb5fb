import Mathlib.Data.Nat.Bitwise

/-! Two numbers or-ed into one word. The low one has its own bits only while it
stays below the shift; beyond it reaches into the high one. -/

namespace MyChat

/-- `hi << k | lo`. -/
def pack (k hi lo : Nat) : Nat := hi <<< k ||| lo

variable {k hi hi' lo lo' : Nat}

theorem pack_mod : pack k hi lo % 2 ^ k = lo % 2 ^ k := by
  rw [pack, Nat.or_mod_two_pow, Nat.shiftLeft_eq, Nat.mul_mod_left, Nat.zero_or]

theorem pack_div : pack k hi lo / 2 ^ k = hi ||| lo / 2 ^ k := by
  rw [pack, Nat.or_div_two_pow, Nat.shiftLeft_eq, Nat.mul_div_cancel _ (Nat.two_pow_pos k)]

/-- Quotient and remainder settle a number. -/
theorem eq_iff_div_mod (m n d : Nat) : m = n ↔ m / d = n / d ∧ m % d = n % d := by
  refine ⟨fun h => h ▸ ⟨rfl, rfl⟩, fun ⟨hdiv, hmod⟩ => ?_⟩
  rw [← Nat.div_add_mod m d, ← Nat.div_add_mod n d, hdiv, hmod]

/-- Words coincide when the low parts do below the shift and the high parts do
after the rest of the low ones has been or-ed in. -/
theorem pack_eq_iff :
    pack k hi lo = pack k hi' lo' ↔ hi ||| lo / 2 ^ k = hi' ||| lo' / 2 ^ k ∧
      lo % 2 ^ k = lo' % 2 ^ k := by
  rw [eq_iff_div_mod (pack k hi lo) _ (2 ^ k), pack_div, pack_div, pack_mod, pack_mod]

/-- Low parts that fit below the shift can be told apart, and so can the high. -/
theorem pack_inj (h : lo < 2 ^ k) (h' : lo' < 2 ^ k) :
    pack k hi lo = pack k hi' lo' ↔ hi = hi' ∧ lo = lo' := by
  rw [pack_eq_iff, Nat.div_eq_of_lt h, Nat.div_eq_of_lt h', Nat.or_zero, Nat.or_zero,
    Nat.mod_eq_of_lt h, Nat.mod_eq_of_lt h']

/-- Or-ing a number of `k` bits in leaves all bits above them. -/
theorem or_eq_iff (h : lo < 2 ^ k) (h' : lo' < 2 ^ k) :
    hi ||| lo = hi' ||| lo' ↔ hi / 2 ^ k = hi' / 2 ^ k ∧
      hi % 2 ^ k ||| lo = hi' % 2 ^ k ||| lo' := by
  rw [eq_iff_div_mod (hi ||| lo) _ (2 ^ k), Nat.or_div_two_pow, Nat.or_div_two_pow,
    Nat.or_mod_two_pow, Nat.or_mod_two_pow, Nat.div_eq_of_lt h, Nat.div_eq_of_lt h', Nat.or_zero,
    Nat.or_zero, Nat.mod_eq_of_lt h, Nat.mod_eq_of_lt h']

/-- The shift and the or on 32-bit words drop what the shift pushes out. -/
theorem toNat_shift_or (t s : Nat) (hs : s < 2 ^ 32) :
    ((UInt32.ofNat t <<< 12) ||| UInt32.ofNat s).toNat = pack 12 (t % 2 ^ 20) s := by
  have hshift : (t % 2 ^ 32) <<< 12 % 2 ^ 32 = (t % 2 ^ 20) <<< 12 := by
    rw [Nat.shiftLeft_eq, Nat.shiftLeft_eq]
    omega
  simp only [UInt32.toNat_or, UInt32.toNat_shiftLeft, UInt32.toNat_ofNat', pack,
    Nat.mod_eq_of_lt hs]
  exact congrArg (· ||| s) hshift

end MyChat
