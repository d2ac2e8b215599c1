import Mathlib.Algebra.Group.Nat.Defs
import Mathlib.Data.List.Basic

/-!
# Big-endian integers

Integers as the octets they take on the wire, most significant first: of 16 and of 32 bits, and of
any number of octets.
-/

namespace BigEndian

theorem octet_cases {motive : UInt8 → Prop} (octet : ∀ n : Fin 256, motive (UInt8.ofNat n))
    (value : UInt8) : motive value := by
  have h := octet ⟨value.toNat, value.toNat_lt⟩
  rwa [UInt8.ofNat_toNat] at h

/-- The two octets of `value`. -/
def toBytes16 (value : UInt16) : List UInt8 :=
  [UInt8.ofNat (value.toNat / 256), UInt8.ofNat (value.toNat % 256)]

def ofBytes16 (high low : UInt8) : UInt16 := UInt16.ofNat (high.toNat * 256 + low.toNat)

@[simp] theorem length_toBytes16 (value : UInt16) : (toBytes16 value).length = 2 := rfl

@[simp] theorem toBytes16_ofBytes16 (high low : UInt8) :
    toBytes16 (ofBytes16 high low) = [high, low] := by
  have hh := high.toNat_lt
  have hl := low.toNat_lt
  have hn : (high.toNat * 256 + low.toNat) % 2 ^ 16 = high.toNat * 256 + low.toNat := by omega
  unfold toBytes16 ofBytes16
  rw [UInt16.toNat_ofNat', hn]
  have hdiv : (high.toNat * 256 + low.toNat) / 256 = high.toNat := by omega
  have hmod : (high.toNat * 256 + low.toNat) % 256 = low.toNat := by omega
  rw [hdiv, hmod, UInt8.ofNat_toNat, UInt8.ofNat_toNat]

@[simp] theorem ofBytes16_octets (value : UInt16) :
    ofBytes16 (UInt8.ofNat (value.toNat / 256)) (UInt8.ofNat (value.toNat % 256)) = value := by
  have h := value.toNat_lt
  unfold ofBytes16
  rw [UInt8.toNat_ofNat', UInt8.toNat_ofNat']
  have hv : value.toNat / 256 % 2 ^ 8 * 256 + value.toNat % 256 % 2 ^ 8 = value.toNat := by omega
  rw [hv, UInt16.ofNat_toNat]

/-! ## Thirty-two bits -/

def ofBytes32 (a b c d : UInt8) : UInt32 :=
  a.toUInt32 <<< 24 ||| b.toUInt32 <<< 16 ||| c.toUInt32 <<< 8 ||| d.toUInt32

/-- The four octets of `value`. -/
def toBytes32 (value : UInt32) : List UInt8 :=
  [(value >>> 24).toUInt8, (value >>> 16).toUInt8, (value >>> 8).toUInt8, value.toUInt8]

variable {shift : ℕ}

theorem shiftLeft_or {high low : ℕ} (h : low < 2 ^ shift) :
    high <<< shift ||| low = high * 2 ^ shift + low := by
  rw [← Nat.shiftLeft_add_eq_or_of_lt h, Nat.shiftLeft_eq]

theorem toNat_octet_shift (octet : UInt8) {by_ : UInt32} (hby : by_.toNat % 32 = shift)
    (hshift : shift ≤ 24) : (octet.toUInt32 <<< by_).toNat = octet.toNat <<< shift := by
  have hlt : octet.toNat * 2 ^ shift < 2 ^ 32 := calc
    octet.toNat * 2 ^ shift < 2 ^ 8 * 2 ^ shift :=
      Nat.mul_lt_mul_of_pos_right octet.toNat_lt (Nat.two_pow_pos shift)
    _ ≤ 2 ^ 8 * 2 ^ 24 := Nat.mul_le_mul_left _ (Nat.pow_le_pow_right (by decide) hshift)
    _ = 2 ^ 32 := by decide
  rw [UInt32.toNat_shiftLeft, UInt8.toNat_toUInt32, hby, Nat.mod_eq_of_lt]
  rw [Nat.shiftLeft_eq]
  exact hlt

theorem toNat_ofBytes32 (a b c d : UInt8) :
    (ofBytes32 a b c d).toNat
      = a.toNat * 2 ^ 24 + b.toNat * 2 ^ 16 + c.toNat * 2 ^ 8 + d.toNat := by
  have hb := b.toNat_lt
  have hc := c.toNat_lt
  have hd := d.toNat_lt
  have hab : a.toNat <<< 24 ||| b.toNat <<< 16 = (a.toNat * 2 ^ 8 + b.toNat) <<< 16 := by
    rw [shiftLeft_or (by rw [Nat.shiftLeft_eq]; omega), Nat.shiftLeft_eq, Nat.shiftLeft_eq]
    omega
  have habc : (a.toNat * 2 ^ 8 + b.toNat) <<< 16 ||| c.toNat <<< 8
      = ((a.toNat * 2 ^ 8 + b.toNat) * 2 ^ 8 + c.toNat) <<< 8 := by
    rw [shiftLeft_or (by rw [Nat.shiftLeft_eq]; omega), Nat.shiftLeft_eq, Nat.shiftLeft_eq]
    omega
  unfold ofBytes32
  rw [UInt32.toNat_or, UInt32.toNat_or, UInt32.toNat_or, toNat_octet_shift a rfl (by decide),
    toNat_octet_shift b rfl (by decide), toNat_octet_shift c rfl (by decide),
    UInt8.toNat_toUInt32, show (24 : UInt32).toNat % 32 = 24 from rfl,
    show (16 : UInt32).toNat % 32 = 16 from rfl, show (8 : UInt32).toNat % 32 = 8 from rfl,
    hab, habc, shiftLeft_or (by omega)]
  omega

@[simp] theorem toBytes32_ofBytes32 (a b c d : UInt8) :
    toBytes32 (ofBytes32 a b c d) = [a, b, c, d] := by
  have ha := a.toNat_lt
  have hb := b.toNat_lt
  have hc := c.toNat_lt
  have hd := d.toNat_lt
  have hword := toNat_ofBytes32 a b c d
  have hoctet : ∀ (value : UInt32) (octet : UInt8), value.toNat % 256 = octet.toNat →
      value.toUInt8 = octet := by
    intro value octet h
    apply UInt8.toNat_inj.mp
    rw [UInt32.toNat_toUInt8]
    exact h
  unfold toBytes32
  rw [hoctet (ofBytes32 a b c d >>> 24) a, hoctet (ofBytes32 a b c d >>> 16) b,
    hoctet (ofBytes32 a b c d >>> 8) c, hoctet (ofBytes32 a b c d) d]
  · omega
  · rw [UInt32.toNat_shiftRight, Nat.shiftRight_eq_div_pow]
    show (ofBytes32 a b c d).toNat / 2 ^ 8 % 256 = _
    omega
  · rw [UInt32.toNat_shiftRight, Nat.shiftRight_eq_div_pow]
    show (ofBytes32 a b c d).toNat / 2 ^ 16 % 256 = _
    omega
  · rw [UInt32.toNat_shiftRight, Nat.shiftRight_eq_div_pow]
    show (ofBytes32 a b c d).toNat / 2 ^ 24 % 256 = _
    omega

@[simp] theorem ofBytes32_octets (value : UInt32) :
    ofBytes32 (value >>> 24).toUInt8 (value >>> 16).toUInt8 (value >>> 8).toUInt8 value.toUInt8
      = value := by
  have h := value.toNat_lt
  apply UInt32.toNat_inj.mp
  rw [toNat_ofBytes32, UInt32.toNat_toUInt8, UInt32.toNat_toUInt8, UInt32.toNat_toUInt8,
    UInt32.toNat_toUInt8, UInt32.toNat_shiftRight, UInt32.toNat_shiftRight,
    UInt32.toNat_shiftRight, Nat.shiftRight_eq_div_pow, Nat.shiftRight_eq_div_pow,
    Nat.shiftRight_eq_div_pow]
  show value.toNat / 2 ^ 24 % 2 ^ 8 * 2 ^ 24 + value.toNat / 2 ^ 16 % 2 ^ 8 * 2 ^ 16
    + value.toNat / 2 ^ 8 % 2 ^ 8 * 2 ^ 8 + value.toNat % 2 ^ 8 = value.toNat
  omega

/-! ## Any number of octets -/

/-- The last `count` octets of `value`. -/
def octetsOf : ℕ → ℕ → List UInt8
  | 0, _ => []
  | count + 1, value => UInt8.ofNat (value / 256 ^ count) :: octetsOf count value

def valueOf (octets : List UInt8) : ℕ := octets.foldl (fun value octet => value * 256 + octet.toNat) 0

variable (count value : ℕ) (octets : List UInt8)

@[simp] theorem length_octetsOf : (octetsOf count value).length = count := by
  induction count with
  | zero => rfl
  | succ count ih => exact congrArg (· + 1) ih

theorem drop_octetsOf (more count value : ℕ) :
    (octetsOf (more + count) value).drop more = octetsOf count value := by
  induction more with
  | zero => rw [Nat.zero_add, List.drop_zero]
  | succ more ih =>
    rw [Nat.add_right_comm]
    exact ih

theorem foldl_octets (start : ℕ) :
    octets.foldl (fun value octet => value * 256 + octet.toNat) start
      = start * 256 ^ octets.length + valueOf octets := by
  unfold valueOf
  induction octets generalizing start with
  | nil => exact (Nat.mul_one start).symm
  | cons octet octets ih =>
    rw [List.foldl_cons, List.foldl_cons, ih, ih (0 * 256 + octet.toNat), List.length_cons,
      Nat.pow_succ, Nat.zero_mul, Nat.zero_add, Nat.add_mul, Nat.mul_assoc, Nat.add_assoc,
      Nat.mul_comm 256]

theorem valueOf_cons (octet : UInt8) (octets : List UInt8) :
    valueOf (octet :: octets) = octet.toNat * 256 ^ octets.length + valueOf octets := by
  show octets.foldl _ (0 * 256 + octet.toNat) = _
  rw [foldl_octets, Nat.zero_mul, Nat.zero_add]

theorem valueOf_lt : valueOf octets < 256 ^ octets.length := by
  induction octets with
  | nil => decide
  | cons octet octets ih =>
    have hoctet : octet.toNat + 1 ≤ 256 := octet.toNat_lt
    have hmul := Nat.mul_le_mul_right (256 ^ octets.length) hoctet
    rw [valueOf_cons, List.length_cons, Nat.pow_succ, Nat.mul_comm _ 256]
    rw [Nat.add_mul, Nat.one_mul] at hmul
    omega

theorem valueOf_octetsOf : valueOf (octetsOf count value) = value % 256 ^ count := by
  induction count with
  | zero => exact (Nat.mod_one value).symm
  | succ count ih =>
    rw [octetsOf, valueOf_cons, ih, length_octetsOf, UInt8.toNat_ofNat']
    show value / 256 ^ count % 256 * 256 ^ count + value % 256 ^ count = value % 256 ^ (count + 1)
    rw [Nat.pow_succ, Nat.mod_mul, Nat.mul_comm (256 ^ count), Nat.add_comm]

end BigEndian
