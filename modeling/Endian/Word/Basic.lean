/-!
# Words and their bytes

`Word n` is a word of `n` bytes, `Bytes n` are `n` bytes in memory order, and base-256 digits tie
the two together.

- `Word.image` and `Word.ofImage`: the host keeps a word as its digits, least significant first,
  which is taken for granted; `ofImage_image` and `image_ofImage` say that the two are inverse to
  each other.
- `Word.swapBytes`: reverses the bytes by shifts; `image_swapBytes` says what that does in memory.
-/

namespace Endian

/-- A sequence of `n` bytes in memory order. -/
abbrev Bytes (n : Nat) := Vector UInt8 n

/-- A word of `n` bytes. -/
abbrev Word (n : Nat) := BitVec (8 * n)

/-! ### Base-256 digits -/

/-- How many numbers `n` base-256 digits can write. -/
def digitSpan (n : Nat) : Nat := Nat.pow 256 n

@[simp] theorem digitSpan_zero : digitSpan 0 = 1 := rfl

theorem digitSpan_succ (n : Nat) : digitSpan (n + 1) = 256 * digitSpan n := Nat.pow_succ'

theorem digitSpan_pos (n : Nat) : 0 < digitSpan n := Nat.pow_pos (by decide)

theorem digitSpan_le {k n : Nat} (h : k ≤ n) : digitSpan k ≤ digitSpan n :=
  Nat.pow_le_pow_right (by decide) h

/-- The number with the given digits, least significant first. -/
def littleValue : List UInt8 → Nat
  | [] => 0
  | b :: bs => b.toNat + 256 * littleValue bs

/-- The lowest `n` digits of a number, least significant first. -/
def littleDigits : Nat → Nat → List UInt8
  | 0, _ => []
  | n + 1, v => UInt8.ofNat v :: littleDigits n (v / 256)

@[simp] theorem length_littleDigits (n v : Nat) : (littleDigits n v).length = n := by
  induction n generalizing v with
  | zero => rfl
  | succ n ih => simp [littleDigits, ih]

theorem littleValue_lt (bs : List UInt8) : littleValue bs < digitSpan bs.length := by
  induction bs with
  | nil => simp [littleValue]
  | cons b bs ih =>
    have hb : b.toNat < 256 := b.toNat_lt
    simp only [littleValue, List.length_cons, digitSpan_succ]
    omega

theorem littleValue_littleDigits (n v : Nat) : littleValue (littleDigits n v) = v % digitSpan n := by
  induction n generalizing v with
  | zero => simp [littleDigits, littleValue, Nat.mod_one]
  | succ n ih =>
    have h : v % digitSpan (n + 1) = v % 256 + 256 * (v / 256 % digitSpan n) := by
      rw [digitSpan_succ, Nat.mod_mul]
    simp only [littleDigits, littleValue, ih, UInt8.toNat_ofNat', h]

theorem littleDigits_littleValue (bs : List UInt8) :
    littleDigits bs.length (littleValue bs) = bs := by
  induction bs with
  | nil => rfl
  | cons b bs ih =>
    have hb : b.toNat < 256 := b.toNat_lt
    have hq : (b.toNat + 256 * littleValue bs) / 256 = littleValue bs := by omega
    have hr : UInt8.ofNat (b.toNat + 256 * littleValue bs) = b := by
      apply UInt8.toNat_inj.mp
      simp only [UInt8.toNat_ofNat']
      omega
    simp only [List.length_cons, littleValue, littleDigits, hq, hr, ih]

theorem littleValue_append (as bs : List UInt8) :
    littleValue (as ++ bs) = littleValue as + digitSpan as.length * littleValue bs := by
  induction as with
  | nil => simp [littleValue]
  | cons a as ih =>
    simp only [List.cons_append, littleValue, ih, List.length_cons, digitSpan_succ]
    rw [Nat.mul_add, Nat.mul_assoc, Nat.add_assoc]

theorem littleDigits_succ (n v : Nat) :
    littleDigits (n + 1) v = littleDigits n v ++ [UInt8.ofNat (v / digitSpan n)] := by
  induction n generalizing v with
  | zero => simp [littleDigits]
  | succ n ih =>
    rw [littleDigits, ih, littleDigits, List.cons_append, Nat.div_div_eq_div_mul, ← digitSpan_succ]

/-! ### The host's memory image -/

namespace Word

variable {n : Nat}

/-- The bytes with which the host keeps a word in memory. That they are the digits of the word, the
lowest first, is an assumption on the host. -/
def image (w : Word n) : Bytes n := ⟨(littleDigits n w.toNat).toArray, by simp⟩

/-- The word that the host sees in memory, under the same assumption. -/
def ofImage (bs : Bytes n) : Word n := BitVec.ofNat (8 * n) (littleValue bs.toList)

theorem toNat_lt (w : Word n) : w.toNat < digitSpan n := by
  have h := w.isLt
  rwa [Nat.pow_mul] at h

theorem toNat_ofNat {v : Nat} (h : v < digitSpan n) : (BitVec.ofNat (8 * n) v).toNat = v := by
  rw [BitVec.toNat_ofNat, Nat.pow_mul]
  exact Nat.mod_eq_of_lt h

@[simp] theorem toList_image (w : Word n) : w.image.toList = littleDigits n w.toNat := rfl

@[simp] theorem toNat_ofImage (bs : Bytes n) : (ofImage bs).toNat = littleValue bs.toList := by
  have h := littleValue_lt bs.toList
  rw [Vector.length_toList] at h
  rw [ofImage, toNat_ofNat h]

@[simp] theorem ofImage_image (w : Word n) : ofImage w.image = w := by
  apply BitVec.eq_of_toNat_eq
  rw [toNat_ofImage, toList_image, littleValue_littleDigits, Nat.mod_eq_of_lt w.toNat_lt]

@[simp] theorem image_ofImage (bs : Bytes n) : (ofImage bs).image = bs := by
  apply Vector.toList_inj.mp
  have h := littleDigits_littleValue bs.toList
  rw [Vector.length_toList] at h
  rw [toList_image, toNat_ofImage, h]

theorem image_inj {v w : Word n} : v.image = w.image ↔ v = w :=
  ⟨fun h => by rw [← ofImage_image v, h, ofImage_image], fun h => h ▸ rfl⟩

/-! ### Reversing the bytes -/

/-- The lowest `k` bytes of a word in reverse, one shift a byte. -/
def swapLow (w : Word n) : Nat → Word n
  | 0 => 0
  | k + 1 => (swapLow w k <<< 8) ||| ((w >>> (8 * k)) &&& 255#(8 * n))

/-- The word with its bytes in reverse. -/
def swapBytes (w : Word n) : Word n := swapLow w n

theorem toNat_swapLow (w : Word n) {k : Nat} (hk : k ≤ n) :
    (swapLow w k).toNat = littleValue (littleDigits k w.toNat).reverse := by
  induction k with
  | zero => simp [swapLow, littleDigits, littleValue]
  | succ k ih =>
    have hlt : littleValue (littleDigits k w.toNat).reverse < digitSpan k := by
      have h := littleValue_lt (littleDigits k w.toNat).reverse
      rwa [List.length_reverse, length_littleDigits] at h
    have hle : 256 * digitSpan k ≤ digitSpan n := digitSpan_succ k ▸ digitSpan_le hk
    have h255 : 255 < digitSpan n := by have := digitSpan_pos k; omega
    have hbits : 2 ^ (8 * n) = digitSpan n := Nat.pow_mul 2 8 n
    have hdigit : (w >>> (8 * k) &&& 255#(8 * n)).toNat = w.toNat / digitSpan k % 256 := by
      have hk' : 2 ^ (8 * k) = digitSpan k := Nat.pow_mul 2 8 k
      rw [BitVec.toNat_and, BitVec.toNat_ushiftRight, toNat_ofNat h255,
        Nat.shiftRight_eq_div_pow, hk']
      exact Nat.and_two_pow_sub_one_eq_mod _ 8
    have hshift : (swapLow w k <<< 8).toNat
        = littleValue (littleDigits k w.toNat).reverse <<< 8 := by
      rw [BitVec.toNat_shiftLeft, ih (by omega), hbits, Nat.mod_eq_of_lt]
      rw [Nat.shiftLeft_eq]
      omega
    rw [swapLow, BitVec.toNat_or, hshift, hdigit, littleDigits_succ, List.reverse_append,
      ← Nat.shiftLeft_add_eq_or_of_lt (by omega)]
    simp only [List.reverse_singleton, List.singleton_append, littleValue, UInt8.toNat_ofNat']
    rw [Nat.shiftLeft_eq]
    omega

theorem toNat_swapBytes (w : Word n) :
    w.swapBytes.toNat = littleValue w.image.toList.reverse :=
  toNat_swapLow w (Nat.le_refl n)

theorem image_swapBytes (w : Word n) : w.swapBytes.image = w.image.reverse := by
  rw [← image_ofImage w.image.reverse, image_inj]
  apply BitVec.eq_of_toNat_eq
  rw [toNat_swapBytes, toNat_ofImage, Vector.toList_reverse]

@[simp] theorem swapBytes_swapBytes (w : Word n) : w.swapBytes.swapBytes = w := by
  rw [← image_inj, image_swapBytes, image_swapBytes, Vector.reverse_reverse]

end Word

end Endian
