import Endian.Proofs.Guard.Allocation
import Mathlib.Order.Interval.Set.Basic

/-!
# The header in front of a row

The elements of a row start at the first multiple of their alignment behind the header. So the distance
from the first element back to the header is the same for every length (`Sound.row_zero`), and header
and elements lie beside each other in an allocation that is aligned for both (`sound_row`). Hence a
release that knows no more than the first element finds the number of elements, and from it the
allocation as it was made (`row_layout_sound`).
-/

namespace Endian

namespace Layout

variable {elem whole : Layout} {len start : Nat}

/-! ### Layouts of elements -/

/-- Sizes and alignments that elements have: if the first one of a row is aligned, all are. -/
structure Proper (elem : Layout) : Prop where
  align_isPowerOfTwo : elem.align.isPowerOfTwo
  align_dvd_size : elem.align ∣ elem.size

theorem Proper.align_pos (h : elem.Proper) : 0 < elem.align :=
  Nat.pos_of_isPowerOfTwo h.align_isPowerOfTwo

theorem dvd_roundUp (n a : Nat) : a ∣ roundUp n a := Nat.dvd_mul_left _ _

theorem roundUp_le (n a : Nat) : roundUp n a ≤ n + (a - 1) := Nat.div_mul_le_self _ _

/-- The greater one of two powers of two is a multiple of both. -/
theorem dvd_max_of_isPowerOfTwo {a b : Nat} (ha : a.isPowerOfTwo) (hb : b.isPowerOfTwo) :
    a ∣ max a b ∧ b ∣ max a b := by
  obtain ⟨j, rfl⟩ := ha
  obtain ⟨k, rfl⟩ := hb
  rcases Nat.le_total j k with h | h
  · rw [Nat.max_eq_right (Nat.pow_le_pow_right (by decide) h)]
    exact ⟨Nat.pow_dvd_pow 2 h, Nat.dvd_refl _⟩
  · rw [Nat.max_eq_left (Nat.pow_le_pow_right (by decide) h)]
    exact ⟨Nat.dvd_refl _, Nat.pow_dvd_pow 2 h⟩

/-! ### Layouts of rows -/

theorem row_eq_ok_iff :
    elem.row len = .ok (whole, start) ↔ elem.Fits len ∧ elem.whole len = whole ∧ elem.start = start := by
  by_cases h : elem.Fits len
  · rw [row_of_fits h, Except.ok.injEq, Prod.mk.injEq]
    exact (and_iff_right h).symm
  · rw [row_of_not_fits h]
    exact iff_of_false nofun fun hrow => h hrow.1

theorem align_whole_dvd_size (elem : Layout) (len : Nat) :
    (elem.whole len).align ∣ (elem.whole len).size := dvd_roundUp _ _

/-- Rounding up to the alignment stays in the limit. -/
theorem size_whole_le (helem : 0 < elem.align) (h : elem.Fits len) :
    (elem.whole len).size ≤ sizeLimit := by
  have hstart := eight_le_start helem
  have hround := roundUp_le (elem.start + elem.size * len) (max header.align elem.align)
  have hsize : (elem.whole len).size =
    roundUp (elem.start + elem.size * len) (max header.align elem.align) := rfl
  unfold Fits at h
  omega

/-- The places of the header in an allocation. -/
def headerBytes : Set Nat := Set.Ico 0 header.size

/-- The places of the elements in an allocation. -/
def itemBytes (elem : Layout) (len start : Nat) : Set Nat := Set.Ico start (start + len * elem.size)

/-- A row of elements fits into an allocation of the given layout, from the given place on. -/
structure Sound (elem : Layout) (len : Nat) (whole : Layout) (start : Nat) : Prop where
  row_zero : ∃ empty, elem.row 0 = .ok (empty, start)
  eight_le_start : 8 ≤ start
  align_dvd_start : elem.align ∣ start
  apart : ∀ i ∈ headerBytes, i ∉ itemBytes elem len start
  header_inside : headerBytes ⊆ Set.Ico 0 whole.size
  items_inside : itemBytes elem len start ⊆ Set.Ico 0 whole.size
  header_align_dvd : 8 ∣ whole.align
  elem_align_dvd : elem.align ∣ whole.align
  align_dvd_size : whole.align ∣ whole.size
  size_pos : 0 < whole.size
  size_le : whole.size ≤ sizeLimit
  /-- Where the allocation is aligned, every element is. -/
  item_aligned : ∀ base i, whole.align ∣ base → elem.align ∣ base + start + elem.size * i

theorem sound_row (helem : elem.Proper) (hrow : elem.row len = .ok (whole, start)) :
    Sound elem len whole start := by
  obtain ⟨hfits, rfl, rfl⟩ := row_eq_ok_iff.1 hrow
  have hstart := eight_le_start helem.align_pos
  have hinside := elem.le_size_whole len
  have halign := dvd_max_of_isPowerOfTwo (a := header.align) ⟨3, rfl⟩ helem.align_isPowerOfTwo
  have hdvd : elem.align ∣ elem.start := dvd_roundUp _ _
  rw [Nat.mul_comm] at hinside
  exact {
    row_zero := ⟨_, row_of_fits hfits.zero⟩
    eight_le_start := hstart
    align_dvd_start := hdvd
    apart := fun i hi hi' => Nat.not_lt.2 (hstart.trans hi'.1) hi.2
    header_inside := Set.Ico_subset_Ico_right (by show 8 ≤ _; omega)
    items_inside := Set.Ico_subset_Ico (Nat.zero_le _) hinside
    header_align_dvd := halign.1
    elem_align_dvd := halign.2
    align_dvd_size := elem.align_whole_dvd_size len
    size_pos := by omega
    size_le := size_whole_le helem.align_pos hfits
    item_aligned := fun base i hbase =>
      Nat.dvd_add (Nat.dvd_add (Nat.dvd_trans halign.2 hbase) hdvd)
        (Nat.dvd_mul_right_of_dvd helem.align_dvd_size i) }

end Layout

namespace Placed

open Layout

variable {elem whole : Layout} {len start : Nat}

/-- A row that is placed at a base is found again from its first element: the header, the number of
elements that was written there, and the allocation. -/
structure Refound (elem : Layout) (len : Nat) (p : Placed) : Prop where
  place : Placed.place elem len p.base = .ok p
  headerOf : Placed.headerOf elem p.first = .ok p.base
  stored : ∀ (stray : Nat → UInt8) (content : Array UInt8), content.size = elem.size * len →
    (Word.ofImage ((p.memory len stray content).read p.base 8)).toNat = len
  recover : Placed.recover elem len p.first = .ok p

theorem refound_ofBase (helem : 0 < elem.align) (hlen : len < UInt64.size) (h : elem.Fits len)
    (base : Nat) : Refound elem len (ofBase elem len base) where
  place := place_of_fits h base
  headerOf := headerOf_of_fits h base
  stored stray content hcontent := by
    show (Word.ofImage ((Placed.memory _ len stray content).read base 8)).toNat = len
    rw [read_header base stray helem hcontent, Word.ofImage_image, BitVec.toNat_ofNat,
      Nat.mod_eq_of_lt hlen]
  recover := recover_of_fits h base

end Placed

/-- What a release finds of a row in memory is what was placed. -/
theorem Allocation.recover_ofRow {α : Type} [Inline α] {row : List α}
    (hlen : row.length < UInt64.size) (h : (Inline.layout α).Fits row.length) (base : Nat)
    (stray : Nat → UInt8) :
    ∃ a : Allocation α, ofRow base stray row = .ok a ∧
      (a.length.bind fun n => Placed.recover (Inline.layout α) n a.first) =
        Placed.place (Inline.layout α) row.length base := by
  have hrow := ofRow_of_fits base stray row h
  refine ⟨_, hrow, ?_⟩
  rw [(holds_ofRow hlen hrow).length_eq, Placed.place_of_fits h]
  exact Placed.recover_of_fits h base

/-- Wherever a row of proper elements can be laid out, its layout is sound, a row that is placed
anywhere by it is found again from its first element, and so is every row that was moved into memory. -/
theorem row_layout_sound {elem whole : Layout} {len start : Nat} (helem : elem.Proper)
    (hlen : len < UInt64.size) (hrow : elem.row len = .ok (whole, start)) :
    Layout.Sound elem len whole start ∧
      (∀ base, Placed.Refound elem len ⟨base, whole, base + start⟩) ∧
      ∀ {α : Type} [Inline α] (row : List α) (base : Nat) (stray : Nat → UInt8),
        Inline.layout α = elem → row.length = len →
        ∃ a : Allocation α, Allocation.ofRow base stray row = .ok a ∧
          (a.length.bind fun n => Placed.recover elem n a.first) = .ok ⟨base, whole, base + start⟩ := by
  obtain ⟨hfits, rfl, rfl⟩ := Layout.row_eq_ok_iff.1 hrow
  refine ⟨Layout.sound_row helem hrow, Placed.refound_ofBase helem.align_pos hlen hfits, ?_⟩
  rintro α _ row base stray rfl rfl
  obtain ⟨a, ha, hfound⟩ := Allocation.recover_ofRow hlen hfits base stray
  exact ⟨a, ha, hfound.trans (Placed.place_of_fits hfits base)⟩

/-- The longest row of elements that ask for more alignment than the header, the longest row of
elements without size, and a row in memory. -/
theorem row_layout_sound_longest :
    let wide : Layout := ⟨32, 32⟩
    let blank : Layout := ⟨0, 64⟩
    wide.row 288230376151711742 = .ok (⟨9223372036854775776, 32⟩, 32) ∧
      wide.row 288230376151711743 = .error (.rowTooLarge 288230376151711743) ∧
      wide.Sound 288230376151711742 ⟨9223372036854775776, 32⟩ 32 ∧
      Placed.Refound wide 288230376151711742 ⟨4096, ⟨9223372036854775776, 32⟩, 4128⟩ ∧
      blank.row 18446744073709551615 = .ok (⟨64, 64⟩, 64) ∧
      blank.Sound 18446744073709551615 ⟨64, 64⟩ 64 ∧
      Placed.Refound blank 18446744073709551615 ⟨4096, ⟨64, 64⟩, 4160⟩ ∧
      ∃ a, Allocation.ofRow 4096 (fun _ => 165) [1#128, 2#128] = .ok a ∧
        (a.length.bind fun n => Placed.recover ⟨16, 16⟩ n a.first) =
          .ok ⟨4096, ⟨48, 16⟩, 4112⟩ := by
  intro wide blank
  have hwide : wide.row 288230376151711742 = .ok (⟨9223372036854775776, 32⟩, 32) := by
    decide +kernel
  have hblank : blank.row 18446744073709551615 = .ok (⟨64, 64⟩, 64) := by decide +kernel
  have hpair : (Layout.mk 16 16).row 2 = .ok (⟨48, 16⟩, 16) := by decide +kernel
  obtain ⟨hsound, hfound, -⟩ := row_layout_sound ⟨⟨5, rfl⟩, ⟨1, rfl⟩⟩ (by decide) hwide
  obtain ⟨hsound', hfound', -⟩ := row_layout_sound ⟨⟨6, rfl⟩, ⟨0, rfl⟩⟩ (by decide) hblank
  obtain ⟨-, -, hmemory⟩ := row_layout_sound ⟨⟨4, rfl⟩, ⟨1, rfl⟩⟩ (by decide) hpair
  exact ⟨hwide, by decide +kernel, hsound, hfound 4096, hblank, hsound', hfound' 4096,
    hmemory [1#128, 2#128] 4096 _ rfl rfl⟩

end Endian
