import Endian.Proofs.Buffer.Table
import Endian.Proofs.Tagged.Plain

/-!
# Reading behind a displacement

A place behind a displacement is reached in two ways: the bytes before it are skipped and the rest is
read from its start, or a cursor is set to it. The two are checked at different places, the one at the
skip and again at the read, the other at the read alone, and come to the same (`readBehind_eq`). Two
displacements one after the other skip as many bytes as both together (`tail_tail`).
-/

namespace Endian

/-! ### Skipping -/

namespace Displacement

theorem tail_of_le {data : Array UInt8} {d : Displacement} (h : d.offset.toNat ≤ data.size) :
    tail data d = .ok (data.extract d.offset.toNat data.size) := if_pos h

theorem tail_of_lt {data : Array UInt8} {d : Displacement} (h : data.size < d.offset.toNat) :
    tail data d = .error .outOfBounds := if_neg (Nat.not_le.2 h)

theorem size_tail_le {data rest : Array UInt8} {d : Displacement} (h : tail data d = .ok rest) :
    rest.size ≤ data.size := by
  rcases Nat.lt_or_ge data.size d.offset.toNat with hlt | hle
  · rw [tail_of_lt hlt] at h
    cases h
  · rw [tail_of_le hle] at h
    cases h
    rw [Array.size_extract]
    omega

/-- Two displacements skip their sum, as a natural number, and fail together exactly if that is too
much. -/
theorem tail_tail (data : Array UInt8) (d e : Displacement) :
    ((tail data d).bind fun rest => tail rest e) =
      if d.offset.toNat + e.offset.toNat ≤ data.size then
        .ok (data.extract (d.offset.toNat + e.offset.toNat) data.size)
      else .error .outOfBounds := by
  rcases Nat.lt_or_ge data.size d.offset.toNat with hlt | hle
  · rw [tail_of_lt hlt, if_neg (by omega)]
    rfl
  · have hsize : (data.extract d.offset.toNat data.size).size = data.size - d.offset.toNat := by
      rw [Array.size_extract]
      omega
    rw [tail_of_le hle]
    show tail (data.extract d.offset.toNat data.size) e = _
    rcases Nat.lt_or_ge (data.size - d.offset.toNat) e.offset.toNat with hlt | hle'
    · rw [tail_of_lt (by omega), if_neg (by omega)]
    · rw [tail_of_le (by omega), if_pos (by omega), hsize, Array.extract_extract]
      congr 2
      omega

end Displacement

namespace Buffer

/-- The buffer without the bytes that a displacement skips. -/
def tail (b : Buffer) (d : Displacement) : Except Error Buffer :=
  match h : Displacement.tail b.bytes d with
  | .ok rest => .ok ⟨rest, Nat.lt_of_le_of_lt (Displacement.size_tail_le h) b.size_lt⟩
  | .error e => .error e

theorem tail_of_le {b : Buffer} {d : Displacement} (h : d.offset.toNat ≤ b.bytes.size) :
    ∃ hlt, b.tail d = .ok ⟨b.bytes.extract d.offset.toNat b.bytes.size, hlt⟩ := by
  unfold tail
  split
  · next rest hrest =>
    rw [Displacement.tail_of_le h] at hrest
    cases hrest
    exact ⟨Nat.lt_of_le_of_lt (Displacement.size_tail_le hrest) b.size_lt, rfl⟩
  · next e he =>
    rw [Displacement.tail_of_le h] at he
    cases he

theorem tail_of_lt {b : Buffer} {d : Displacement} (h : b.bytes.size < d.offset.toNat) :
    b.tail d = .error .outOfBounds := by
  unfold tail
  split
  · next rest hrest =>
    rw [Displacement.tail_of_lt h] at hrest
    cases hrest
  · next e he =>
    rw [Displacement.tail_of_lt h] at he
    cases he
    rfl

/-- The scalar at the start of what a displacement leaves. -/
def readBehind (b : Buffer) (d : Displacement) (o : ByteOrder) (t : Scalar) :
    Except Failure (Word t.size) :=
  match b.tail d with
  | .ok rest => rest.read o t
  | .error e => .error (.error e)

theorem read_of_le {b : Buffer} {o : ByteOrder} {t : Scalar} (h : 0 + t.size ≤ b.bytes.size) :
    b.read o t = .ok (Word.load o (bytesAt b.bytes 0 t.size h)) := by
  rw [read, Cursor.read_of_le (c := Cursor.start b) h]
  rfl

theorem read_of_lt {b : Buffer} {o : ByteOrder} {t : Scalar} (h : b.bytes.size < 0 + t.size) :
    b.read o t = .error (.error .outOfBounds) := by
  rw [read, Cursor.read_of_lt (c := Cursor.start b) h]

/-- The first bytes of the rest are those behind the bytes skipped. -/
theorem bytesAt_extract {data : Array UInt8} {start n : Nat} (h : start + n ≤ data.size)
    (h' : 0 + n ≤ (data.extract start data.size).size) :
    bytesAt (data.extract start data.size) 0 n h' = bytesAt data start n h := by
  apply Vector.ext
  intro i hi
  simp only [bytesAt, Vector.getElem_ofFn, Array.getElem_extract, Nat.zero_add]

theorem readBehind_of_le {b : Buffer} {d : Displacement} {o : ByteOrder} {t : Scalar}
    (h : d.offset.toNat + t.size ≤ b.bytes.size) :
    b.readBehind d o t = .ok (Word.load o (bytesAt b.bytes d.offset.toNat t.size h)) := by
  have hfit : 0 + t.size ≤ (b.bytes.extract d.offset.toNat b.bytes.size).size := by
    rw [Array.size_extract]
    omega
  obtain ⟨hlt, htail⟩ := b.tail_of_le (d := d) (by omega)
  unfold readBehind
  rw [htail]
  exact (read_of_le hfit).trans (by rw [bytesAt_extract h hfit])

theorem readBehind_of_lt {b : Buffer} {d : Displacement} {o : ByteOrder} {t : Scalar}
    (h : b.bytes.size < d.offset.toNat + t.size) :
    b.readBehind d o t = .error (.error .outOfBounds) := by
  unfold readBehind
  rcases Nat.lt_or_ge b.bytes.size d.offset.toNat with hlt | hle
  · rw [tail_of_lt hlt]
  · obtain ⟨_, htail⟩ := b.tail_of_le hle
    rw [htail]
    refine read_of_lt ?_
    show (b.bytes.extract d.offset.toNat b.bytes.size).size < 0 + t.size
    rw [Array.size_extract]
    omega

theorem readBehind_eq (b : Buffer) (d : Displacement) (o : ByteOrder) (t : Scalar) :
    b.readBehind d o t = ((Cursor.read o t).run ⟨b, d.offset⟩).1 := by
  rcases Nat.lt_or_ge b.bytes.size (d.offset.toNat + t.size) with hlt | hle
  · rw [readBehind_of_lt hlt, Cursor.read_of_lt (c := ⟨b, d.offset⟩) hlt]
  · rw [readBehind_of_le hle, Cursor.read_of_le (c := ⟨b, d.offset⟩) hle]

end Buffer

/-! ### At a cursor -/

/-- A reply that gives the number of a scalar, or that fails as its reading does. -/
def Cursor.Reply.Tells {t : Scalar} (r : Reply) : Except Failure (Word t.size) → Prop
  | .ok v => r.number? = some (t.toInt v)
  | .error f => r = .failed f

theorem Cursor.tells_step {c : Cursor} {s : Step} {o : ByteOrder} {t : Scalar}
    (h : s.loaded? = some (o, t)) : (c.step s).2.Tells ((read o t).run c).1 := by
  obtain ⟨reply, hstep, hnumber⟩ := step_of_loaded (c := c) h
  rw [hstep]
  show (Reply.of reply ((read o t).run c).1).Tells _
  cases ((read o t).run c).1 with
  | ok w => exact hnumber w
  | error f => rfl

/-- A scalar behind a displacement is the one at a cursor set there, in whatever form it is read,
and there is none exactly if its end lies behind the end of the buffer. -/
structure SameReads (b : Buffer) (d : Displacement) (o : ByteOrder) (t : Scalar) : Prop where
  cursor : ∀ s : Cursor.Step, s.loaded? = some (o, t) →
    ((⟨b, d.offset⟩ : Cursor).step s).2.Tells (b.readBehind d o t)
  ok_iff : (∃ v, b.readBehind d o t = .ok v) ↔ d.offset.toNat + t.size ≤ b.size
  error_iff : b.readBehind d o t = .error (.error .outOfBounds) ↔
    b.size < d.offset.toNat + t.size

theorem sameReads (b : Buffer) (d : Displacement) (o : ByteOrder) (t : Scalar) :
    SameReads b d o t := by
  have hcursor (s : Cursor.Step) (hs : s.loaded? = some (o, t)) :
      ((⟨b, d.offset⟩ : Cursor).step s).2.Tells (b.readBehind d o t) := by
    rw [b.readBehind_eq]
    exact Cursor.tells_step hs
  rcases Nat.lt_or_ge b.size (d.offset.toNat + t.size) with hlt | hle
  · have hread := b.readBehind_of_lt (o := o) hlt
    refine ⟨hcursor, ?_, iff_of_true hread hlt⟩
    refine iff_of_false (fun ⟨v, hv⟩ => ?_) (Nat.not_le.2 hlt)
    rw [hread] at hv
    cases hv
  · have hread := b.readBehind_of_le (o := o) hle
    refine ⟨hcursor, iff_of_true ⟨_, hread⟩ hle, ?_⟩
    refine iff_of_false (fun he => ?_) (Nat.not_lt.2 hle)
    rw [hread] at he
    cases he

/-- Reading behind a displacement and reading at a cursor agree, at the place that the number of the
tag says. Two displacements skip their sum if there are as many bytes, in either order. -/
theorem displaced_reads_agree :
    (∀ d : Displacement, d.offset.toNat = d.number) ∧
    (∀ (b : Buffer) (d : Displacement) (o : ByteOrder) (t : Scalar), SameReads b d o t) ∧
    ∀ (data : Array UInt8) (d e : Displacement),
      ((Displacement.tail data d).bind fun rest => Displacement.tail rest e) =
        (if d.offset.toNat + e.offset.toNat ≤ data.size then
          .ok (data.extract (d.offset.toNat + e.offset.toNat) data.size)
        else .error .outOfBounds) ∧
      ((Displacement.tail data e).bind fun rest => Displacement.tail rest d) =
        (Displacement.tail data d).bind fun rest => Displacement.tail rest e := by
  refine ⟨Displacement.toNat_offset, sameReads, fun data d e => ⟨Displacement.tail_tail data d e, ?_⟩⟩
  rw [Displacement.tail_tail, Displacement.tail_tail, Nat.add_comm]

end Endian
