import Endian.Proofs.Policy.Agreement
import Endian.Proofs.Tagged.Slice

/-!
# Walks over a table

A walk reads scalars of one type one after another until a read fails. Whichever read it takes, it
ends behind the last whole record and has met the numbers that the records write
(`walked_of_count`); a view of the records as tagged integers and the policies of the order have the
same numbers (`walks_agree`).

The whole records are as many as fit between the cursor and the end of the buffer, so the induction
is on their number.
-/

namespace Endian

/-- The numbers that records behind one another write. -/
def recordNumbers (o : ByteOrder) (data : Array UInt8) (n start count : Nat) : List Nat :=
  (records data n start count).map fun bs => o.number bs.toList

theorem length_recordNumbers {o : ByteOrder} {data : Array UInt8} {n start count : Nat}
    (h : start + n * count ≤ data.size) : (recordNumbers o data n start count).length = count := by
  rw [recordNumbers, List.length_map, length_records h]

namespace Cursor

variable {c : Cursor} {o : ByteOrder} {t : Scalar}

/-! ### The loop -/

theorem readAll_of_lt (h : c.buffer.bytes.size < c.offset.toNat + t.size) :
    readAll o t c = ([], c) := by
  rw [readAll]
  split
  · next heq =>
    rw [read_of_lt h] at heq
    cases heq
    rfl
  · next heq =>
    rw [read_of_lt h] at heq
    cases heq

theorem readAll_of_le (h : c.offset.toNat + t.size ≤ c.buffer.bytes.size) :
    readAll o t c = (Word.load o (bytesAt c.buffer.bytes c.offset.toNat t.size h) ::
      (readAll o t (c.advance t.size)).1, (readAll o t (c.advance t.size)).2) := by
  rw [readAll]
  split
  · next heq =>
    rw [read_of_le h] at heq
    cases heq
  · next heq =>
    rw [read_of_le h] at heq
    cases heq
    rfl

/-- A step taken again and again until it fails: its replies, and the cursor at the end. -/
inductive Walk (s : Step) : Cursor → List Reply → Cursor → Prop where
  | stop {c : Cursor} : ¬ succeeded (c.step s) → Walk s c [] (c.step s).1
  | next {c c' : Cursor} {rs : List Reply} : succeeded (c.step s) → Walk s (c.step s).1 rs c' →
      Walk s c ((c.step s).2 :: rs) c'

/-- All walks in an order from a cursor meet the numbers and stop at the place. -/
structure Walked (o : ByteOrder) (t : Scalar) (c : Cursor) (xs : List Nat) (stop : Nat) :
    Prop where
  loop : (readAll o t c).1.map BitVec.toNat = xs
  walk : ∀ s : Step, s.loaded? = some (o, t) → ∃ rs, Walk s c rs (readAll o t c).2 ∧
    rs.map Reply.number? = xs.map fun x => some (t.interpret x)
  buffer : (readAll o t c).2.buffer = c.buffer
  offset : (readAll o t c).2.offset.toNat = stop

theorem step_of_loaded_of_lt {s : Step} (hs : s.loaded? = some (o, t))
    (h : c.buffer.bytes.size < c.offset.toNat + t.size) :
    c.step s = (c, .failed (.error .outOfBounds)) := by
  obtain ⟨reply, hstep, -⟩ := step_of_loaded (c := c) hs
  rw [hstep, perform_of_run (read_of_lt h)]
  rfl

theorem step_of_loaded_of_le {s : Step} (hs : s.loaded? = some (o, t))
    (h : c.offset.toNat + t.size ≤ c.buffer.bytes.size) :
    ∃ reply : Reply, c.step s = (c.advance t.size, reply) ∧
      reply.number? = some (t.interpret
        (o.number (bytesAt c.buffer.bytes c.offset.toNat t.size h).toList)) := by
  obtain ⟨reply, hstep, hnumber⟩ := step_of_loaded (c := c) hs
  refine ⟨_, ?_, hnumber (Word.load o (bytesAt c.buffer.bytes c.offset.toNat t.size h)) |>.trans ?_⟩
  · rw [hstep, perform_of_run (read_of_le h)]
    rfl
  · rw [Scalar.toInt_eq_interpret, Word.toNat_load]

theorem succeeded_of_number? {e : Cursor × Reply} {x : Int} (h : e.2.number? = some x) :
    succeeded e := by
  obtain ⟨c, r⟩ := e
  cases r with
  | failed f => cases h
  | _ => rfl

theorem Walk.next_of_step {s : Step} {c c' last : Cursor} {r : Reply} {rs : List Reply}
    (hstep : c.step s = (c', r)) (hs : succeeded (c', r)) (h : Walk s c' rs last) :
    Walk s c (r :: rs) last := by
  have hreply : (c.step s).2 = r := by rw [hstep]
  have hcursor : (c.step s).1 = c' := by rw [hstep]
  rw [← hreply]
  exact .next (by rwa [hstep]) (by rwa [hcursor])

theorem walked_of_lt (h : c.buffer.bytes.size < c.offset.toNat + t.size) :
    Walked o t c [] c.offset.toNat := by
  refine ⟨?_, fun s hs => ⟨[], ?_, rfl⟩, ?_, ?_⟩
  · rw [readAll_of_lt h]
    rfl
  · have hstep := step_of_loaded_of_lt hs h
    have hwalk : Walk s c [] (c.step s).1 := .stop (by rw [hstep]; exact Bool.false_ne_true)
    rw [readAll_of_lt h]
    rwa [hstep] at hwalk
  · rw [readAll_of_lt h]
  · rw [readAll_of_lt h]

theorem walked_of_le {xs : List Nat} {stop : Nat}
    (hle : c.offset.toNat + t.size ≤ c.buffer.bytes.size)
    (h : Walked o t (c.advance t.size) xs stop) :
    Walked o t c (o.number (bytesAt c.buffer.bytes c.offset.toNat t.size hle).toList :: xs)
      stop := by
  refine ⟨?_, fun s hs => ?_, ?_, ?_⟩
  · rw [readAll_of_le hle, List.map_cons, Word.toNat_load, h.loop]
  · obtain ⟨reply, hstep, hnumber⟩ := step_of_loaded_of_le hs hle
    obtain ⟨rs, hwalk, hreplies⟩ := h.walk s hs
    refine ⟨reply :: rs, ?_, ?_⟩
    · rw [readAll_of_le hle]
      exact hwalk.next_of_step hstep (succeeded_of_number? hnumber)
    · rw [List.map_cons, List.map_cons, hnumber, hreplies]
  · rw [readAll_of_le hle, h.buffer]
    rfl
  · rw [readAll_of_le hle, h.offset]

theorem walked_of_count {count : Nat} (h : (c.buffer.size - c.offset.toNat) / t.size = count) :
    Walked o t c (recordNumbers o c.buffer.bytes t.size c.offset.toNat count)
      (c.offset.toNat + t.size * count) := by
  have hpos := t.size_pos
  unfold Buffer.size at h
  induction count generalizing c with
  | zero =>
    have hrest := (Nat.div_eq_zero_iff_lt hpos).1 h
    exact walked_of_lt (by omega)
  | succ count ih =>
    have hrest := (Nat.div_pos_iff (a := c.buffer.bytes.size - c.offset.toNat) (b := t.size)).1
      (by omega)
    have hle : c.offset.toNat + t.size ≤ c.buffer.bytes.size := by omega
    have hoff : (c.advance t.size).offset.toNat = c.offset.toNat + t.size := toNat_advance hle
    have hcount : (c.buffer.bytes.size - (c.advance t.size).offset.toNat) / t.size = count := by
      have hdiv := Nat.div_eq_sub_div hpos hrest.2
      rw [hoff, ← Nat.sub_sub]
      omega
    have hwalked := walked_of_le hle (ih (c := c.advance t.size) hcount)
    rw [hoff, Nat.add_assoc, Nat.add_comm t.size, ← Nat.mul_succ] at hwalked
    rw [recordNumbers, records_succ hle]
    exact hwalked

/-! ### All ways over a table -/

theorem policy_numbers (r : Policy.Route) (data : Array UInt8) (start count : Nat) :
    (records data t.width.size start count).map (fun bs => r.answer o (.get t.width bs)) =
      (recordNumbers o data t.size start count).map
        fun x => .number t.width (BitVec.ofNat _ x) := by
  have hsize : recordNumbers o data t.size start count =
      recordNumbers o data t.width.size start count := by rw [t.size_width]
  rw [hsize, recordNumbers, List.map_map]
  exact List.map_congr_left fun bs _ => r.answer_eq _

theorem values_of_bytes {n count start : Nat} {data : Array UInt8} {ts : List (Tagged o n)}
    (h : ts.map Tagged.bytes = records data n start count) :
    ts.map (·.get.toNat) = recordNumbers o data n start count := by
  rw [recordNumbers, ← h, List.map_map]
  exact List.map_congr_left fun t _ => Word.toNat_load o t.bytes

/-- The buffer `b` after an operation on all integers that a view up to `stop` shows. -/
structure Updated (c : Cursor) (op : WordOp t.size) (ts : List (Tagged o t.size)) (stop : Nat)
    (b : Buffer) : Prop where
  written : ∃ us, Tagged.updateAll op ts = .ok us ∧
    b.bytes = splice c.buffer.bytes c.offset.toNat (Tagged.flatten us)
  size : b.size = c.buffer.size
  outside : ∀ i : Nat, (i < c.offset.toNat ∨ stop ≤ i) → b.bytes[i]? = c.buffer.bytes[i]?

theorem exists_updated {count : Nat} {ts : List (Tagged o t.size)} {op : WordOp t.size}
    (hcount : (c.buffer.size - c.offset.toNat) / t.size = count)
    (hfit : c.offset.toNat + t.size * count ≤ c.buffer.size)
    (hts : ts.map Tagged.bytes = records c.buffer.bytes t.size c.offset.toNat count)
    (hop : op ≠ .div 0) :
    ∃ (b : Buffer) (ys : List Nat), Updated c op ts (c.offset.toNat + t.size * count) b ∧
      (recordNumbers o c.buffer.bytes t.size c.offset.toNat count).mapM op.onNumber = .ok ys ∧
      Walked o t ⟨b, c.offset⟩ ys (c.offset.toNat + t.size * count) := by
  obtain ⟨us, hus, hlen, hnumbers⟩ := Tagged.updateAll_numbers hop ts
  rw [values_of_bytes hts] at hnumbers
  have husCount : us.length = count := by
    rw [hlen, ← length_records hfit, ← hts, List.length_map]
  have hsplice : c.offset.toNat + (Tagged.flatten us).size ≤ c.buffer.bytes.size := by
    rwa [Tagged.size_flatten, husCount]
  have hsize := size_splice hsplice
  have hroom : c.offset.toNat + t.size * us.length ≤ c.buffer.bytes.size := by rwa [husCount]
  have hback := Tagged.records_splice_flatten hroom
  rw [husCount] at hback
  refine ⟨⟨splice c.buffer.bytes c.offset.toNat (Tagged.flatten us), hsize ▸ c.buffer.size_lt⟩,
    us.map (·.get.toNat), ⟨⟨us, hus, rfl⟩, hsize, fun i hi => ?_⟩, hnumbers, ?_⟩
  · rw [getElem?_splice hsplice, Tagged.size_flatten, husCount, if_neg (by omega)]
  · rw [values_of_bytes hback.symm]
    refine walked_of_count ?_
    rw [← hcount]
    exact congrArg (fun size => (size - c.offset.toNat) / t.size) hsize

/-- Every way over a table meets the numbers of its whole records: walks with any read, a view as
tagged integers, and policies on any route. An operation through the view, which must not divide by
zero, acts on each of these numbers and leaves all other bytes alone. -/
theorem walks_agree (c : Cursor) (o : ByteOrder) (t : Scalar)
    (h : c.offset.toNat ≤ c.buffer.size) :
    let count := (c.buffer.size - c.offset.toNat) / t.size
    let stop := c.offset.toNat + t.size * count
    let xs := recordNumbers o c.buffer.bytes t.size c.offset.toNat count
    xs.length = count ∧ Walked o t c xs stop ∧
      (∀ r : Policy.Route, (records c.buffer.bytes t.width.size c.offset.toNat count).map
          (fun bs => r.answer o (.get t.width bs)) =
        xs.map fun x => .number t.width (BitVec.ofNat _ x)) ∧
      ∃ ts : List (Tagged o t.size),
        Tagged.view (c.buffer.bytes.extract c.offset.toNat stop) = .ok ts ∧
          ts.map (·.get.toNat) = xs ∧
          ∀ op : WordOp t.size, op ≠ .div 0 →
            ∃ (b : Buffer) (ys : List Nat), Updated c op ts stop b ∧
              xs.mapM op.onNumber = .ok ys ∧ Walked o t ⟨b, c.offset⟩ ys stop := by
  intro count stop xs
  have hfit : c.offset.toNat + t.size * count ≤ c.buffer.size := by
    have hle : t.size * count ≤ c.buffer.size - c.offset.toNat := Nat.mul_div_le _ _
    omega
  obtain ⟨ts, hview, hbytes⟩ := Tagged.view_extract (o := o) t.size_pos hfit
  exact ⟨length_recordNumbers hfit, walked_of_count rfl, fun r => policy_numbers r _ _ _, ts,
    hview, values_of_bytes hbytes, fun op hop => exists_updated rfl hfit hbytes hop⟩

/-- Two records behind a first byte, with two bytes left over, and an addition that wraps around. -/
theorem walks_agree_ragged :
    let c : Cursor := ⟨⟨#[9, 0, 0, 0, 7, 255, 255, 255, 255, 5, 6], by decide⟩, 1⟩
    c.offset.toNat ≤ c.buffer.size ∧
      (readAll .big .uint32 c).1.map BitVec.toNat = [7, 4294967295] ∧
      (readAll .big .uint32 c).2.offset.toNat = 9 ∧
      (WordOp.add 3 : WordOp 4) ≠ .div 0 ∧
      ∃ b : Buffer, b.size = 11 ∧ b.bytes[0]? = some 9 ∧ b.bytes[9]? = some 5 ∧
        (readAll .big .uint32 ⟨b, 1⟩).1.map BitVec.toNat = [10, 2] := by
  intro c
  have hle : c.offset.toNat ≤ c.buffer.size := by decide
  have hop : (WordOp.add 3 : WordOp 4) ≠ .div 0 := by decide
  obtain ⟨-, hwalked, -, ts, -, -, hupdate⟩ := walks_agree c .big .uint32 hle
  obtain ⟨b, ys, hb, hys, hback⟩ := hupdate (.add 3) hop
  have hnumbers : recordNumbers .big c.buffer.bytes Scalar.uint32.size c.offset.toNat
      ((c.buffer.size - c.offset.toNat) / Scalar.uint32.size) = [7, 4294967295] := by decide
  have hresults : ys = [10, 2] := by
    rw [hnumbers] at hys
    exact (Except.ok.inj hys).symm
  refine ⟨hle, hwalked.loop.trans hnumbers, hwalked.offset.trans (by decide), hop, b, hb.size,
    ?_, ?_, ?_⟩
  · exact hb.outside 0 (.inl (by decide))
  · exact hb.outside 9 (.inr (by decide))
  · rw [hback.loop, hresults]

end Cursor

end Endian
