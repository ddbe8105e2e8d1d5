import Endian.Policy.Route
import Endian.Proofs.Buffer.Table
import Endian.Proofs.Record.Number

/-!
# Agreement of the policies

The answer to a call is determined by the numbers that its records write: `Call.expected` says it by
digits alone. Every route to a policy leads there, and so do the accesses to records themselves, the
tagged integers, those that a policy has as its own among them, and the reads and writes of a buffer.

A call in the opposite order with its records reversed has the same numbers, so it has the same
answer up to the reversal of a record (`expected_mirror`).
-/

namespace Endian

namespace Policy

/-! ### The expected answer -/

/-- The answer by the digits of the records. -/
def Call.expected (o : ByteOrder) : Call → Answer
  | .get k bs => .number k (BitVec.ofNat _ (o.number bs.toList))
  | .getSigned k bs => .signed k (signedValue k.size (o.number bs.toList))
  | .set k v => .record k ⟨(o.digits k.size v.toNat).toArray, by
      rw [List.size_toArray, ByteOrder.length_digits]⟩
  | .compare _ a b => .ordering (Ord.compare (o.number a.toList) (o.number b.toList))
  | .compareSigned k a b => .ordering (Ord.compare (signedValue k.size (o.number a.toList))
      (signedValue k.size (o.number b.toList)))

/-- The answer by the accesses to records. -/
def Call.ofRecords (o : ByteOrder) : Call → Answer
  | .get k bs => .number k (k.get o bs)
  | .getSigned k bs => .signed k (k.getSigned o bs)
  | .set k v => .record k (k.set o v)
  | .compare k a b => .ordering (k.compare o a b)
  | .compareSigned k a b => .ordering (k.compareSigned o a b)

/-- The answer by integers tagged with the order, of whatever width. -/
def Call.ofTagged (o : ByteOrder) : Call → Answer
  | .get k bs => .number k ((⟨bs⟩ : Tagged o k.size).get.setWidth k.register)
  | .getSigned k bs => .signed k (⟨bs⟩ : Tagged o k.size).getSigned
  | .set k v => .record k ((Tagged.zero : Tagged o k.size).put (v.setWidth (8 * k.size))).bytes
  | .compare k a b => .ordering (Ord.compare (⟨a⟩ : Tagged o k.size) ⟨b⟩)
  | .compareSigned k a b => .ordering ((⟨a⟩ : Tagged o k.size).compareSigned ⟨b⟩)

/-- The width of the records of a call. -/
def Call.width : Call → Width
  | .get k _ | .getSigned k _ | .set k _ | .compare k _ _ | .compareSigned k _ _ => k

/-- The answer by the tagged integers of the policy chosen by `P`, if it has any of that width. -/
def Call.ofAssociated? (P : Type) [StaticPolicy P] (c : Call) : Option Answer :=
  (StaticPolicy.taggedOrder? P c.width).map fun o => c.ofTagged o

/-- The answer by the tagged integers of the policy of an order. -/
def Call.ofPolicyTagged? (o : ByteOrder) (c : Call) : Option Answer :=
  match o with
  | .big => c.ofAssociated? BigEndian
  | .little => c.ofAssociated? LittleEndian

variable {o : ByteOrder}

theorem Call.ofRecords_eq (c : Call) : c.ofRecords o = c.expected o := by
  cases c with
  | get k bs => rw [ofRecords, expected, k.get_eq_ofNat]
  | getSigned k bs => rw [ofRecords, expected, k.getSigned_eq]
  | set k v =>
    have hrecord : k.set o v = ⟨(o.digits k.size v.toNat).toArray, by
        rw [List.size_toArray, ByteOrder.length_digits]⟩ := by
      apply Vector.toList_inj.mp
      exact k.toList_set o v
    rw [ofRecords, expected, hrecord]
  | compare k a b => rw [ofRecords, expected, Width.compare_eq_number]
  | compareSigned k a b => rw [ofRecords, expected, Width.compareSigned_eq_number]

/-- Every policy forwards to the accesses of its order. -/
theorem Route.answer_eq (r : Route) (c : Call) : r.answer o c = c.expected o := by
  rw [← c.ofRecords_eq]
  cases r <;> cases o <;> cases c <;> rfl

theorem Call.ofTagged_eq (c : Call) : c.ofTagged o = c.expected o := by
  rw [← c.ofRecords_eq]
  cases c with
  | get k bs => rfl
  | getSigned k bs => exact congrArg (Answer.signed k) (Tagged.getSigned_record _)
  | set k v => rfl
  | compare k a b => exact congrArg Answer.ordering (Tagged.compare_record _ _)
  | compareSigned k a b => exact congrArg Answer.ordering (Tagged.compareSigned_record _ _)

/-- The tagged integers of a policy have its order. -/
theorem Call.ofPolicyTagged?_eq (c : Call) :
    c.ofPolicyTagged? o = if c.width = .w24 then none else some (c.expected o) := by
  rw [← c.ofTagged_eq]
  cases o
  all_goals
    simp only [ofPolicyTagged?, ofAssociated?]
    cases c.width <;> rfl

/-! ### The opposite order -/

/-- The call with its records reversed. -/
def Call.mirror : Call → Call
  | .get k bs => .get k bs.reverse
  | .getSigned k bs => .getSigned k bs.reverse
  | .set k v => .set k v
  | .compare k a b => .compare k a.reverse b.reverse
  | .compareSigned k a b => .compareSigned k a.reverse b.reverse

/-- The answer with its record reversed; numbers and orderings stay. -/
def Answer.mirror : Answer → Answer
  | .record k bs => .record k bs.reverse
  | a => a

theorem Call.expected_mirror (c : Call) :
    c.mirror.expected o.swapped = (c.expected o).mirror := by
  cases c with
  | set k v =>
    show Answer.record k _ = Answer.record k _
    congr 1
    apply Vector.toList_inj.mp
    rw [Vector.toList_reverse]
    exact o.digits_swapped k.size v.toNat
  | _ => simp only [mirror, expected, Answer.mirror, Vector.toList_reverse,
      ByteOrder.number_swapped_reverse]

end Policy

/-! ### Accesses to a buffer -/

/-- The records that a scalar is kept in. -/
def Scalar.width : Scalar → Width
  | uint16 | int16 => .w16
  | uint32 | int32 => .w32
  | uint64 | int64 => .w64

theorem Scalar.size_width (t : Scalar) : t.width.size = t.size := by cases t <;> rfl

/-- The number that a scalar takes its bits for. -/
def Scalar.interpret (t : Scalar) (x : Nat) : Int := if t.isSigned then signedValue t.size x else x

theorem Scalar.toInt_eq_interpret {t : Scalar} (w : Word t.size) :
    t.toInt w = t.interpret w.toNat := by
  unfold toInt interpret
  split
  · exact w.toInt_eq_signedValue
  · rfl

theorem Buffer.field_eq_ok_iff {b : Buffer} {p : Position} {n : Nat} {bs : Bytes n} :
    b.field p n = .ok bs ↔ ∃ h : p.toNat + n ≤ b.bytes.size, bytesAt b.bytes p.toNat n h = bs := by
  rcases Nat.lt_or_ge b.bytes.size (p.toNat + n) with h | h
  · rw [field_of_lt h]
    refine ⟨(fun heq => by cases heq), ?_⟩
    rintro ⟨hle, -⟩
    omega
  · rw [field_of_le h]
    exact ⟨fun heq => ⟨h, Except.ok.inj heq⟩, fun ⟨_, heq⟩ => congrArg Except.ok heq⟩

namespace Cursor

variable {o : ByteOrder} {t : Scalar} {n : Nat}

/-- Every read of the scalar, wherever a buffer holds the record, gives the number. -/
def Gives (o : ByteOrder) (t : Scalar) (bs : Bytes n) (x : Int) : Prop :=
  ∀ (c : Cursor) (s : Step), s.loaded? = some (o, t) → c.buffer.field c.offset n = .ok bs →
    (c.step s).2.number? = some x

/-- Every write of the scalar, wherever a buffer has room, succeeds and leaves the record. -/
def Leaves (o : ByteOrder) (t : Scalar) (x : Nat) (bs : Bytes n) : Prop :=
  ∀ (c : Cursor) (s : Step) (w : Word t.size), w.toNat = x → s.stored? = some ⟨o, t, w⟩ →
    c.offset.toNat + n ≤ c.buffer.size →
      (c.step s).2 = .written ∧ (c.step s).1.buffer.field c.offset n = .ok bs

theorem gives_interpret (bs : Bytes n) (hn : n = t.size) :
    Gives o t bs (t.interpret (o.number bs.toList)) := by
  subst hn
  intro c s hs hfield
  obtain ⟨hfit, rfl⟩ := Buffer.field_eq_ok_iff.1 hfield
  obtain ⟨reply, hstep, hnumber⟩ := step_of_loaded (c := c) hs
  rw [hstep, perform_of_run (read_of_le hfit)]
  show (reply _).number? = _
  rw [hnumber, Scalar.toInt_eq_interpret, Word.toNat_load]

theorem leaves_digits {x : Nat} (bs : Bytes n) (hn : n = t.size)
    (hbs : bs.toList = o.digits t.size x) : Leaves o t x bs := by
  subst hn
  intro c s w hw hs hfit
  have hstore : Word.store o w = bs := by
    apply Vector.toList_inj.mp
    rw [Word.toList_store, hw, hbs]
  have hroom := hfit
  rw [Buffer.size, ← c.buffer.size_replace c.offset.toNat (Word.store o w) hfit] at hroom
  rw [step_of_stored hs, perform_of_run (write_of_le hfit)]
  exact ⟨rfl, Buffer.field_eq_ok_iff.2
    ⟨hroom, (c.buffer.bytesAt_replace_self _ _ hfit _).trans hstore⟩⟩

end Cursor

namespace Policy

variable {o : ByteOrder}

open Cursor in
/-- An answer fits the reads and writes of scalars that are kept in the records of the call. -/
def Answer.FitsAccess (o : ByteOrder) (a : Answer) (t : Scalar) : Call → Prop
  | .get k bs => t.isSigned = false →
      ∃ x : BitVec k.register, a = .number k x ∧ Gives o t bs x.toNat
  | .getSigned k bs => t.isSigned = true → ∃ x, a = .signed k x ∧ Gives o t bs x
  | .set k v => ∃ bs, a = .record k bs ∧ Leaves o t v.toNat bs
  | .compare _ bs bs' => t.isSigned = false →
      ∃ x y, Gives o t bs x ∧ Gives o t bs' y ∧ a = .ordering (Ord.compare x y)
  | .compareSigned _ bs bs' => t.isSigned = true →
      ∃ x y, Gives o t bs x ∧ Gives o t bs' y ∧ a = .ordering (Ord.compare x y)

theorem fitsAccess_expected {t : Scalar} {c : Call} (h : c.width = t.width) :
    (c.expected o).FitsAccess o t c := by
  have hsize : c.width.size = t.size := by rw [h, t.size_width]
  cases c with
  | get k bs =>
    intro hs
    have hgives := Cursor.gives_interpret (o := o) bs hsize
    rw [Scalar.interpret, if_neg (by rw [hs]; decide), ← k.toNat_get, k.get_eq_ofNat] at hgives
    exact ⟨_, rfl, hgives⟩
  | getSigned k bs =>
    intro hs
    have hgives := Cursor.gives_interpret (o := o) bs hsize
    rw [Scalar.interpret, if_pos hs, ← hsize] at hgives
    exact ⟨_, rfl, hgives⟩
  | set k v =>
    refine ⟨_, rfl, Cursor.leaves_digits _ hsize ?_⟩
    rw [← hsize]
    rfl
  | compare k bs bs' =>
    intro hs
    have hgives := fun bs : Bytes k.size => Cursor.gives_interpret (o := o) bs hsize
    simp only [Scalar.interpret, hs] at hgives
    exact ⟨_, _, hgives bs, hgives bs', congrArg Answer.ordering (compare_natCast _ _).symm⟩
  | compareSigned k bs bs' =>
    intro hs
    have hgives := fun bs : Bytes k.size => Cursor.gives_interpret (o := o) bs hsize
    simp only [Scalar.interpret, hs, ← hsize] at hgives
    exact ⟨_, _, hgives bs, hgives bs', rfl⟩

/-- All routes to a policy give the same answers, those of the accesses to records, of tagged
integers, the policy's own among them, and of the reads and writes of a buffer; in the opposite
order, with the records reversed, the numbers and orderings are the same and the records reversed. -/
theorem routes_agree (o : ByteOrder) (calls : List Call) :
    (∀ r : Route, (r.run o calls).1 = calls.map (Call.expected o)) ∧
      calls.map (Call.ofRecords o) = calls.map (Call.expected o) ∧
      calls.map (Call.ofTagged o) = calls.map (Call.expected o) ∧
      (∀ c ∈ calls, c.ofPolicyTagged? o = if c.width = .w24 then none else some (c.expected o)) ∧
      (∀ c ∈ calls, ∀ t : Scalar, c.width = t.width → (c.expected o).FitsAccess o t c) ∧
      ∀ r : Route, (r.run o.swapped (calls.map Call.mirror)).1 =
        (r.run o calls).1.map Answer.mirror := by
  have hrun : ∀ (o : ByteOrder) (r : Route) (calls : List Call),
      (r.run o calls).1 = calls.map (Call.expected o) :=
    fun _ r calls => List.map_congr_left fun c _ => r.answer_eq c
  refine ⟨fun r => hrun o r calls, ?_, ?_, fun c _ => c.ofPolicyTagged?_eq, ?_, ?_⟩
  · exact List.map_congr_left fun c _ => c.ofRecords_eq
  · exact List.map_congr_left fun c _ => c.ofTagged_eq
  · exact fun c _ t h => fitsAccess_expected h
  · intro r
    rw [hrun, hrun, List.map_map, List.map_map]
    exact List.map_congr_left fun c _ => c.expected_mirror

/-- A negative number of three bytes, a store, a read and a comparison of signed numbers. -/
def samples : List Call :=
  [.getSigned .w24 #v[0x80, 0, 1], .set .w16 0xBEEF, .get .w32 #v[1, 2, 3, 4],
    .compareSigned .w16 #v[0xFF, 0xFE] #v[0, 1]]

theorem routes_agree_samples :
    (Route.bridge.run .big samples).1 = [.signed .w24 (-8388607), .record .w16 #v[0xBE, 0xEF],
      .number .w32 0x01020304, .ordering .lt] ∧
    (Route.selected.run .little (samples.map Call.mirror)).1 = [.signed .w24 (-8388607),
      .record .w16 #v[0xEF, 0xBE], .number .w32 0x01020304, .ordering .lt] ∧
    Cursor.Gives .big .uint32 (#v[1, 2, 3, 4] : Bytes 4) 0x01020304 := by
  have hagree := routes_agree .big samples
  have hsamples : samples.map (Call.expected .big) = [.signed .w24 (-8388607),
      .record .w16 #v[0xBE, 0xEF], .number .w32 0x01020304, .ordering .lt] := by decide
  have hmem : Call.get .w32 #v[1, 2, 3, 4] ∈ samples := .tail _ (.tail _ (.head _))
  refine ⟨(hagree.1 .bridge).trans hsamples, ?_, ?_⟩
  · show (Route.selected.run ByteOrder.big.swapped (samples.map Call.mirror)).1 = _
    rw [hagree.2.2.2.2.2, hagree.1, hsamples]
    decide +kernel
  · obtain ⟨x, hx, hgives⟩ := hagree.2.2.2.2.1 _ hmem .uint32 rfl rfl
    cases hx
    exact hgives

end Policy

end Endian
