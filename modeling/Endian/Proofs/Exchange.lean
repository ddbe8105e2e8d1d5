import Endian.Exchange
import Mathlib.Data.Multiset.AddSub

/-!
# Exchanges keep every value

An exchange hands out what it takes the place of. So what a slot holds at first and what is put into
it comes out again in the order in which it went in, up to the last value, which is still there
(`valuesAt_handedOut_append`). No value is lost and none is doubled over all the slots
(`conserves_replaceAll`). `run_eq_replaceAll` carries this from reading and then writing a slot over
to the exchanges, those through the bit pattern included.
-/

namespace Endian.Exchange

/-- An exchange reads the slot and then writes it. -/
class Lawful (α : Type) [Exchange α] : Prop where
  exchange_eq (slot new : α) : exchange slot new = (slot, new)

instance : Lawful UInt64 := ⟨fun _ _ => rfl⟩

instance : Lawful Int64 := ⟨exchange_int64⟩

instance {α : Type} : Lawful (Option α) := ⟨fun _ _ => rfl⟩

variable {α β : Type} {n : Nat}

/-! ### Reading and then writing -/

/-- The old content of slot `i`, and the slots after slot `i` is written. -/
def replaceAt (slots : Vector α n) (i : Fin n) (new : α) : α × Vector α n :=
  (slots.get i, slots.set i new i.isLt)

/-- The old contents and the slots after each of the replacements. -/
def replaceAll (slots : Vector α n) : List (Fin n × α) → List (α × Vector α n)
  | [] => []
  | (i, new) :: rest =>
    let r := replaceAt slots i new
    r :: replaceAll r.2 rest

theorem run_eq_replaceAll [Exchange α] [Lawful α] (slots : Vector α n) (steps : List (Fin n × α)) :
    run slots steps = replaceAll slots steps := by
  induction steps generalizing slots with
  | nil => rfl
  | cons s rest ih =>
    obtain ⟨i, new⟩ := s
    have hstep : exchangeAt slots i new = replaceAt slots i new := by
      rw [exchangeAt, Lawful.exchange_eq, replaceAt]
    rw [run, replaceAll, hstep, ih]

/-- Replacing commutes with another writing of the values. -/
theorem replaceAll_map (f : α → β) (slots : Vector α n) (steps : List (Fin n × α)) :
    replaceAll (slots.map f) (steps.map fun s => (s.1, f s.2)) =
      (replaceAll slots steps).map fun e => (f e.1, e.2.map f) := by
  induction steps generalizing slots with
  | nil => rfl
  | cons s rest ih =>
    obtain ⟨i, new⟩ := s
    have hget : (slots.map f).get i = f (slots.get i) := Vector.getElem_map f i.isLt
    have hset : (slots.map f).set i (f new) i.isLt = (slots.set i new i.isLt).map f :=
      Vector.map_set.symm
    simp only [List.map_cons, replaceAll, replaceAt, hget, hset, ih]

/-! ### Slot by slot -/

/-- The values of slot `i`, in order. -/
def valuesAt (i : Fin n) (l : List (Fin n × α)) : List α :=
  (l.filter fun p => p.1 = i).map Prod.snd

theorem valuesAt_cons_self (i : Fin n) (a : α) (l : List (Fin n × α)) :
    valuesAt i ((i, a) :: l) = a :: valuesAt i l := by
  simp [valuesAt]

theorem valuesAt_cons_of_ne {i j : Fin n} (h : j ≠ i) (a : α) (l : List (Fin n × α)) :
    valuesAt i ((j, a) :: l) = valuesAt i l := by
  simp [valuesAt, h]

theorem valuesAt_eq_nil {i : Fin n} {l : List (Fin n × α)} (h : ∀ p ∈ l, p.1 ≠ i) :
    valuesAt i l = [] := by
  rw [valuesAt, List.map_eq_nil_iff, List.filter_eq_nil_iff]
  exact fun p hp => by simpa using h p hp

/-- What the steps hand out, each value with its slot. -/
def handedOut (steps : List (Fin n × α)) (entries : List (α × Vector α n)) : List (Fin n × α) :=
  List.zipWith (fun s e => (s.1, e.1)) steps entries

/-- The slots after all entries. -/
def slotsAfter (slots : Vector α n) (entries : List (α × Vector α n)) : Vector α n :=
  (entries.map Prod.snd).getLastD slots

theorem slotsAfter_cons (slots : Vector α n) (e : α × Vector α n) (es : List (α × Vector α n)) :
    slotsAfter slots (e :: es) = slotsAfter e.2 es := by
  rw [slotsAfter, List.map_cons, List.getLastD_cons, slotsAfter]

theorem fst_mem_of_mem_handedOut {steps : List (Fin n × α)} {entries : List (α × Vector α n)}
    {p : Fin n × α} (h : p ∈ handedOut steps entries) : ∃ s ∈ steps, s.1 = p.1 := by
  obtain ⟨k, hk, rfl⟩ := List.getElem_of_mem h
  rw [handedOut, List.length_zipWith] at hk
  have hlt : k < steps.length := by omega
  refine ⟨steps[k], List.getElem_mem hlt, ?_⟩
  simp only [handedOut, List.getElem_zipWith]

/-- What goes into a slot comes out of it in the same order, up to what is there at the end. -/
theorem valuesAt_handedOut_append (slots : Vector α n) (steps : List (Fin n × α)) (i : Fin n) :
    valuesAt i (handedOut steps (replaceAll slots steps)) ++
        [(slotsAfter slots (replaceAll slots steps)).get i] =
      slots.get i :: valuesAt i steps := by
  induction steps generalizing slots with
  | nil => rfl
  | cons s rest ih =>
    obtain ⟨j, new⟩ := s
    have hlater := ih (slots.set j new j.isLt)
    show valuesAt i ((j, slots.get j) :: handedOut rest (replaceAll _ rest)) ++
      [(slotsAfter slots (_ :: replaceAll _ rest)).get i] = _
    rw [slotsAfter_cons]
    by_cases h : j = i
    · -- what goes in here is what the slot holds when the rest starts
      subst h
      have hget : (slots.set j new j.isLt).get j = new := Vector.getElem_set_self j.isLt
      rw [hget] at hlater
      rw [valuesAt_cons_self, valuesAt_cons_self, List.cons_append]
      exact congrArg (slots.get j :: ·) hlater
    · have hget : (slots.set j new j.isLt).get i = slots.get i :=
        Vector.getElem_set_ne j.isLt i.isLt (Fin.val_ne_of_ne h)
      rw [hget] at hlater
      rw [valuesAt_cons_of_ne h, valuesAt_cons_of_ne h]
      exact hlater

/-! ### All slots together -/

/-- One replacement: the value that goes in takes the place of the one that comes out. -/
theorem cons_coe_toList (slots : Vector α n) (i : Fin n) (new : α) :
    new ::ₘ (slots.toList : Multiset α) = slots.get i ::ₘ ↑(slots.set i new i.isLt).toList := by
  have hlt : i.val < slots.toList.length := by
    rw [Vector.length_toList]
    exact i.isLt
  have hget : slots.get i = slots.toList[i.val] := (Vector.getElem_toList hlt).symm
  have hout : (slots.toList : Multiset α) = slots.get i ::ₘ ↑(slots.toList.eraseIdx i) :=
    Multiset.coe_eq_coe.2 (hget ▸ (List.getElem_cons_eraseIdx_perm hlt).symm)
  have hin : ((slots.set i new i.isLt).toList : Multiset α) = new ::ₘ ↑(slots.toList.eraseIdx i) :=
    Multiset.coe_eq_coe.2 (Vector.toList_set i.isLt ▸ List.set_perm_cons_eraseIdx hlt new)
  rw [hout, hin, Multiset.cons_swap]

/-- No value is lost and none is doubled by the steps with the given entries. -/
structure Conserves (slots : Vector α n) (steps : List (Fin n × α))
    (entries : List (α × Vector α n)) : Prop where
  length_eq : entries.length = steps.length
  in_order (i : Fin n) : valuesAt i (handedOut steps entries) ++ [(slotsAfter slots entries).get i] =
    slots.get i :: valuesAt i steps
  untouched (i : Fin n) : (∀ s ∈ steps, s.1 ≠ i) → (slotsAfter slots entries).get i = slots.get i
  balance : (slots.toList + steps.map Prod.snd : Multiset α) =
    entries.map Prod.fst + (slotsAfter slots entries).toList

theorem length_replaceAll (slots : Vector α n) (steps : List (Fin n × α)) :
    (replaceAll slots steps).length = steps.length := by
  induction steps generalizing slots with
  | nil => rfl
  | cons s rest ih => exact congrArg (· + 1) (ih _)

theorem balance_replaceAll (slots : Vector α n) (steps : List (Fin n × α)) :
    (slots.toList + steps.map Prod.snd : Multiset α) =
      (replaceAll slots steps).map Prod.fst + (slotsAfter slots (replaceAll slots steps)).toList := by
  induction steps generalizing slots with
  | nil => exact Multiset.add_comm _ _
  | cons s rest ih =>
    obtain ⟨i, new⟩ := s
    have hlater := ih (slots.set i new i.isLt)
    rw [replaceAll, slotsAfter_cons, List.map_cons, List.map_cons, replaceAt]
    generalize replaceAll (slots.set i new i.isLt) rest = later at hlater ⊢
    generalize slotsAfter (slots.set i new i.isLt) later = last at hlater ⊢
    calc (slots.toList + (new :: rest.map Prod.snd : List α) : Multiset α)
        = new ::ₘ ↑slots.toList + rest.map Prod.snd := by
          rw [← Multiset.cons_coe, Multiset.add_cons, Multiset.cons_add]
      _ = slots.get i ::ₘ (↑(slots.set i new i.isLt).toList + ↑(rest.map Prod.snd)) := by
          rw [cons_coe_toList, Multiset.cons_add]
      _ = slots.get i ::ₘ (↑(later.map Prod.fst) + ↑last.toList) := by rw [hlater]
      _ = (slots.get i :: later.map Prod.fst : List α) + last.toList := by
          rw [← Multiset.cons_add, Multiset.cons_coe]

theorem conserves_replaceAll (slots : Vector α n) (steps : List (Fin n × α)) :
    Conserves slots steps (replaceAll slots steps) where
  length_eq := length_replaceAll slots steps
  in_order := valuesAt_handedOut_append slots steps
  untouched i hi := by
    -- the order of a slot that hands out nothing has one place, for its first value and its last
    have horder := valuesAt_handedOut_append slots steps i
    have hnone : valuesAt i (handedOut steps (replaceAll slots steps)) = [] :=
      valuesAt_eq_nil fun p hp => by
        obtain ⟨s, hs, hslot⟩ := fst_mem_of_mem_handedOut hp
        exact hslot ▸ hi s hs
    rw [hnone, valuesAt_eq_nil hi] at horder
    exact List.singleton_inj.1 horder
  balance := balance_replaceAll slots steps

theorem conserves_run [Exchange α] [Lawful α] (slots : Vector α n) (steps : List (Fin n × α)) :
    Conserves slots steps (run slots steps) := by
  rw [run_eq_replaceAll]
  exact conserves_replaceAll slots steps

/-- Exchanges in slots of words, of signed words and of slots that may be empty keep every value. On
signed words they are as reading and then writing, and as exchanges of the bit patterns. -/
theorem exchanges_conserve (n : Nat) :
    (∀ (slots : Vector UInt64 n) (steps : List (Fin n × UInt64)),
        Conserves slots steps (run slots steps)) ∧
      (∀ {α : Type} (slots : Vector (Option α) n) (steps : List (Fin n × Option α)),
        Conserves slots steps (run slots steps)) ∧
      ∀ (slots : Vector Int64 n) (steps : List (Fin n × Int64)),
        Conserves slots steps (run slots steps) ∧ run slots steps = replaceAll slots steps ∧
          run (slots.map Int64.toUInt64) (steps.map fun s => (s.1, s.2.toUInt64)) =
            (replaceAll slots steps).map fun e => (e.1.toUInt64, e.2.map Int64.toUInt64) := by
  refine ⟨conserves_run, fun {_} => conserves_run, fun slots steps =>
    ⟨conserves_run slots steps, run_eq_replaceAll slots steps, ?_⟩⟩
  rw [run_eq_replaceAll, replaceAll_map]

/-- A slot that is used twice and hands out what it was given. -/
example :
    (run #v[-5, 7] [(0, Int64.minValue), (1, 3), (0, -1)]).map Prod.fst =
      [-5, 7, Int64.minValue] := by decide

end Endian.Exchange
