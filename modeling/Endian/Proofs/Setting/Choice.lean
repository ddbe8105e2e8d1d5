import Endian.Proofs.LastAnswer
import Endian.Setting.Basic

/-!
# Choices and their export

A setting counts for what comes after it only if it is an explicit choice (`choice?`). Taking over a
choice into a setting and writing it to a plain number fit together: writing two settings one after the
other is writing what the first becomes by taking over from the second (`assignInto_assignFrom`). So
layers can be written to a number one by one or folded first and written once (`exportAll_cons`), and
either way the last choice decides. A number to which no choice is written stays as it is; it may also
stay because the last choice happens to be its value (`exportAll_cons_eq_target_iff`).
-/

namespace Endian

namespace Setting

variable {b : Bounds}

/-- The setting, if it is an explicit choice. -/
def choice? (s : Setting b) : Option (Setting b) := if s.isSet then some s else none

@[simp] theorem choice?_new : (new : Setting b).choice? = none := rfl

theorem choice?_eq_none_iff {s : Setting b} : s.choice? = none ↔ s.isSet = false := by
  unfold choice?
  cases s.isSet <;> simp

theorem eq_of_choice? {s t : Setting b} (h : s.choice? = some t) : t = s := by
  unfold choice? at h
  split at h
  · exact (Option.some.inj h).symm
  · cases h

/-! ### Single steps -/

theorem assignFrom_eq (dst src : Setting b) :
    dst.assignFrom src = (src.choice?.getD dst, src.isSet) := by
  obtain ⟨v, isSet⟩ := src
  cases isSet <;> rfl

theorem assignInto_eq (s : Setting b) (target : UInt32) :
    s.assignInto target = (s.choice?.elim target value, s.isSet) := by
  obtain ⟨v, isSet⟩ := s
  cases isSet <;> rfl

theorem choice?_getD (dst src : Setting b) :
    (src.choice?.getD dst).choice? = src.choice?.or dst.choice? := by
  unfold choice?
  cases h : src.isSet with
  | false => simp
  | true => simp [h]

/-- Writing one setting after the other is writing what the first one becomes. -/
theorem assignInto_assignFrom (dst src : Setting b) (target : UInt32) :
    ((dst.assignFrom src).1.assignInto target).1 = (src.assignInto (dst.assignInto target).1).1 := by
  simp only [assignFrom_eq, assignInto_eq, choice?_getD]
  cases src.choice? with
  | none => rfl
  | some s => rfl

/-! ### Layers -/

/-- The destination after it took over the choices of sources one by one, and for each of them whether
there was one. -/
def assignAll (dst : Setting b) : List (Setting b) → Setting b × List Bool
  | [] => (dst, [])
  | src :: rest =>
    let (now, copied) := dst.assignFrom src
    let (last, reports) := assignAll now rest
    (last, copied :: reports)

/-- A plain number after it took over the choices of settings one by one, and for each of them whether
there was one. -/
def exportAll (target : UInt32) : List (Setting b) → UInt32 × List Bool
  | [] => (target, [])
  | s :: rest =>
    let (now, written) := s.assignInto target
    let (last, reports) := exportAll now rest
    (last, written :: reports)

theorem assignAll_eq (dst : Setting b) (srcs : List (Setting b)) :
    dst.assignAll srcs = ((lastSome? choice? srcs).getD dst, srcs.map isSet) := by
  induction srcs generalizing dst with
  | nil => rfl
  | cons src rest ih =>
    rw [assignAll, assignFrom_eq]
    show ((assignAll _ rest).1, src.isSet :: (assignAll _ rest).2) = _
    rw [ih, lastSome?_cons, Option.getD_or, List.map_cons]

theorem exportAll_reports (target : UInt32) (ss : List (Setting b)) :
    (exportAll target ss).2 = ss.map isSet := by
  induction ss generalizing target with
  | nil => rfl
  | cons s rest ih =>
    rw [exportAll, assignInto_eq]
    show s.isSet :: (exportAll _ rest).2 = _
    rw [ih, List.map_cons]

/-- Layers written to a number one by one are the fold of the layers, written once. -/
theorem exportAll_cons (dst : Setting b) (srcs : List (Setting b)) (target : UInt32) :
    (exportAll target (dst :: srcs)).1 = ((dst.assignAll srcs).1.assignInto target).1 := by
  induction srcs generalizing dst with
  | nil => rfl
  | cons src rest ih =>
    -- the first two layers become one, which takes the place of the destination
    calc (exportAll target (dst :: src :: rest)).1
        = (exportAll (src.assignInto (dst.assignInto target).1).1 rest).1 := rfl
      _ = (exportAll ((dst.assignFrom src).1.assignInto target).1 rest).1 := by
          rw [assignInto_assignFrom]
      _ = (exportAll target ((dst.assignFrom src).1 :: rest)).1 := rfl
      _ = (((dst.assignFrom src).1.assignAll rest).1.assignInto target).1 := ih _
      _ = ((dst.assignAll (src :: rest)).1.assignInto target).1 := rfl

/-- The fold of layers is a choice if one of them is, and then the last one. -/
theorem choice?_assignAll (dst : Setting b) (srcs : List (Setting b)) :
    (dst.assignAll srcs).1.choice? = lastSome? choice? (dst :: srcs) := by
  rw [assignAll_eq, lastSome?_cons]
  cases h : lastSome? choice? srcs with
  | none => rfl
  | some s =>
    obtain ⟨src, -, hsrc⟩ := exists_of_lastSome? h
    obtain rfl := eq_of_choice? hsrc
    exact hsrc

theorem exportAll_cons_eq (dst : Setting b) (srcs : List (Setting b)) (target : UInt32) :
    (exportAll target (dst :: srcs)).1 = (lastSome? choice? (dst :: srcs)).elim target value := by
  rw [exportAll_cons, assignInto_eq, choice?_assignAll]

theorem lastSome?_choice?_eq_none_iff {ss : List (Setting b)} :
    lastSome? choice? ss = none ↔ ∀ s ∈ ss, s.isSet = false := by
  simp only [lastSome?_eq_none_iff, choice?_eq_none_iff]

theorem isSet_assignAll_eq_false_iff {dst : Setting b} {srcs : List (Setting b)} :
    (dst.assignAll srcs).1.isSet = false ↔ ∀ s ∈ dst :: srcs, s.isSet = false := by
  rw [← choice?_eq_none_iff, choice?_assignAll, lastSome?_choice?_eq_none_iff]

theorem valid_assignAll {dst : Setting b} {srcs : List (Setting b)} (hdst : dst.Valid)
    (hsrcs : ∀ s ∈ srcs, s.Valid) : (dst.assignAll srcs).1.Valid := by
  rw [assignAll_eq]
  cases h : lastSome? choice? srcs with
  | none => exact hdst
  | some s =>
    obtain ⟨src, hmem, hsrc⟩ := exists_of_lastSome? h
    obtain rfl := eq_of_choice? hsrc
    exact hsrcs _ hmem

theorem true_notMem_exportAll_iff {target : UInt32} {ss : List (Setting b)} :
    true ∉ (exportAll target ss).2 ↔ ∀ s ∈ ss, s.isSet = false := by
  simp [exportAll_reports]

/-- A number keeps its value because nothing is written to it, or because the last choice is that
value. -/
theorem exportAll_cons_eq_target_iff {dst : Setting b} {srcs : List (Setting b)} {target : UInt32} :
    (exportAll target (dst :: srcs)).1 = target ↔
      (∀ s ∈ dst :: srcs, s.isSet = false) ∨
        ∃ s, lastSome? choice? (dst :: srcs) = some s ∧ s.value = target := by
  rw [exportAll_cons_eq, ← lastSome?_choice?_eq_none_iff]
  cases lastSome? choice? (dst :: srcs) with
  | none => simp
  | some s => simp

/-- What becomes of a setting that takes over from sources, and of a plain number to which all of them
are written. -/
structure Layered (dst : Setting b) (srcs : List (Setting b)) (target : UInt32) : Prop where
  commutes : (exportAll target (dst :: srcs)).1 = ((dst.assignAll srcs).1.assignInto target).1
  written : (exportAll target (dst :: srcs)).2 = (dst :: srcs).map isSet
  /-- Nothing is written exactly if none is a choice. -/
  unwritten_iff : true ∉ (exportAll target (dst :: srcs)).2 ↔ ∀ s ∈ dst :: srcs, s.isSet = false
  /-- The same of the fold, written once. -/
  untouched_iff : ((dst.assignAll srcs).1.assignInto target).2 = false ↔
    ∀ s ∈ dst :: srcs, s.isSet = false
  same_iff : (exportAll target (dst :: srcs)).1 = target ↔
    (∀ s ∈ dst :: srcs, s.isSet = false) ∨
      ∃ s, lastSome? choice? (dst :: srcs) = some s ∧ s.value = target
  copied : (dst.assignAll srcs).2 = srcs.map isSet
  isSet_iff : (dst.assignAll srcs).1.isSet = true ↔ dst.isSet = true ∨ ∃ s ∈ srcs, s.isSet = true
  last : (dst.assignAll srcs).1.choice? = lastSome? choice? (dst :: srcs)
  valid : dst.Valid → (∀ s ∈ srcs, s.Valid) → (dst.assignAll srcs).1.Valid

/-- Taking over choices commutes with writing them to a plain number. -/
theorem assign_commutes (dst : Setting b) (srcs : List (Setting b)) (target : UInt32) :
    Layered dst srcs target where
  commutes := exportAll_cons dst srcs target
  written := exportAll_reports target (dst :: srcs)
  unwritten_iff := true_notMem_exportAll_iff
  untouched_iff := by
    rw [assignInto_eq]
    exact isSet_assignAll_eq_false_iff
  same_iff := exportAll_cons_eq_target_iff
  copied := by rw [assignAll_eq]
  isSet_iff := by
    rw [← Bool.not_eq_false, not_congr isSet_assignAll_eq_false_iff]
    cases h : dst.isSet <;> simp [h]
  last := choice?_assignAll dst srcs
  valid := valid_assignAll

/-- A choice that is written over an equal number leaves it, so that a number may stay although there
is a choice. -/
theorem export_keeps_equal_number :
    let b : Bounds := { default := 2, min := 0, max := 4 }
    ∃ s : Setting b, new.set 4 = .ok s ∧ exportAll 4 [s] = (4, [true]) ∧
      ¬ ((exportAll 4 [s]).1 = 4 ↔ ∀ t ∈ [s], t.isSet = false) :=
  ⟨⟨4, true⟩, rfl, by decide, by decide⟩

/-- A source that is not a choice leaves the choice before it, whatever its value. -/
example :
    let b : Bounds := { default := 2, min := 0, max := 4 }
    let s : Setting b := .chosen 4
    (new.assignAll [s, new]) = (s, [true, false]) ∧ exportAll 7 [new, s, new] =
      (4, [false, true, false]) := by decide

end Setting

end Endian
