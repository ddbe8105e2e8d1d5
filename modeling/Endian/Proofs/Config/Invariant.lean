import Endian.Config.Bank
import Endian.Proofs.Config.Layers

/-!
# What configurations keep

After an act each field of the target has one of four origins: it is as before, it is at its
default, it was chosen in its range, or it was copied from the same field of another configuration.
`origin_act` says so, once for all acts, and which fields an act may touch at all.

So the settings of every bank that can be reached are valid (`valid_run`), whatever was tried
on the way, and a step leaves everything outside its target as it is (`frame_step`).
-/

namespace Endian

/-! ### Valid settings -/

namespace Setting

variable {b : Bounds}

theorem valid_chosen {v : UInt32} (h : b.contains v = true) : (⟨v, true⟩ : Setting b).Valid :=
  ⟨h, fun hset => by cases hset⟩

end Setting

namespace Bounds

theorem contains_eq_false_iff {b : Bounds} {v : UInt32} :
    b.contains v = false ↔ v < b.min ∨ b.max < v := by
  rw [← Bool.not_eq_true, contains_iff]
  constructor
  · intro h
    by_cases hmin : b.min ≤ v
    · exact .inr (UInt32.not_le.1 fun hmax => h ⟨hmin, hmax⟩)
    · exact .inl (UInt32.not_le.1 hmin)
  · rintro (h | h) ⟨hmin, hmax⟩
    · exact UInt32.not_le.2 h hmin
    · exact UInt32.not_le.2 h hmax

end Bounds

namespace Config

/-! ### Changes of one configuration -/

theorem set_eq (c : Config) (f : Field) (v : UInt32) :
    c.set f v = if f.bounds.contains v then .ok (c.put f ⟨v, true⟩)
      else .error (.settingOutOfRange v f.bounds.min f.bounds.max) := by
  unfold set Setting.set
  split <;> rfl

theorem trySet_eq (c : Config) (f : Field) (v : UInt32) :
    c.trySet f v = if f.bounds.contains v then .ok (c.put f ⟨v, true⟩)
      else .error (.settingOutOfRange v f.bounds.min f.bounds.max) := by
  unfold trySet Setting.trySet
  cases f.bounds.contains v <;> rfl

theorem get_foldl_resetField (fs : List Field) (c : Config) (f : Field) :
    (fs.foldl resetField c).get f = if f ∈ fs then .new else c.get f := by
  induction fs generalizing c with
  | nil => rfl
  | cons g gs ih =>
    rw [List.foldl_cons, ih, resetField]
    by_cases h : f = g
    · subst h
      simp [Setting.reset]
    · simp [h, get_put_of_ne]

theorem get_resetGroup (c : Config) (g : Group) (f : Field) :
    (c.resetGroup g).get f = if f.group = g then .new else c.get f := by
  rw [resetGroup, get_foldl_resetField]
  simp only [Group.mem_fields]

theorem get_reset (c : Config) (f : Field) : c.reset.get f = .new := by
  rw [reset, get_resetGroup, get_resetGroup]
  cases f.group <;> rfl

/-! ### Presets -/

/-- The choices that a preset makes, one after the other. -/
def Preset.settings : Preset → List (Field × UInt32)
  | .standard => []
  | .fast => [(.dictSize, 65536), (.numFastBytes, 16), (.memLevel, 8), (.windowBits, 12)]
  | .best => [(.dictSize, 67108864), (.numFastBytes, 273), (.memLevel, 9), (.windowBits, 15)]

/-- All choices of a preset are in range, so it can be built by setting them. -/
theorem foldlM_set_settings (p : Preset) :
    p.settings.foldlM (fun c x => c.set x.1 x.2) standard = .ok (ofPreset p) := by
  cases p <;> rfl

theorem get_foldlM_set {ss : List (Field × UInt32)} {c d : Config}
    (h : ss.foldlM (fun c x => c.set x.1 x.2) c = .ok d) (f : Field) :
    d.get f = c.get f ∨ ∃ v, f.bounds.contains v = true ∧ d.get f = ⟨v, true⟩ := by
  induction ss generalizing c with
  | nil =>
    cases h
    exact .inl rfl
  | cons x xs ih =>
    rw [List.foldlM_cons, set_eq] at h
    split at h
    · next hv =>
      rcases ih h with hkept | hchosen
      · by_cases hf : f = x.1
        · subst hf
          exact .inr ⟨x.2, hv, by rw [hkept, get_put_self]⟩
        · exact .inl (by rw [hkept, get_put_of_ne _ _ hf])
      · exact .inr hchosen
    · cases h

/-! ### Where a setting comes from -/

/-- The fields of its target that an act may change. -/
def Act.Touches {n : Nat} : Act n → Field → Prop
  | .load _, _ | .reset, _ | .merge _, _ | .layered _, _ => True
  | .set f _, g | .trySet f _, g | .resetField f, g => g = f
  | .resetGroup s, g | .mergeGroup s _, g => g.group = s
  | .equals _, _ | .compact, _ | .pretty, _ => False

/-- Where the setting of a field comes from after an act on the configuration `c` of a bank. -/
inductive Origin {n : Nat} (bank : Bank n) (c : Config) (a : Act n) (f : Field) :
    Setting f.bounds → Prop where
  | kept : Origin bank c a f (c.get f)
  | fresh (h : a.Touches f) : Origin bank c a f .new
  | chosen (h : a.Touches f) {v : UInt32} (hv : f.bounds.contains v = true) :
      Origin bank c a f ⟨v, true⟩
  | copied (h : a.Touches f) (r : Fin n) : Origin bank c a f ((bank.get r).get f)

section Acts

variable {n : Nat} {bank : Bank n} {c : Config} {a : Act n} {f : Field}

theorem origin_put {s : Setting f.bounds} (h : Origin bank c a f s) (g : Field) :
    Origin bank c a g ((c.put f s).get g) := by
  by_cases hg : g = f
  · subst hg
    rwa [get_put_self]
  · rw [get_put_of_ne _ _ hg]
    exact .kept

theorem origin_choice (h : a.Touches f) (r : Fin n) :
    Origin bank c a f (((bank.get r).get f).choice?.getD (c.get f)) := by
  rw [Setting.choice?]
  split
  · exact .copied h r
  · exact .kept

theorem act_set (bank : Bank n) (c : Config) (f : Field) (v : UInt32) :
    Bank.act bank c (.set f v) = if f.bounds.contains v then ⟨c.put f ⟨v, true⟩, .done, []⟩
      else ⟨c, .failed (.fault (.settingOutOfRange v f.bounds.min f.bounds.max)), []⟩ := by
  rw [Bank.act, set_eq]
  cases f.bounds.contains v <;> rfl

theorem act_trySet (bank : Bank n) (c : Config) (f : Field) (v : UInt32) :
    Bank.act bank c (.trySet f v) = if f.bounds.contains v then ⟨c.put f ⟨v, true⟩, .done, []⟩
      else ⟨c, .failed (.error (.settingOutOfRange v f.bounds.min f.bounds.max)), []⟩ := by
  rw [Bank.act, trySet_eq]
  cases f.bounds.contains v <;> rfl

/-- Each field of the target has one of the four origins after any act. -/
theorem origin_act (bank : Bank n) (c : Config) (a : Act n) (f : Field) :
    Origin bank c a f ((Bank.act bank c a).config.get f) := by
  cases a with
  | load p =>
    have htouch : (Act.load p : Act n).Touches f := trivial
    show Origin bank c _ f ((ofPreset p).get f)
    rcases get_foldlM_set (foldlM_set_settings p) f with h | ⟨v, hv, h⟩
    · rw [h, get_standard]
      exact .fresh htouch
    · rw [h]
      exact .chosen htouch hv
  | set g v =>
    have htouch : (Act.set g v : Act n).Touches g := rfl
    rw [act_set]
    split
    · next hv => exact origin_put (.chosen htouch hv) f
    · exact .kept
  | trySet g v =>
    have htouch : (Act.trySet g v : Act n).Touches g := rfl
    rw [act_trySet]
    split
    · next hv => exact origin_put (.chosen htouch hv) f
    · exact .kept
  | resetField g =>
    have htouch : (Act.resetField g : Act n).Touches g := rfl
    exact origin_put (.fresh htouch) f
  | resetGroup g =>
    show Origin bank c _ f ((c.resetGroup g).get f)
    rw [get_resetGroup]
    split
    · next htouch => exact .fresh htouch
    · exact .kept
  | reset =>
    show Origin bank c _ f (c.reset.get f)
    rw [get_reset]
    exact .fresh trivial
  | mergeGroup g src =>
    show Origin bank c _ f ((c.mergeGroup g (bank.get src)).config.get f)
    rw [mergeGroup_eq, get_withChoices]
    split
    · next hf =>
      have htouch : (Act.mergeGroup g src).Touches f := Group.mem_fields.1 hf
      exact origin_choice htouch src
    · exact .kept
  | merge src =>
    have htouch : (Act.merge src).Touches f := trivial
    show Origin bank c _ f ((c.stack (bank.get src)).get f)
    rw [get_stack]
    exact origin_choice htouch src
  | layered layers =>
    have htouch : (Act.layered layers).Touches f := trivial
    show Origin bank c _ f ((layered (layers.map bank.get)).config.get f)
    rw [get_layered]
    cases hlast : lastSome? (fun layer => (layer.get f).choice?) (layers.map bank.get) with
    | none => exact .fresh htouch
    | some s =>
      -- the layer that decides the field is one of the bank
      obtain ⟨layer, hlayer, hs⟩ := exists_of_lastSome? hlast
      obtain ⟨r, -, rfl⟩ := List.mem_map.1 hlayer
      rw [Option.getD_some, Setting.eq_of_choice? hs]
      exact .copied htouch r
  | equals => exact .kept
  | compact => exact .kept
  | pretty => exact .kept

theorem get_act_of_not_touches (h : ¬ a.Touches f) :
    (Bank.act bank c a).config.get f = c.get f := by
  have horigin := origin_act bank c a f
  generalize (Bank.act bank c a).config.get f = s at horigin ⊢
  cases horigin with
  | kept => rfl
  | fresh ht => exact absurd ht h
  | chosen ht => exact absurd ht h
  | copied ht => exact absurd ht h

theorem valid_act (hbank : ∀ r, (bank.get r).Valid) (hc : c.Valid) (a : Act n) :
    (Bank.act bank c a).config.Valid := by
  intro f
  have horigin := origin_act bank c a f
  generalize (Bank.act bank c a).config.get f = s at horigin ⊢
  cases horigin with
  | kept => exact hc f
  | fresh => exact Setting.valid_new
  | chosen _ hv => exact Setting.valid_chosen hv
  | copied _ r => exact hbank r f

end Acts

/-! ### Banks -/

namespace Bank

variable {n : Nat}

theorem get_step_self (bank : Bank n) (s : Step n) :
    (bank.step s).1.get s.target = (bank.step s).2.config :=
  Vector.getElem_set_self s.target.isLt

theorem get_step_of_ne (bank : Bank n) {s : Step n} {r : Fin n} (h : r ≠ s.target) :
    (bank.step s).1.get r = bank.get r :=
  Vector.getElem_set_ne s.target.isLt r.isLt (Fin.val_ne_of_ne h.symm)

/-- Nothing changes if the target is left as it is. -/
theorem step_eq_self {bank : Bank n} {s : Step n}
    (h : (bank.step s).2.config = bank.get s.target) : (bank.step s).1 = bank := by
  have hset : (bank.step s).1 = bank.set s.target (bank.step s).2.config s.target.isLt := rfl
  rw [hset, h]
  exact Vector.set_getElem_self s.target.isLt

/-- A step changes nothing but what its act may touch in its target. -/
structure Frame (bank : Bank n) (s : Step n) : Prop where
  others : ∀ r ≠ s.target, (bank.step s).1.get r = bank.get r
  fields : ∀ f, ¬ s.act.Touches f →
    ((bank.step s).1.get s.target).get f = (bank.get s.target).get f

theorem frame_step (bank : Bank n) (s : Step n) : bank.Frame s where
  others _ h := get_step_of_ne bank h
  fields f h := by
    rw [get_step_self]
    exact get_act_of_not_touches h

/-- To set a value and to try to set it differ only in how they refuse it. -/
structure SetLaw (bank : Bank n) (r : Fin n) (f : Field) (v : UInt32) : Prop where
  faults_iff : (∃ e, (bank.step ⟨r, .set f v⟩).2.reply = .failed (.fault e)) ↔
    v < f.bounds.min ∨ f.bounds.max < v
  fails_iff : (bank.step ⟨r, .trySet f v⟩).2.reply =
      .failed (.error (.settingOutOfRange v f.bounds.min f.bounds.max)) ↔
    v < f.bounds.min ∨ f.bounds.max < v
  of_outside : v < f.bounds.min ∨ f.bounds.max < v →
    (bank.step ⟨r, .set f v⟩).1 = bank ∧ (bank.step ⟨r, .trySet f v⟩).1 = bank
  of_inside : f.bounds.min ≤ v → v ≤ f.bounds.max →
    bank.step ⟨r, .set f v⟩ = bank.step ⟨r, .trySet f v⟩ ∧
      (bank.step ⟨r, .set f v⟩).2.reply = .done ∧
      ((bank.step ⟨r, .set f v⟩).1.get r).get f = ⟨v, true⟩

theorem setLaw (bank : Bank n) (r : Fin n) (f : Field) (v : UInt32) : bank.SetLaw r f v := by
  have hset : (bank.step ⟨r, .set f v⟩).2 = _ := act_set bank (bank.get r) f v
  have htry : (bank.step ⟨r, .trySet f v⟩).2 = _ := act_trySet bank (bank.get r) f v
  cases hv : f.bounds.contains v with
  | true =>
    have hin : ¬ (v < f.bounds.min ∨ f.bounds.max < v) := by
      rw [← Bounds.contains_eq_false_iff, hv]
      decide
    rw [if_pos hv] at hset htry
    have hsame : bank.step ⟨r, .set f v⟩ = bank.step ⟨r, .trySet f v⟩ :=
      congrArg (fun o : Outcome => (bank.set r o.config r.isLt, o)) (hset.trans htry.symm)
    have hget : ((bank.step ⟨r, .set f v⟩).1.get r).get f = ⟨v, true⟩ := by
      rw [get_step_self bank ⟨r, .set f v⟩, hset]
      exact get_put_self _ f _
    exact {
      faults_iff := ⟨fun ⟨_, he⟩ => (by rw [hset] at he; cases he), fun h => absurd h hin⟩
      fails_iff := ⟨fun he => (by rw [htry] at he; cases he), fun h => absurd h hin⟩
      of_outside := fun h => absurd h hin
      of_inside := fun _ _ => ⟨hsame, by rw [hset], hget⟩ }
  | false =>
    have hout : v < f.bounds.min ∨ f.bounds.max < v := Bounds.contains_eq_false_iff.1 hv
    rw [if_neg (by rw [hv]; decide)] at hset htry
    have hmiss : ¬ (f.bounds.min ≤ v ∧ v ≤ f.bounds.max) := by
      rw [← Bounds.contains_iff, hv]
      decide
    exact {
      faults_iff := ⟨fun _ => hout, fun _ => ⟨_, by rw [hset]⟩⟩
      fails_iff := ⟨fun _ => hout, fun _ => by rw [htry]⟩
      of_outside := fun _ => ⟨step_eq_self (by rw [hset]), step_eq_self (by rw [htry])⟩
      of_inside := fun hmin hmax => absurd ⟨hmin, hmax⟩ hmiss }

/-- Every setting of every configuration is valid. -/
def Valid (bank : Bank n) : Prop := ∀ r, (bank.get r).Valid

theorem valid_new_bank (n : Nat) : (new n).Valid := by
  intro r f
  have hget : (new n).get r = standard := Vector.getElem_replicate r.isLt
  rw [hget, get_standard]
  exact Setting.valid_new

theorem valid_step {bank : Bank n} (h : bank.Valid) (s : Step n) : (bank.step s).1.Valid := by
  intro r
  by_cases hr : r = s.target
  · subst hr
    rw [get_step_self]
    exact valid_act h (h s.target) s.act
  · rw [get_step_of_ne bank hr]
    exact h r

theorem valid_run {bank : Bank n} (h : bank.Valid) (ss : List (Step n)) :
    ∀ e ∈ bank.run ss, e.1.Valid := by
  induction ss generalizing bank with
  | nil => intro e he; cases he
  | cons s ss ih =>
    intro e he
    have hstep := valid_step h s
    rcases List.mem_cons.1 he with rfl | he
    · exact hstep
    · exact ih hstep e he

/-- What holds of a bank at every moment: values in their ranges, defaults where nothing is chosen,
and no check that fails. -/
structure Sound (bank : Bank n) : Prop where
  min_le : ∀ r f, f.bounds.min ≤ ((bank.get r).get f).value
  le_max : ∀ r f, ((bank.get r).get f).value ≤ f.bounds.max
  default_of_unset : ∀ r f, ((bank.get r).get f).isSet = false →
    ((bank.get r).get f).value = f.bounds.default
  assertValid : ∀ r f, ((bank.get r).get f).assertValid = .ok ()

theorem Valid.sound {bank : Bank n} (h : bank.Valid) : bank.Sound where
  min_le r f := (Bounds.contains_iff.1 (h r f).1).1
  le_max r f := (Bounds.contains_iff.1 (h r f).1).2
  default_of_unset r f := (h r f).2
  assertValid r f := Setting.assertValid_of_valid (h r f)

/-- Every bank that steps lead to is sound; every step changes nothing but what it may touch in its
target; and to set a value or to try to set it is refused exactly for a value out of range. -/
theorem run_sound (n : Nat) (ss : List (Step n)) :
    (∀ bank ∈ new n :: ((new n).run ss).map Prod.fst, bank.Sound) ∧
      (∀ (bank : Bank n) (s : Step n), bank.Frame s) ∧
      ∀ (bank : Bank n) (r : Fin n) (f : Field) (v : UInt32), bank.SetLaw r f v := by
  refine ⟨fun bank hbank => ?_, frame_step, setLaw⟩
  have hnew := valid_new_bank n
  rcases List.mem_cons.1 hbank with rfl | hbank
  · exact hnew.sound
  · obtain ⟨e, he, rfl⟩ := List.mem_map.1 hbank
    exact (valid_run hnew ss e he).sound

/-- A value that is refused, a merge of a configuration into itself and layers from the bank. -/
theorem run_sound_layers :
    let ss : List (Step 2) := [⟨0, .load .best⟩, ⟨0, .set .windowBits 16⟩, ⟨1, .trySet .memLevel 3⟩,
      ⟨0, .merge 0⟩, ⟨1, .layered [0, 1]⟩, ⟨0, .resetGroup .zlib⟩]
    ∃ e ∈ (new 2).run ss, (e.1.get 1).get .memLevel = ⟨3, true⟩ ∧
      (e.1.get 1).get .windowBits = ⟨15, true⟩ ∧ (e.1.get 0).get .memLevel = ⟨8, false⟩ ∧
      (e.1.get 0).get .dictSize = ⟨67108864, true⟩ ∧ e.1.Sound := by
  intro ss
  have hmem := List.get_mem ((new 2).run ss) ⟨5, by decide⟩
  have hsound := (run_sound 2 ss).1 _ (List.mem_cons_of_mem _ (List.mem_map_of_mem hmem))
  exact ⟨_, hmem, by decide, by decide, by decide, by decide, hsound⟩

end Bank

end Config

end Endian
