import Endian.Config.Basic
import Endian.Proofs.Setting.Choice

/-!
# Layers of a configuration

What a merge leaves is said field by field: the choice of the source, or else what the destination
had (`get_stack`); its count and its reports are those of the fields that the source has chosen
(`merge_eq`). So the last layer that chooses a field decides it (`get_layered`), and merges can be
grouped as one likes (`stack_assoc`, `layered_append`).
-/

namespace Endian

namespace Config

/-! ### Choices -/

@[simp] theorem put_get_self (c : Config) (f : Field) : c.put f (c.get f) = c := by
  apply ext_get
  intro g
  by_cases h : g = f
  · subst h
    rw [get_put_self]
  · rw [get_put_of_ne _ _ h]

/-- What is chosen among the given fields, in their order. -/
def choices (c : Config) (fs : List Field) : List Override :=
  (fs.filter fun f => (c.get f).isSet).map fun f => ⟨f, (c.get f).value⟩

theorem choices_append (c : Config) (fs gs : List Field) :
    c.choices (fs ++ gs) = c.choices fs ++ c.choices gs := by
  rw [choices, List.filter_append, List.map_append, choices, choices]

theorem length_choices (c : Config) (fs : List Field) :
    (c.choices fs).length = fs.countP fun f => (c.get f).isSet := by
  rw [choices, List.length_map, List.countP_eq_length_filter]

/-- A configuration with the choices of another one for the given fields. -/
def withChoices (dst src : Config) (fs : List Field) : Config :=
  ofGet fun f => if f ∈ fs then (src.get f).choice?.getD (dst.get f) else dst.get f

theorem get_withChoices (dst src : Config) (fs : List Field) (f : Field) :
    (dst.withChoices src fs).get f =
      if f ∈ fs then (src.get f).choice?.getD (dst.get f) else dst.get f := by
  rw [withChoices, get_ofGet]

theorem withChoices_withChoices (dst src : Config) (fs gs : List Field) :
    (dst.withChoices src fs).withChoices src gs = dst.withChoices src (fs ++ gs) := by
  apply ext_get
  intro f
  rw [get_withChoices, get_withChoices, get_withChoices]
  by_cases hg : f ∈ gs
  · rw [if_pos hg, if_pos (List.mem_append_right fs hg)]
    split
    · -- a choice that is taken twice
      cases (src.get f).choice? <;> rfl
    · rfl
  · rw [if_neg hg]
    simp only [List.mem_append, hg, or_false]

theorem withChoices_nil (dst src : Config) : dst.withChoices src [] = dst := by
  apply ext_get
  intro f
  rw [get_withChoices, if_neg List.not_mem_nil]

theorem withChoices_singleton (dst src : Config) (f : Field) :
    dst.withChoices src [f] = dst.put f ((src.get f).choice?.getD (dst.get f)) := by
  apply ext_get
  intro g
  rw [get_withChoices]
  by_cases h : g = f
  · subst h
    rw [if_pos (List.mem_singleton_self g), get_put_self]
  · rw [if_neg (mt List.mem_singleton.1 h), get_put_of_ne _ _ h]

/-! ### Merges -/

theorem takeField_eq (src : Config) (m : Merged) (f : Field) :
    m.takeField src f = ⟨m.config.withChoices src [f], m.changed + (src.choices [f]).length,
      m.overrides ++ src.choices [f]⟩ := by
  rw [Merged.takeField, Setting.assignFrom_eq, withChoices_singleton]
  cases h : (src.get f).isSet with
  | true => simp [choices, Setting.choice?, h]
  | false => simp [choices, Setting.choice?, h]

theorem foldl_takeField (src : Config) (fs : List Field) (m : Merged) :
    fs.foldl (Merged.takeField src) m = ⟨m.config.withChoices src fs,
      m.changed + (src.choices fs).length, m.overrides ++ src.choices fs⟩ := by
  induction fs generalizing m with
  | nil =>
    rw [withChoices_nil]
    exact congrArg (Merged.mk m.config m.changed) (List.append_nil _).symm
  | cons f fs ih =>
    have hchoices := src.choices_append [f] fs
    have hconfig := m.config.withChoices_withChoices src [f] fs
    rw [List.singleton_append] at hchoices hconfig
    rw [List.foldl_cons, ih, takeField_eq, hconfig, hchoices, List.length_append, Nat.add_assoc,
      List.append_assoc]

/-- A merge for one compressor. -/
theorem mergeGroup_eq (g : Group) (dst src : Config) :
    dst.mergeGroup g src =
      ⟨dst.withChoices src g.fields, (src.choices g.fields).length, src.choices g.fields⟩ := by
  rw [mergeGroup, foldl_takeField, Nat.zero_add, List.nil_append]

theorem merge_eq (dst src : Config) :
    dst.merge src =
      ⟨dst.withChoices src Field.all, (src.choices Field.all).length, src.choices Field.all⟩ := by
  rw [merge, Merged.andThen, mergeGroup_eq, mergeGroup_eq, withChoices_withChoices, Field.all,
    choices_append, List.length_append]

/-- The configuration that a merge leaves. -/
def stack (dst src : Config) : Config := (dst.merge src).config

theorem get_stack (dst src : Config) (f : Field) :
    (dst.stack src).get f = (src.get f).choice?.getD (dst.get f) := by
  rw [stack, merge_eq, get_withChoices, if_pos f.mem_all]

theorem stack_assoc (a b c : Config) : (a.stack b).stack c = a.stack (b.stack c) := by
  apply ext_get
  intro f
  simp only [get_stack, Setting.choice?_getD, Option.getD_or]

instance : Std.Associative stack := ⟨stack_assoc⟩

theorem stack_self (c : Config) : c.stack c = c := by
  apply ext_get
  intro f
  rw [get_stack, Setting.choice?]
  split <;> rfl

theorem stack_stack_self (a b : Config) : (a.stack b).stack b = a.stack b := by
  rw [stack_assoc, stack_self]

theorem get_standard (f : Field) : standard.get f = .new := by cases f <;> rfl

theorem stack_standard (c : Config) : c.stack standard = c := by
  apply ext_get
  intro f
  rw [get_stack, get_standard, Setting.choice?_new, Option.getD_none]

/-! ### Many layers -/

theorem config_layered (layers : List Config) :
    (layered layers).config = layers.foldl stack standard :=
  (List.foldl_hom Merged.config fun _ _ => rfl).symm

theorem get_layered (layers : List Config) (f : Field) :
    (layered layers).config.get f =
      (lastSome? (fun layer => (layer.get f).choice?) layers).getD .new := by
  rw [config_layered, ← get_standard]
  exact view_foldl (fun c => c.get f) (fun c layer => c.get_stack layer f) layers standard

theorem layered_append (xs ys : List Config) :
    (layered (xs ++ ys)).config = (layered xs).config.stack (layered ys).config :=
  calc (layered (xs ++ ys)).config
      = ys.foldl stack ((layered xs).config.stack standard) := by
        rw [config_layered, config_layered, List.foldl_append, stack_standard]
    _ = (layered xs).config.stack (ys.foldl stack standard) := List.foldl_assoc
    _ = (layered xs).config.stack (layered ys).config := by rw [← config_layered ys]

/-- In layers every field has the last choice made for it, or else its default. Merges can be
grouped, repeated and split as one likes; each counts and reports the choices of its source, those
for the first compressor before those for the second. -/
theorem last_choice_wins (layers xs ys : List Config) (a b c : Config) :
    (∀ f, (layered layers).config.get f =
        (lastSome? (fun layer => (layer.get f).choice?) layers).getD .new) ∧
      ((a.merge b).config.merge c).config = (a.merge (b.merge c).config).config ∧
      ((a.merge b).config.merge b).config = (a.merge b).config ∧
      (layered (xs ++ ys)).config = ((layered xs).config.merge (layered ys).config).config ∧
      (a.merge b).overrides = b.choices [.posBits, .litPosBits, .litContextBits, .dictSize,
        .numFastBytes, .memLevel, .windowBits, .strategy] ∧
      (a.merge b).overrides.map Override.text =
        (Field.all.filter fun f => (b.get f).isSet).map (fun f =>
          "DEBUG config override " ++ f.path ++ " = " ++ toString (b.get f).value) ∧
      (a.merge b).changed = Field.all.countP (fun f => (b.get f).isSet) ∧
      ∀ g, (a.mergeGroup g b).overrides = b.choices g.fields ∧
        (a.mergeGroup g b).changed = g.fields.countP fun f => (b.get f).isSet := by
  refine ⟨get_layered layers, stack_assoc a b c, stack_stack_self a b, layered_append xs ys, ?_, ?_,
    ?_, fun g => ⟨?_, ?_⟩⟩
  · rw [merge_eq]
    rfl
  · rw [merge_eq, choices, List.map_map]
    rfl
  · rw [merge_eq, length_choices]
  · rw [mergeGroup_eq]
  · rw [mergeGroup_eq, length_choices]

/-- A choice of the value that a field has already counts and is reported. -/
example :
    let layer := standard.put .windowBits (.chosen 12)
    (fast.merge layer).changed = 1 ∧ (fast.merge layer).overrides = [⟨.windowBits, 12⟩] ∧
      (layered [fast, layer, standard]).config = fast := by decide

end Config

end Endian
