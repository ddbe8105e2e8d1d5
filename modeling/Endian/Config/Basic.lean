import Endian.Config.Field
import Endian.Text.Tree

/-!
# Compression configuration

A `Config` holds a setting for every field. Configurations are layered: `merge` copies the explicit
choices of one into another, field by field in declaration order, and reports each as an
`Override`; `layered` folds several layers, the one with the lowest priority first.
-/

namespace Endian

structure Config where
  posBits : Setting Config.Field.posBits.bounds := .new
  litPosBits : Setting Config.Field.litPosBits.bounds := .new
  litContextBits : Setting Config.Field.litContextBits.bounds := .new
  dictSize : Setting Config.Field.dictSize.bounds := .new
  numFastBytes : Setting Config.Field.numFastBytes.bounds := .new
  memLevel : Setting Config.Field.memLevel.bounds := .new
  windowBits : Setting Config.Field.windowBits.bounds := .new
  strategy : Setting Config.Field.strategy.bounds := .new
deriving DecidableEq

namespace Config

/-! ### Access by field -/

def get (c : Config) : (f : Field) → Setting f.bounds
  | .posBits => c.posBits
  | .litPosBits => c.litPosBits
  | .litContextBits => c.litContextBits
  | .dictSize => c.dictSize
  | .numFastBytes => c.numFastBytes
  | .memLevel => c.memLevel
  | .windowBits => c.windowBits
  | .strategy => c.strategy

/-- The configuration with the given setting in every field. -/
def ofGet (g : (f : Field) → Setting f.bounds) : Config where
  posBits := g .posBits
  litPosBits := g .litPosBits
  litContextBits := g .litContextBits
  dictSize := g .dictSize
  numFastBytes := g .numFastBytes
  memLevel := g .memLevel
  windowBits := g .windowBits
  strategy := g .strategy

@[simp] theorem get_ofGet (g : (f : Field) → Setting f.bounds) (f : Field) :
    (ofGet g).get f = g f := by cases f <;> rfl

theorem ext_get {c d : Config} (h : ∀ f, c.get f = d.get f) : c = d := by
  cases c
  cases d
  exact mk.injEq .. ▸ ⟨h .posBits, h .litPosBits, h .litContextBits, h .dictSize, h .numFastBytes,
    h .memLevel, h .windowBits, h .strategy⟩

/-- Replaces the setting of one field. -/
def put (c : Config) (f : Field) (s : Setting f.bounds) : Config :=
  ofGet fun g => if h : g = f then h ▸ s else c.get g

@[simp] theorem get_put_self (c : Config) (f : Field) (s : Setting f.bounds) :
    (c.put f s).get f = s := by simp [put]

theorem get_put_of_ne (c : Config) {f g : Field} (s : Setting f.bounds) (h : g ≠ f) :
    (c.put f s).get g = c.get g := by simp [put, h]

/-- Every setting is valid. -/
def Valid (c : Config) : Prop := ∀ f, (c.get f).Valid

/-! ### Presets -/

/-- A configuration without any choice. -/
def standard : Config := {}

/-- Speed before ratio. -/
def fast : Config where
  dictSize := .chosen 65536
  numFastBytes := .chosen 16
  memLevel := .chosen 8
  windowBits := .chosen 12

/-- Ratio before speed. -/
def best : Config where
  dictSize := .chosen 67108864
  numFastBytes := .chosen 273
  memLevel := .chosen 9
  windowBits := .chosen 15

/-! ### Changes -/

def set (c : Config) (f : Field) (v : UInt32) : Except Fault Config :=
  ((c.get f).set v).map (c.put f)

def trySet (c : Config) (f : Field) (v : UInt32) : Except Error Config :=
  ((c.get f).trySet v).map (c.put f)

def resetField (c : Config) (f : Field) : Config := c.put f (c.get f).reset

def resetGroup (c : Config) (g : Group) : Config := g.fields.foldl resetField c

def reset (c : Config) : Config := (c.resetGroup .lzma).resetGroup .zlib

/-! ### Layers -/

/-- The report of a choice that was copied. -/
structure Override where
  field : Field
  value : UInt32
deriving DecidableEq, Repr

def Override.text (o : Override) : String :=
  s!"DEBUG config override {o.field.path} = {o.value}"

/-- A configuration into which choices are copied, how many were, and their reports. -/
structure Merged where
  config : Config
  changed : Nat := 0
  overrides : List Override := []
deriving DecidableEq

namespace Merged

/-- Copies one field's choice, if the source has one. -/
def takeField (src : Config) (m : Merged) (f : Field) : Merged :=
  match (m.config.get f).assignFrom (src.get f) with
  | (s, true) => ⟨m.config.put f s, m.changed + 1, m.overrides ++ [⟨f, s.value⟩]⟩
  | (_, false) => m

/-- One merge after another. -/
def andThen (m : Merged) (next : Config → Merged) : Merged :=
  let r := next m.config
  ⟨r.config, m.changed + r.changed, m.overrides ++ r.overrides⟩

end Merged

/-- Copies the choices for one compressor. -/
def mergeGroup (g : Group) (dst src : Config) : Merged :=
  g.fields.foldl (Merged.takeField src) { config := dst }

/-- Copies all choices. -/
def merge (dst src : Config) : Merged :=
  (dst.mergeGroup .lzma src).andThen fun c => c.mergeGroup .zlib src

/-- The layers folded onto the defaults, the lowest priority first. -/
def layered (layers : List Config) : Merged :=
  layers.foldl (fun m layer => m.andThen fun c => c.merge layer) { config := standard }

/-! ### Text -/

open Text in
def groupTree (c : Config) (name : String) (g : Group) : Tree :=
  .record name (.ofList (g.fields.map fun f => (f.name, .leaf ((c.get f).render { style := .debug }))))

open Text in
/-- The structure of a configuration. -/
def tree (c : Config) : Tree :=
  .record "CompressConfig" (.ofList
    [(Group.lzma.name, c.groupTree "LzmaConfig" .lzma), (Group.zlib.name, c.groupTree "ZlibConfig" .zlib)])

end Config

end Endian
