import Endian.Setting.Basic

/-!
# Compression fields

The eight numbers that tune the two compressors, in their order of declaration, each with its
range and default.
-/

namespace Endian.Config

/-- A compressor that is tuned. -/
inductive Group where
  | lzma
  | zlib
deriving DecidableEq, Repr

inductive Field where
  /-- Low position bits used as context. -/
  | posBits
  /-- Low position bits used for literals. -/
  | litPosBits
  /-- High bits of the byte before, used for literals. -/
  | litContextBits
  /-- Bytes of the dictionary. -/
  | dictSize
  /-- Match length that ends the search. -/
  | numFastBytes
  /-- Memory for the state. -/
  | memLevel
  /-- Binary logarithm of the window. -/
  | windowBits
  | strategy
deriving DecidableEq, Repr

namespace Field

def bounds : Field → Bounds
  | posBits => { default := 2, min := 0, max := 4 }
  | litPosBits => { default := 0, min := 0, max := 4 }
  | litContextBits => { default := 3, min := 0, max := 8 }
  | dictSize => { default := 4194304, min := 1, max := 1073741824 }
  | numFastBytes => { default := 64, min := 5, max := 273 }
  | memLevel => { default := 8, min := 1, max := 9 }
  | windowBits => { default := 15, min := 9, max := 15 }
  | strategy => { default := 0, min := 0, max := 4 }

def name : Field → String
  | posBits => "pos_bits"
  | litPosBits => "lit_pos_bits"
  | litContextBits => "lit_context_bits"
  | dictSize => "dict_size"
  | numFastBytes => "num_fast_bytes"
  | memLevel => "mem_level"
  | windowBits => "window_bits"
  | strategy => "strategy"

def group : Field → Group
  | posBits | litPosBits | litContextBits | dictSize | numFastBytes => .lzma
  | memLevel | windowBits | strategy => .zlib

end Field

namespace Group

def name : Group → String
  | lzma => "lzma"
  | zlib => "zlib"

/-- The fields of a compressor in their order of declaration. -/
def fields : Group → List Field
  | lzma => [.posBits, .litPosBits, .litContextBits, .dictSize, .numFastBytes]
  | zlib => [.memLevel, .windowBits, .strategy]

theorem mem_fields {g : Group} {f : Field} : f ∈ g.fields ↔ f.group = g := by
  cases g <;> cases f <;> decide

end Group

namespace Field

/-- All fields, one compressor after the other. -/
def all : List Field := Group.lzma.fields ++ Group.zlib.fields

theorem mem_all (f : Field) : f ∈ all := by cases f <;> decide

/-- The name with its compressor's. -/
def path (f : Field) : String := f.group.name ++ "." ++ f.name

def ofPath? (s : String) : Option Field := all.find? fun f => f.path == s

theorem ofPath?_path (f : Field) : ofPath? f.path = some f := by cases f <;> decide +kernel

end Field

end Endian.Config
