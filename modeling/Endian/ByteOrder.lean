import Endian.Text.Spec

/-!
# Byte order

The two orders in which the bytes of a word may lie in memory, and their names.

- `ByteOrder.host`: the order of the machine whose memory is described, little-endian.
- `ByteOrder.ofName?`: reads a name, whatever the case of its ASCII letters;
  `ofName?_name` says that every printed name reads back.
-/

namespace Endian

/-- The end of a word that comes first in memory. -/
inductive ByteOrder where
  | big
  | little
deriving DecidableEq, Repr, Inhabited

namespace ByteOrder

def all : List ByteOrder := [big, little]

/-- The order in which the host keeps its own words. -/
def host : ByteOrder := little

def isHost (o : ByteOrder) : Bool := o == host

/-- The opposite order. -/
def swapped : ByteOrder → ByteOrder
  | big => little
  | little => big

/-! ### Names -/

/-- The name that is printed. -/
def name : ByteOrder → String
  | big => "big"
  | little => "little"

/-- The name of the order as a variant, as structured output shows it. -/
def variantName : ByteOrder → String
  | big => "Big"
  | little => "Little"

/-- All names that are understood, in lower case; the printed one comes first. -/
def spellings : ByteOrder → List String
  | big => ["big", "be", "big-endian", "msb"]
  | little => ["little", "le", "little-endian", "lsb"]

/-- The order that `s` names. ASCII letters match in either case, other characters only themselves. -/
def ofName? (s : String) : Option ByteOrder :=
  all.find? fun o => o.spellings.contains (s.map Char.toLower)

/-- The name as the field asks for it. Debug output shows the variant and takes no padding. -/
def render (o : ByteOrder) (s : Text.Spec) : String :=
  match s.style with
  | .debug => o.variantName
  | _ => s.renderText o.name

theorem ofName?_name (o : ByteOrder) : ofName? o.name = some o := by cases o <;> decide +kernel

end ByteOrder

end Endian
