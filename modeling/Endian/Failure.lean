import Endian.Text.Quoted
import Endian.Text.Tree

/-!
# Errors and faults

An `Error` is an answer that a caller can handle; it arises at the edges, where a buffer is too
short, a setting is out of range or a name is unknown. A `Fault` is the breach of a contract: the
call gives no answer at all. `Failure` is either of the two. Every wording stands here.
-/

namespace Endian

/-- A place in the text of a program, as its build tells it. -/
structure Site where
  file : String
  line : UInt32
deriving DecidableEq, Repr

/-- Why a call answers with an error. -/
inductive Error where
  | outOfBounds
  | settingOutOfRange (value min max : UInt32)
  | unknownByteOrder (name : String)
  /-- A use that the contract excludes, reported with the place that noticed it. -/
  | malformed (message : String) (site : Site)
deriving DecidableEq, Repr

/-- Which contract a call breaks. -/
inductive Fault where
  /-- A field width outside `1..limit`. -/
  | fieldWidth (limit : Nat)
  | divisionByZero
  | addOverflow
  | subOverflow
  | mulOverflow
  | settingOutOfRange (value min max : UInt32)
  /-- A setting that holds a value out of its range. -/
  | settingInvalid
  | guardFull (slots : Nat)
  | guardOverclaimed
  | rowTooLarge (len : Nat)
  /-- The destruction of an object went wrong. -/
  | bomb (id : Nat)
  /-- A fault of the caller's own. -/
  | raised (text : String)
deriving DecidableEq, Repr

inductive Failure where
  | error (e : Error)
  | fault (f : Fault)
deriving DecidableEq, Repr

/-! ### Wording -/

/-- The words for a value outside its range. -/
def rangeText (lead : String) (value min max : UInt32) : String :=
  s!"{lead} value {value} is outside of [{min}, {max}]"

/-- The words for a release guard whose slots are all taken. -/
def guardFullText (slots : Nat) : String := s!"release guard is full ({slots} slots)"

namespace Error

def message : Error → String
  | outOfBounds => "Out of Bound access would have occurred!"
  | settingOutOfRange value min max => rangeText "Setting" value min max
  | unknownByteOrder name => "Unknown byte order - " ++ name
  | malformed message site => s!"Malformed - {site.file}:{site.line}: {message}"

open Text in
/-- The structure of an error. -/
def tree : Error → Tree
  | outOfBounds => .leaf "OutOfBounds"
  | settingOutOfRange value min max => .record "SettingOutOfRange" (.ofList
      [("value", .leaf (toString value)), ("min", .leaf (toString min)), ("max", .leaf (toString max))])
  | unknownByteOrder name => .wrapped "UnknownByteOrder" (.leaf (Quoted.quote name))
  | malformed message site => .record "Malformed" (.ofList
      [("message", .leaf (Quoted.quote message)), ("file", .leaf (Quoted.quote site.file)),
       ("line", .leaf (toString site.line))])

end Error

def Fault.message : Fault → String
  | fieldWidth limit => s!"assertion failed: bits >= 1 && bits <= {limit}"
  | divisionByZero => "attempt to divide by zero"
  | addOverflow => "attempt to add with overflow"
  | subOverflow => "attempt to subtract with overflow"
  | mulOverflow => "attempt to multiply with overflow"
  | settingOutOfRange value min max => rangeText "setting" value min max
  | settingInvalid => "assertion failed: Self::in_range(self.value)"
  | guardFull slots => guardFullText slots
  | guardOverclaimed => "release guard count exceeds slot table"
  | rowTooLarge len => s!"array of {len} elements is too large for a release slot"
  | bomb id => s!"bomb {id}"
  | raised text => text

end Endian
