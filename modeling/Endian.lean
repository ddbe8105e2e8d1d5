import Endian.Buffer.Basic
import Endian.Buffer.Cursor
import Endian.Buffer.Run
import Endian.Buffer.Scalar
import Endian.ByteOrder
import Endian.Config.Bank
import Endian.Config.Basic
import Endian.Config.Field
import Endian.Exchange
import Endian.Failure
import Endian.Guard.Allocation
import Endian.Guard.Basic
import Endian.Guard.Layout
import Endian.Guard.Owned
import Endian.Guard.Scope
import Endian.Packed
import Endian.Policy.Basic
import Endian.Policy.Route
import Endian.Position
import Endian.Proofs.Buffer.Access
import Endian.Proofs.Buffer.Frame
import Endian.Proofs.Buffer.Overlay
import Endian.Proofs.Buffer.Table
import Endian.Proofs.Buffer.Tail
import Endian.Proofs.Buffer.Walk
import Endian.Proofs.Config.Invariant
import Endian.Proofs.Config.Layers
import Endian.Proofs.Exchange
import Endian.Proofs.Guard.Allocation
import Endian.Proofs.Guard.Exit
import Endian.Proofs.Guard.Header
import Endian.Proofs.Guard.Ledger
import Endian.Proofs.Guard.Release
import Endian.Proofs.Guard.Resume
import Endian.Proofs.Guard.Storage
import Endian.Proofs.LastAnswer
import Endian.Proofs.Packed.Bits
import Endian.Proofs.Packed.Displacement
import Endian.Proofs.Policy.Agreement
import Endian.Proofs.Policy.SignedReads
import Endian.Proofs.Record.Number
import Endian.Proofs.Record.Order
import Endian.Proofs.Record.Sorting
import Endian.Proofs.Record.Transfer
import Endian.Proofs.Setting.Choice
import Endian.Proofs.Tagged.Plain
import Endian.Proofs.Tagged.Pointer
import Endian.Proofs.Tagged.Slice
import Endian.Proofs.Word.Mask
import Endian.Proofs.Word.Number
import Endian.Proofs.Word.Range
import Endian.Proofs.Word.Rounding
import Endian.Proofs.Word.Transfer
import Endian.Proofs.Word.TwosComplement
import Endian.Record
import Endian.Setting.Bank
import Endian.Setting.Basic
import Endian.Tagged.Arith
import Endian.Tagged.Basic
import Endian.Tagged.Displacement
import Endian.Tagged.View
import Endian.Text.Hidden
import Endian.Text.Joining
import Endian.Text.Quoted
import Endian.Text.Spec
import Endian.Text.Tree
import Endian.Text.Unassigned
import Endian.Transfer
import Endian.TriBool
import Endian.Word.Align
import Endian.Word.Basic
import Endian.Word.Order
import Endian.Word.SignExtend
