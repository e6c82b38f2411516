import Sentinet.Data.Memory

namespace Sentinet.Messages

/-! The macros of `type_codes.h` and `data_message_keys.h`. -/

abbrev TypeCode := UInt8

namespace TypeCode

def char : TypeCode := 'c'.toUInt8
def byteType : TypeCode := 'y'.toUInt8
def bool : TypeCode := 'b'.toUInt8
def int8 : TypeCode := 'p'.toUInt8
def uint8 : TypeCode := 'r'.toUInt8
def int16 : TypeCode := 'n'.toUInt8
def uint16 : TypeCode := 'q'.toUInt8
def int32 : TypeCode := 'i'.toUInt8
def uint32 : TypeCode := 'u'.toUInt8
def int64 : TypeCode := 'x'.toUInt8
def uint64 : TypeCode := 't'.toUInt8
def float : TypeCode := 'f'.toUInt8
def string : TypeCode := 's'.toUInt8

end TypeCode

/-! Message types. -/

def protocolVersion : UInt8 := 1
def dataPacket : UInt8 := 1
def ping : UInt8 := 2

/-! Sizes and positions of a data message.  The header fields have the widths
1, 1, 2, 2, 4 and 2; a zero byte separates the header from the data segment. -/

def messageSize : Nat := 256
def protPos : Nat := 0
def opPos : Nat := protPos + 1
def funcPos : Nat := opPos + 1
def magPos : Nat := funcPos + 2
def bytePos : Nat := magPos + 2
def fldPos : Nat := bytePos + 4
def nullTermPos : Nat := fldPos + 2
def dtPos : Nat := nullTermPos + 1
def dataHeaderSize : Nat := dtPos

/-- `LIGHT_MESSAGES` is defined, so messages hold fewer than 32 fields. -/
def maxFields : Nat := 32

inductive Errno where
  | ok | einval
deriving DecidableEq, Repr

/-! `data.h` sets `__RMT_BYTE_ORDER__` and `__RMT_BIG_ENDIAN__` both to 0, so the
conversions to and from network order leave every word as it is. -/

def host16 (data : UInt16) : UInt16 := data
def host32 (data : UInt32) : UInt32 := data

end Sentinet.Messages
