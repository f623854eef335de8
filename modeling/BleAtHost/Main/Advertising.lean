import BleAtHost.Lib.Ltv
import BleAtHost.Lib.NetBuf
import BleAtHost.Main.Ops

/-!
# The parser of advertising payloads, on its buffers

`parse_device_name` with its reads of the payload and its writes to the name buffer. An access outside the
window of the payload or outside the name buffer has no result.
-/

namespace BleAtHost.Main

def BT_DATA_NAME_SHORTENED : Byte := 0x08
def BT_DATA_NAME_COMPLETE : Byte := 0x09

/-- `memcpy` to the front of a buffer. -/
def memcpy (buffer data : List Byte) : Option (List Byte) :=
  if data.length ≤ buffer.length then some (data ++ buffer.drop data.length) else none

/-- `name[i] = '\0'`. -/
def terminate (name : List Byte) (i : Nat) : Option (List Byte) :=
  if i < name.length then some (name.set i 0) else none

/-- At most `passes` passes of the loop of `parse_device_name` and the restoring after it. -/
def parseDeviceNameLoop (state : NetBufSimpleState) (nameLen : Nat) :
    Nat → NetBufSimple → List Byte → Option (List Byte × NetBufSimple)
  | 0, _, _ => none
  | passes + 1, ad, name =>
      if ad.len ≤ 1 then (ad.restore state).map fun ad => (name, ad)
      else do
        let (fieldLen, ad) ← ad.pullU8
        if fieldLen = 0 ∨ ad.len < fieldLen.toNat then (ad.restore state).map fun ad => (name, ad)
        else
          let (fieldType, ad) ← ad.pullU8
          let valueLen := fieldLen - 1
          if fieldType = BT_DATA_NAME_COMPLETE ∨ fieldType = BT_DATA_NAME_SHORTENED then
            let copyLen := min valueLen.toNat (nameLen - 1)
            let value ← ad.read copyLen
            let name ← memcpy name value
            let name ← terminate name copyLen
            (ad.restore state).map fun ad => (name, ad)
          else
            let ad ← ad.pull valueLen.toNat
            parseDeviceNameLoop state nameLen passes ad name

/-- `parse_device_name` with the name buffer and the payload as it leaves them. -/
def parseDeviceNameInto (ad : NetBufSimple) (name : List Byte) (nameLen : Nat) :
    Option (List Byte × NetBufSimple) := do
  let name ← terminate name 0
  parseDeviceNameLoop ad.save nameLen (ad.len + 1) ad name

/-- A structure that carries a name. -/
def isNameField (f : Ltv.Field) : Bool := f.type == BT_DATA_NAME_COMPLETE || f.type == BT_DATA_NAME_SHORTENED

/-- The name among the structures of a payload: the value of the first that carries one. -/
def nameAmong (fields : List Ltv.Field) : Option (List Byte) := (fields.find? isNameField).map Ltv.Field.value

end BleAtHost.Main
