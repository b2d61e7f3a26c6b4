import Kestara.Library.Codec
import Kestara.Library.Utf8
import Kestara.Models

/-!
# Decoding of an event

`NativeEventDecoder` of the Kotlin/Native library. A reader holds the bytes from its offset on.
-/
namespace Kestara.Wire
open Codec

/-- What `decode` can throw. -/
inductive EventFailure
  | webRtc (message : String)
  | illegalArgument (message : String)
  | indexOutOfBounds
  deriving DecidableEq, Repr

abbrev LittleEndianReader := Codec.Reader EventFailure

namespace LittleEndianReader

def require (condition : Bool) (message : String) : LittleEndianReader Unit :=
  if condition then pure () else throw (.illegalArgument message)

def requireAvailable (count : ℕ) : LittleEndianReader Unit := do
  require (count ≤ (← remaining)) "Native event ended unexpectedly"

/-- `data[offset++]`, or the bytes of a range of the array. -/
def take (count : ℕ) : LittleEndianReader (List UInt8) := fetch .indexOutOfBounds count

def byte : LittleEndianReader UInt8 := do
  requireAvailable 1
  return (← take 1).headD 0

def int : LittleEndianReader (BitVec 32) := do
  requireAvailable 4
  return (← take 4).zipIdx.foldl Endian.orAt 0

def long : LittleEndianReader (BitVec 64) := do
  requireAvailable 8
  return (← take 8).zipIdx.foldl Endian.orAt 0

/-- What follows a length other than -1. -/
def payload (length : ℤ) : LittleEndianReader (List UInt8) := do
  require (0 ≤ length) "Invalid native event payload length"
  requireAvailable length.toNat
  take length.toNat

def optionalBytes : LittleEndianReader (Option (List UInt8)) := do
  let length := (← int).toInt
  if length = -1 then return none else return some (← payload length)

end LittleEndianReader
open LittleEndianReader

namespace NativeEventDecoder

def checkVersion (version : UInt8) : LittleEndianReader Unit :=
  if version = 1 then pure ()
  else throw (.webRtc ("Unsupported native event format: " ++ toString version.toNat))

def readEvent : LittleEndianReader NativeEvent := do
  let version ← byte
  checkVersion version
  let kind ← int
  let peerHandle ← long
  let channelHandle ← long
  let operationHandle ← long
  let number ← int
  let text ← optionalBytes
  let secondaryText ← optionalBytes
  let data ← optionalBytes
  return { kind := kind.toInt,peerHandle := peerHandle.toInt,channelHandle := channelHandle.toInt,
           operationHandle := operationHandle.toInt,number := number.toInt,
           text := text.map Utf8.decode,secondaryText := secondaryText.map Utf8.decode,data }

def body : LittleEndianReader NativeEvent := do
  let event ← readEvent
  if (← remaining) = 0 then return event
  else throw (.webRtc "Native event contains trailing data")

def decode (data : List UInt8) : Except EventFailure NativeEvent :=
  match body data with
  | .ok (event,_) => .ok event
  | .error e => .error e

end NativeEventDecoder

end Kestara.Wire
