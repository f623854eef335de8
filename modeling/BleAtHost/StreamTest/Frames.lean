import Mathlib.Data.Nat.Digits.Defs
import BleAtHost.Common
import BleAtHost.Lib.Splitter

/-!
# The frames of the stream test

`build_frame` and `FrameParser` in `e2e_stream_test.py`. Integers in a frame are unsigned with the lowest byte first.
-/

namespace BleAtHost

namespace StreamTest

def FRAME_MAGIC : List Byte := ascii "BATH"

/-- `HEADER_STRUCT.size`: the magic, `seq`, `tx_ms` and the length. -/
def HEADER_SIZE : Nat := 14

/-- An integer as `struct.pack` writes it. -/
def pack (size n : Nat) : List Byte := (List.range size).map fun i => UInt8.ofNat (n / 256 ^ i)

/-- An integer as `struct.unpack` reads it. -/
def unpack (bytes : List Byte) : Nat := Nat.ofDigits 256 (bytes.map UInt8.toNat)

/-- `build_frame`; `txMs` is the reading of the clock. -/
def buildFrame (seq txMs frameSize : Nat) : List Byte :=
  let header := FRAME_MAGIC ++ pack 4 seq ++ pack 4 txMs ++ pack 2 frameSize
  let fillLen := frameSize - header.length
  header ++ List.replicate fillLen (UInt8.ofNat seq)

structure ParsedFrame where
  seq : Nat
  txMs : Nat
  payloadLen : Nat
deriving DecidableEq, Repr

/-- `_validate_frame`. -/
def validateFrame (frameSize : Nat) (frame : List Byte) : Option ParsedFrame :=
  if frame.length ≠ frameSize then none
  else
    let magic := frame.take 4
    let seq := unpack ((frame.drop 4).take 4)
    let txMs := unpack ((frame.drop 8).take 4)
    let payloadLen := unpack ((frame.drop 12).take 2)
    if magic ≠ FRAME_MAGIC ∨ payloadLen ≠ frameSize then none
    else
      let fillByte := UInt8.ofNat seq
      let payload := frame.drop HEADER_SIZE
      if payload.any (· ≠ fillByte) then none else some ⟨seq, txMs, payloadLen⟩

/-- The loop of `feed`: the frames it finds, and the buffer after it. Every pass but the last shortens the buffer. -/
def feedLoop (frameSize : Nat) : (passes : Nat) → List Byte → List ParsedFrame × List Byte
  | 0, buffer => ([], buffer)
  | passes + 1, buffer =>
      if buffer.length < HEADER_SIZE then ([], buffer)
      else
        match Splitter.find FRAME_MAGIC buffer with
        | none => ([], buffer.drop (buffer.length - (FRAME_MAGIC.length - 1)))
        | some start =>
            let buffer := buffer.drop start
            if buffer.length < frameSize then ([], buffer)
            else
              match validateFrame frameSize (buffer.take frameSize) with
              | none => feedLoop frameSize passes (buffer.drop 1)
              | some frame =>
                  let (frames, rest) := feedLoop frameSize passes (buffer.drop frameSize)
                  (frame :: frames, rest)

end StreamTest

structure FrameParser where
  frameSize : Nat
  buffer : List Byte
deriving DecidableEq, Repr

namespace FrameParser

open StreamTest

def init (frameSize : Nat) : FrameParser where
  frameSize := frameSize
  buffer := []

def feed (p : FrameParser) (chunk : List Byte) : List ParsedFrame × FrameParser :=
  let buffer := p.buffer ++ chunk
  let (frames, rest) := feedLoop p.frameSize (buffer.length + 1) buffer
  (frames, { p with buffer := rest })

/-- The frames of one chunk after the other. -/
def feedAll (p : FrameParser) : List (List Byte) → List ParsedFrame × FrameParser
  | [] => ([], p)
  | chunk :: chunks =>
      let (frames, p) := p.feed chunk
      let (more, p) := p.feedAll chunks
      (frames ++ more, p)

end FrameParser

end BleAtHost
