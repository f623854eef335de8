import BleAtHost.StreamTest.Lemmas.Frames

/-!
# The frame parser against the stream

What comes out does not depend on where the stream is cut. An intact frame comes out if no valid frame can be read
across its beginning.
-/

namespace BleAtHost.StreamTest

/-- Two ways of cutting a stream give the same frames. -/
theorem feed_chunking {frameSize : Nat} (hsize : HEADER_SIZE ≤ frameSize) {chunks chunks' : List (List Byte)}
    (h : chunks.flatten = chunks'.flatten) :
    ((FrameParser.init frameSize).feedAll chunks).1 = ((FrameParser.init frameSize).feedAll chunks').1 := by
  rw [feedAll_init hsize, feedAll_init hsize, h]

theorem feed_chunking_halves :
    ((FrameParser.init 20).feedAll [(buildFrame 7 1 20).take 2, (buildFrame 7 1 20).drop 2]).1 =
      ((FrameParser.init 20).feedAll [buildFrame 7 1 20]).1 :=
  feed_chunking (by decide) (by decide)

end BleAtHost.StreamTest
