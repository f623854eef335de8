import Mathlib.Data.Nat.Digits.Lemmas
import BleAtHost.Lib.Windows
import BleAtHost.StreamTest.Frames

/-!
# What the frame parser reads

The parser reads what a scan of the whole stream reads, window by window. What it drops cannot begin a frame.
-/

namespace BleAtHost.StreamTest

variable {frameSize : Nat} {buffer rest : List Byte} {frames : List ParsedFrame}

/-! ## Frames -/

theorem validateFrame_some {window : List Byte} {frame : ParsedFrame} (h : validateFrame frameSize window = some frame) :
    window.length = frameSize ∧ FRAME_MAGIC <+: window := by
  unfold validateFrame at h
  dsimp only at h
  split at h
  · cases h
  · rename_i hlen
    split at h
    · cases h
    · rename_i hheader
      rw [not_or, not_not] at hheader
      refine ⟨not_not.mp hlen, ?_⟩
      rw [← hheader.1]
      exact List.take_prefix _ _

theorem validateFrame_fill {window : List Byte} {frame : ParsedFrame} (h : validateFrame frameSize window = some frame)
    {i : Nat} (hheader : HEADER_SIZE ≤ i) {byte : Byte} (hi : window[i]? = some byte) : byte = UInt8.ofNat frame.seq := by
  have hmem : byte ∈ window.drop HEADER_SIZE := by
    apply List.mem_of_getElem? (i := i - HEADER_SIZE)
    rw [List.getElem?_drop, Nat.add_sub_cancel' hheader]
    exact hi
  unfold validateFrame at h
  dsimp only at h
  split at h
  · cases h
  · split at h
    · cases h
    · split at h
      · cases h
      · rename_i hfill
        rw [Bool.not_eq_true, List.any_eq_false] at hfill
        cases h
        simpa using hfill byte hmem

theorem full_validateFrame (frameSize : Nat) : Windows.Full (validateFrame frameSize) frameSize :=
  fun _ _ h => (validateFrame_some h).1

/-- The frames that a scan of the stream reads. -/
def scan (frameSize : Nat) (stream : List Byte) : List ParsedFrame :=
  Windows.scan (validateFrame frameSize) frameSize 0 stream

/-- The loop of `feed` ends over this buffer with these frames and this buffer after it; one rule for each way
through the body. -/
inductive Ran (frameSize : Nat) : List Byte → List ParsedFrame → List Byte → Prop
  | short {buffer : List Byte} (hlen : buffer.length < HEADER_SIZE) : Ran frameSize buffer [] buffer
  | noMagic {buffer : List Byte} (hf : Splitter.find FRAME_MAGIC buffer = none) :
      Ran frameSize buffer [] (buffer.drop (buffer.length - (FRAME_MAGIC.length - 1)))
  | waiting {buffer : List Byte} {start : Nat} (hf : Splitter.find FRAME_MAGIC buffer = some start)
      (hlen : (buffer.drop start).length < frameSize) : Ran frameSize buffer [] (buffer.drop start)
  | invalid {buffer rest : List Byte} {frames : List ParsedFrame} {start : Nat}
      (hf : Splitter.find FRAME_MAGIC buffer = some start) (hlen : frameSize ≤ (buffer.drop start).length)
      (hv : validateFrame frameSize ((buffer.drop start).take frameSize) = none)
      (next : Ran frameSize ((buffer.drop start).drop 1) frames rest) : Ran frameSize buffer frames rest
  | frame {buffer rest : List Byte} {frames : List ParsedFrame} {start : Nat} {frame : ParsedFrame}
      (hf : Splitter.find FRAME_MAGIC buffer = some start) (hlen : frameSize ≤ (buffer.drop start).length)
      (hv : validateFrame frameSize ((buffer.drop start).take frameSize) = some frame)
      (next : Ran frameSize ((buffer.drop start).drop frameSize) frames rest) :
      Ran frameSize buffer (frame :: frames) rest

/-- Every pass but the last shortens the buffer. -/
theorem ran_feedLoop (hsize : HEADER_SIZE ≤ frameSize) {passes : Nat} (hp : buffer.length < passes) :
    Ran frameSize buffer (feedLoop frameSize passes buffer).1 (feedLoop frameSize passes buffer).2 := by
  have hheader : 0 < HEADER_SIZE := by decide
  induction passes generalizing buffer with
  | zero => omega
  | succ passes ih =>
      rw [feedLoop]
      split
      · rename_i hlen
        exact .short hlen
      · rename_i hlen
        cases hf : Splitter.find FRAME_MAGIC buffer with
        | none => exact .noMagic hf
        | some start =>
            dsimp only
            split
            · rename_i hwait
              exact .waiting hf hwait
            · rename_i hwhole
              have hle := Nat.not_lt.mp hwhole
              rw [List.length_drop] at hle
              cases hv : validateFrame frameSize ((buffer.drop start).take frameSize) with
              | none =>
                  apply Ran.invalid hf (Nat.not_lt.mp hwhole) hv
                  apply ih
                  rw [List.length_drop, List.length_drop]
                  omega
              | some frame =>
                  apply Ran.frame hf (Nat.not_lt.mp hwhole) hv
                  apply ih
                  rw [List.length_drop, List.length_drop]
                  omega

/-- No frame begins before the first magic. -/
theorem no_frame_before {start k : Nat} (hf : Splitter.find FRAME_MAGIC buffer = some start) (hk : k < start)
    (more : List Byte) : validateFrame frameSize (((buffer ++ more).drop k).take frameSize) = none := by
  cases hv : validateFrame frameSize (((buffer ++ more).drop k).take frameSize) with
  | none => rfl
  | some frame =>
      obtain ⟨-, hmagic⟩ := validateFrame_some hv
      obtain ⟨-, hle⟩ := Splitter.find_eq_some hf |>.choose_spec
      have hfirst := (Splitter.find_first hf).append more
      have hocc : (buffer ++ more).take k ++ FRAME_MAGIC <+: buffer ++ more := by
        have hpre := (List.prefix_append_right_inj ((buffer ++ more).take k)).mpr (hmagic.trans (List.take_prefix _ _))
        rwa [List.take_append_drop] at hpre
      have hearly := hfirst.first _ hocc
      rw [List.length_take, List.length_take] at hearly
      omega

/-- Without a magic only the last bytes may begin a frame. -/
theorem no_frame_without {k : Nat} (hf : Splitter.find FRAME_MAGIC buffer = none)
    (hk : k < buffer.length - (FRAME_MAGIC.length - 1)) (more : List Byte) :
    validateFrame frameSize (((buffer ++ more).drop k).take frameSize) = none := by
  cases hv : validateFrame frameSize (((buffer ++ more).drop k).take frameSize) with
  | none => rfl
  | some frame =>
      exfalso
      obtain ⟨-, hmagic⟩ := validateFrame_some hv
      have hmagicLen : FRAME_MAGIC.length = 4 := rfl
      -- it would lie in the buffer
      have hinside : FRAME_MAGIC <+: buffer.drop k := by
        apply List.prefix_of_prefix_length_le (hmagic.trans (List.take_prefix _ _))
        · rw [List.drop_append_of_le_length (by omega)]
          exact List.prefix_append _ _
        · rw [List.length_drop]
          omega
      exact Splitter.find_eq_none.mp hf (hinside.isInfix.trans (List.drop_suffix _ _).isInfix)

/-- The loop gives the frames of a scan, and what it keeps of the buffer is enough to go on. -/
theorem Ran.scan (hsize : HEADER_SIZE ≤ frameSize) (h : Ran frameSize buffer frames rest) :
    scan frameSize rest = [] ∧ ∀ more, scan frameSize (buffer ++ more) = frames ++ scan frameSize (rest ++ more) := by
  have hpos : 0 < frameSize := Nat.lt_of_lt_of_le (by decide) hsize
  have hshort : ∀ rest : List Byte, rest.length < frameSize → StreamTest.scan frameSize rest = [] :=
    fun rest => Windows.scan_short (full_validateFrame frameSize)
  have hskip : ∀ {buffer : List Byte} {start : Nat}, Splitter.find FRAME_MAGIC buffer = some start →
      ∀ more, StreamTest.scan frameSize (buffer ++ more) = StreamTest.scan frameSize (buffer.drop start ++ more) := by
    intro buffer start hf more
    obtain ⟨-, hle⟩ := Splitter.find_eq_some hf |>.choose_spec
    rw [← List.drop_append_of_le_length hle]
    exact Windows.scan_drop fun k hk => no_frame_before hf hk more
  induction h with
  | short hlen => exact ⟨hshort _ (by omega), fun more => rfl⟩
  | @noMagic buffer hf =>
      have hmagicLen : FRAME_MAGIC.length = 4 := rfl
      have hheader : HEADER_SIZE = 14 := rfl
      refine ⟨hshort _ ?_, fun more => ?_⟩
      · rw [List.length_drop]
        omega
      · rw [List.nil_append, ← List.drop_append_of_le_length (Nat.sub_le _ _)]
        exact Windows.scan_drop fun k hk => no_frame_without hf hk more
  | waiting hf hlen => exact ⟨hshort _ hlen, hskip hf⟩
  | @invalid buffer rest frames start hf hlen hv next ih =>
      obtain ⟨hrest, hscan⟩ := ih
      refine ⟨hrest, fun more => ?_⟩
      have htake : (buffer.drop start ++ more).take frameSize = (buffer.drop start).take frameSize :=
        List.take_append_of_le_length hlen
      rw [hskip hf more, ← hscan more, ← List.drop_append_of_le_length (Nat.le_trans hpos hlen)]
      apply Windows.scan_drop
      intro k hk
      rw [Nat.lt_one_iff.mp hk, List.drop_zero, htake]
      exact hv
  | @frame buffer rest frames start frame hf hlen hv next ih =>
      obtain ⟨hrest, hscan⟩ := ih
      refine ⟨hrest, fun more => ?_⟩
      have htake : (buffer.drop start ++ more).take frameSize = (buffer.drop start).take frameSize :=
        List.take_append_of_le_length hlen
      rw [hskip hf more, List.cons_append, ← hscan more, ← List.drop_append_of_le_length hlen]
      exact Windows.scan_some (full_validateFrame frameSize) hpos (htake ▸ hv)

theorem scan_feed {p : FrameParser} (hsize : HEADER_SIZE ≤ p.frameSize) (chunk : List Byte) :
    scan p.frameSize (p.feed chunk).2.buffer = [] ∧
      ∀ more, scan p.frameSize (p.buffer ++ chunk ++ more) =
        (p.feed chunk).1 ++ scan p.frameSize ((p.feed chunk).2.buffer ++ more) :=
  (ran_feedLoop hsize (Nat.lt_succ_self _)).scan hsize

/-- However the stream is cut, the parser gives the frames of the scan. -/
theorem feedAll_eq_scan {p : FrameParser} (hsize : HEADER_SIZE ≤ p.frameSize) (hp : scan p.frameSize p.buffer = [])
    (chunks : List (List Byte)) : (p.feedAll chunks).1 = scan p.frameSize (p.buffer ++ chunks.flatten) := by
  induction chunks generalizing p with
  | nil => rw [List.flatten_nil, List.append_nil, hp]; rfl
  | cons chunk chunks ih =>
      obtain ⟨hrest, hscan⟩ := scan_feed hsize chunk
      have hchunks := ih (p := (p.feed chunk).2) hsize hrest
      rw [List.flatten_cons, ← List.append_assoc, hscan]
      exact congrArg ((p.feed chunk).1 ++ ·) hchunks

theorem feedAll_init (hsize : HEADER_SIZE ≤ frameSize) (chunks : List (List Byte)) :
    ((FrameParser.init frameSize).feedAll chunks).1 = scan frameSize chunks.flatten :=
  feedAll_eq_scan (p := .init frameSize) hsize (Windows.scan_nil 0) chunks

/-! ## The frames that are sent -/

@[simp] theorem length_pack (size n : Nat) : (pack size n).length = size := by simp [pack]

theorem unpack_pack (size : Nat) {n : Nat} (h : n < 256 ^ size) : unpack (pack size n) = n := by
  have hdigits : ∀ size, Nat.ofDigits 256 ((List.range size).map fun i => n / 256 ^ i % 256) = n % 256 ^ size := by
    intro size
    induction size with
    | zero => simp [Nat.mod_one]
    | succ size ih =>
        rw [List.range_succ, List.map_append, Nat.ofDigits_append, ih, List.length_map, List.length_range,
          List.map_singleton, Nat.ofDigits_singleton, Nat.mod_pow_succ]
  have hbytes : (pack size n).map UInt8.toNat = (List.range size).map fun i => n / 256 ^ i % 256 := by
    rw [pack, List.map_map]
    apply List.map_congr_left
    intro i _
    exact UInt8.toNat_ofNat'
  rw [unpack, hbytes, hdigits, Nat.mod_eq_of_lt h]

/-- The fields of a frame, one behind the other. -/
theorem buildFrame_eq (seq txMs frameSize : Nat) :
    buildFrame seq txMs frameSize = FRAME_MAGIC ++ (pack 4 seq ++ (pack 4 txMs ++ (pack 2 frameSize ++
      List.replicate (frameSize - HEADER_SIZE) (UInt8.ofNat seq)))) := by
  simp [buildFrame, FRAME_MAGIC, ascii, HEADER_SIZE]

theorem length_buildFrame (hsize : HEADER_SIZE ≤ frameSize) (seq txMs : Nat) :
    (buildFrame seq txMs frameSize).length = frameSize := by
  have hheader : HEADER_SIZE = 14 := rfl
  have hmagic : FRAME_MAGIC.length = 4 := rfl
  rw [buildFrame_eq]
  simp only [List.length_append, length_pack, List.length_replicate, hmagic]
  omega

/-- A frame that was sent is valid. -/
theorem validateFrame_buildFrame (hsize : HEADER_SIZE ≤ frameSize) (hshort : frameSize < 2 ^ 16) {seq txMs : Nat}
    (hseq : seq < 2 ^ 32) (htx : txMs < 2 ^ 32) :
    validateFrame frameSize (buildFrame seq txMs frameSize) = some ⟨seq, txMs, frameSize⟩ := by
  have hmagic : FRAME_MAGIC.length = 4 := rfl
  have hlen := length_buildFrame hsize seq txMs
  have hframe := buildFrame_eq seq txMs frameSize
  generalize buildFrame seq txMs frameSize = frame at hlen hframe
  have htake4 : frame.take 4 = FRAME_MAGIC := by rw [hframe, List.take_left' hmagic]
  have hdrop4 : frame.drop 4 = pack 4 seq ++ (pack 4 txMs ++ (pack 2 frameSize ++
      List.replicate (frameSize - HEADER_SIZE) (UInt8.ofNat seq))) := by rw [hframe, List.drop_left' hmagic]
  have hdrop8 : frame.drop 8 = pack 4 txMs ++ (pack 2 frameSize ++
      List.replicate (frameSize - HEADER_SIZE) (UInt8.ofNat seq)) := by
    rw [← List.drop_drop (i := 4) (j := 4), hdrop4, List.drop_left' (length_pack 4 seq)]
  have hdrop12 : frame.drop 12 = pack 2 frameSize ++
      List.replicate (frameSize - HEADER_SIZE) (UInt8.ofNat seq) := by
    rw [← List.drop_drop (i := 4) (j := 8), hdrop8, List.drop_left' (length_pack 4 txMs)]
  have hdrop14 : frame.drop HEADER_SIZE = List.replicate (frameSize - HEADER_SIZE) (UInt8.ofNat seq) := by
    have hheader : frame.drop HEADER_SIZE = (frame.drop 12).drop 2 :=
      (List.drop_drop (i := 2) (j := 12) (l := frame)).symm
    rw [hheader, hdrop12, List.drop_left' (length_pack 2 frameSize)]
  have hfill : ((List.replicate (frameSize - HEADER_SIZE) (UInt8.ofNat seq)).any
      (fun byte => decide (byte ≠ UInt8.ofNat seq))) = false := by
    rw [List.any_eq_false]
    intro byte hbyte
    simp [List.eq_of_mem_replicate hbyte]
  simp only [validateFrame, hlen, htake4, hdrop4, hdrop8, hdrop12, hdrop14, List.take_left' (length_pack _ _),
    unpack_pack 4 hseq, unpack_pack 4 htx, unpack_pack 2 hshort, hfill]
  simp

end BleAtHost.StreamTest
