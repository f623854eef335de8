import BleAtHost.StreamTest.Lemmas.Frames

/-!
# Intact frames between damaged ones

A frame that lost bytes may read as a valid frame together with the beginning of the next one. If it does not, every
intact frame comes out.
-/

namespace BleAtHost.StreamTest

/-- What `build_frame` is called with. -/
structure Sent where
  seq : Nat
  txMs : Nat
  seq_lt : seq < 2 ^ 32
  txMs_lt : txMs < 2 ^ 32

namespace Sent

def bytes (frame : Sent) (frameSize : Nat) : List Byte := buildFrame frame.seq frame.txMs frameSize

def parsed (frame : Sent) (frameSize : Nat) : ParsedFrame := ⟨frame.seq, frame.txMs, frameSize⟩

end Sent

/-- What arrives of a frame. -/
inductive Piece (frameSize : Nat) where
  | intact (frame : Sent)
  | damaged (frame : Sent) (left : List Byte) (sublist : left.Sublist (frame.bytes frameSize))

namespace Piece

variable {frameSize : Nat}

def bytes : Piece frameSize → List Byte
  | intact frame => frame.bytes frameSize
  | damaged _ left _ => left

def intact? : Piece frameSize → Option ParsedFrame
  | intact frame => some (frame.parsed frameSize)
  | damaged _ _ _ => none

end Piece

variable {frameSize : Nat} {pieces run : List (Piece frameSize)} {frame : Sent}

def stream (pieces : List (Piece frameSize)) : List Byte := (pieces.map Piece.bytes).flatten

/-- Every intact frame comes out, in order, wherever the stream is cut. -/
def Recovers (pieces : List (Piece frameSize)) : Prop :=
  ∀ chunks, chunks.flatten = stream pieces →
    (pieces.filterMap Piece.intact?).Sublist ((FrameParser.init frameSize).feedAll chunks).1

/-- A run of damaged frames stands in front of an intact one. -/
def Precedes (pieces run : List (Piece frameSize)) (frame : Sent) : Prop :=
  ∃ before after, pieces = before ++ run ++ .intact frame :: after ∧ ∀ piece ∈ run, piece.intact? = none

/-- No valid frame can be read that begins in damaged bytes and ends inside the intact frame behind them. -/
def Apart (pieces : List (Piece frameSize)) : Prop :=
  ∀ run frame, Precedes pieces run frame → ∀ k < (stream run).length, (stream run).length < k + frameSize →
    validateFrame frameSize (((stream run ++ frame.bytes frameSize).drop k).take frameSize) = none

/-- The bytes end in a frame that is filled with `B` and lacks its last byte. -/
def EndsShort (frameSize : Nat) (bytes : List Byte) : Prop :=
  ∃ front short, bytes = front ++ short ∧ (validateFrame frameSize (short ++ [66])).isSome

/-! ## Reading on -/

theorem scan_intact (hsize : HEADER_SIZE ≤ frameSize) (hshort : frameSize < 2 ^ 16) (frame : Sent)
    (rest : List Byte) :
    scan frameSize (frame.bytes frameSize ++ rest) = frame.parsed frameSize :: scan frameSize rest := by
  have hlen : (frame.bytes frameSize).length = frameSize := length_buildFrame hsize _ _
  have hvalid : validateFrame frameSize ((frame.bytes frameSize ++ rest).take frameSize) =
      some (frame.parsed frameSize) := by
    rw [List.take_left' hlen]
    exact validateFrame_buildFrame hsize hshort frame.seq_lt frame.txMs_lt
  have hpos : 0 < frameSize := Nat.lt_of_lt_of_le (by decide) hsize
  rw [scan, Windows.scan_some (full_validateFrame frameSize) hpos hvalid, List.drop_left' hlen]
  rfl

/-- The damaged bytes in front of an intact frame do not keep the scan from it. -/
theorem scan_run (hsize : HEADER_SIZE ≤ frameSize) (hshort : frameSize < 2 ^ 16)
    (hrun : ∀ k < (stream run).length, (stream run).length < k + frameSize →
      validateFrame frameSize (((stream run ++ frame.bytes frameSize).drop k).take frameSize) = none)
    (rest : List Byte) :
    ∃ out, scan frameSize (stream run ++ (frame.bytes frameSize ++ rest)) =
      out ++ frame.parsed frameSize :: scan frameSize rest := by
  have hpos : 0 < frameSize := Nat.lt_of_lt_of_le (by decide) hsize
  have hlen : (frame.bytes frameSize).length = frameSize := length_buildFrame hsize _ _
  obtain ⟨out, hout⟩ := Windows.scan_border (full_validateFrame frameSize) hpos
    (stream run) (frame.bytes frameSize ++ rest) (fun k hk hcross => by
      have hwindow : ((stream run ++ (frame.bytes frameSize ++ rest)).drop k).take frameSize =
          ((stream run ++ frame.bytes frameSize).drop k).take frameSize := by
        rw [← List.append_assoc, List.drop_append_of_le_length (by rw [List.length_append]; omega)]
        apply List.take_append_of_le_length
        rw [List.length_drop, List.length_append]
        omega
      rw [hwindow]
      exact hrun k hk hcross)
  refine ⟨out, ?_⟩
  rw [← scan_intact hsize hshort frame rest]
  exact hout

/-- The pieces behind a run of damaged ones. -/
theorem scan_pieces (run : List (Piece frameSize)) (hsize : HEADER_SIZE ≤ frameSize) (hshort : frameSize < 2 ^ 16)
    (hrun : ∀ piece ∈ run, piece.intact? = none) (h : Apart (run ++ pieces)) :
    (pieces.filterMap Piece.intact?).Sublist (scan frameSize (stream (run ++ pieces))) := by
  induction pieces generalizing run with
  | nil => exact List.nil_sublist _
  | cons piece pieces ih =>
      cases piece with
      | damaged frame left sublist =>
          have hlonger : ∀ piece ∈ run ++ [.damaged frame left sublist], piece.intact? = none := by
            intro piece hpiece
            rcases List.mem_append.mp hpiece with hmem | hmem
            · exact hrun piece hmem
            · rw [List.mem_singleton.mp hmem]
              rfl
          have hpieces : run ++ .damaged frame left sublist :: pieces =
              (run ++ [.damaged frame left sublist]) ++ pieces := by simp
          rw [hpieces] at h ⊢
          exact ih _ hlonger h
      | intact frame =>
          obtain ⟨out, hout⟩ := scan_run hsize hshort (h run frame ⟨[], pieces, rfl, hrun⟩) (stream pieces)
          have hrest : Apart ([] ++ pieces) := by
            rintro run' frame' ⟨before, after, hpieces, hdamaged⟩
            refine h run' frame' ⟨run ++ .intact frame :: before, after, ?_, hdamaged⟩
            rw [← List.nil_append pieces, hpieces]
            simp
          have hstream : stream (run ++ .intact frame :: pieces) =
              stream run ++ (frame.bytes frameSize ++ stream pieces) := by simp [stream, Piece.bytes]
          rw [hstream, hout]
          exact ((ih [] (by simp) hrest).cons_cons _).trans (List.sublist_append_right _ _)

/-! ## When a valid frame can be read across a border -/

/-- The bytes of a frame that tell it from the payload of another one. -/
theorem getElem?_bytes (frame : Sent) (frameSize : Nat) :
    (frame.bytes frameSize)[0]? = some 66 ∧ (frame.bytes frameSize)[1]? = some 65 ∧
      (frame.bytes frameSize)[12]? = some (UInt8.ofNat frameSize) ∧
      (frame.bytes frameSize)[13]? = some (UInt8.ofNat (frameSize / 256)) := by
  rw [Sent.bytes, buildFrame_eq]
  refine ⟨rfl, rfl, ?_, rfl⟩
  have hlow : frameSize / 256 ^ 0 = frameSize := Nat.div_one _
  simp [FRAME_MAGIC, ascii, pack, List.range_succ]

/-- Across the border a valid frame takes one byte of the next frame only. -/
theorem crossing {front : List Byte} {k : Nat} {parsed : ParsedFrame} (hlen : 27 ≤ frameSize)
    (hshort : frameSize < 2 ^ 16) (hdiff : frameSize % 256 ≠ frameSize / 256) (frame : Sent)
    (hk : k < front.length) (hcross : front.length < k + frameSize)
    (h : validateFrame frameSize (((front ++ frame.bytes frameSize).drop k).take frameSize) = some parsed) :
    front.length + 1 = k + frameSize := by
  obtain ⟨h0, h1, h12, h13⟩ := getElem?_bytes frame frameSize
  have hwindow : ∀ i, i < frameSize → front.length ≤ k + i →
      (((front ++ frame.bytes frameSize).drop k).take frameSize)[i]? =
        (frame.bytes frameSize)[k + i - front.length]? := by
    intro i hi hborder
    rw [List.getElem?_take_of_lt hi, List.getElem?_drop, List.getElem?_append_right hborder]
  have hfill : ∀ i byte, HEADER_SIZE ≤ i → i < frameSize → front.length ≤ k + i →
      (frame.bytes frameSize)[k + i - front.length]? = some byte → byte = UInt8.ofNat parsed.seq := by
    intro i byte hheader hi hborder hbyte
    exact validateFrame_fill h hheader ((hwindow i hi hborder).trans hbyte)
  have hheaderSize : HEADER_SIZE = 14 := rfl
  by_cases hpayload : k + HEADER_SIZE ≤ front.length
  · -- the magic of the next frame stands in the payload
    by_contra hne
    have hfirst := hfill (front.length - k) 66 (by omega) (by omega) (by omega) (by
      rw [Nat.add_sub_cancel' (Nat.le_of_lt hk), Nat.sub_self]
      exact h0)
    have hsecond := hfill (front.length - k + 1) 65 (by omega) (by omega) (by omega) (by
      have hone : k + (front.length - k + 1) - front.length = 1 := by omega
      rw [hone]
      exact h1)
    rw [← hfirst] at hsecond
    cases hsecond
  · by_cases hmagic : k + 1 = front.length
    · -- the second byte of the magic would be the first one of the next
      obtain ⟨-, rest, hrest⟩ := validateFrame_some h
      have hsecond := hwindow 1 (by omega) (by omega)
      have hzero : k + 1 - front.length = 0 := by omega
      rw [hzero, h0, ← hrest] at hsecond
      cases hsecond
    · -- the length of the next frame stands in the payload
      exfalso
      have hlow := hfill (front.length - k + 12) _ (by omega) (by omega) (by omega) (by
        have h : k + (front.length - k + 12) - front.length = 12 := by omega
        rw [h]
        exact h12)
      have hhigh := hfill (front.length - k + 13) _ (by omega) (by omega) (by omega) (by
        have h : k + (front.length - k + 13) - front.length = 13 := by omega
        rw [h]
        exact h13)
      have hbytes := congrArg UInt8.toNat (hlow.trans hhigh.symm)
      rw [UInt8.toNat_ofNat', UInt8.toNat_ofNat'] at hbytes
      omega

/-- A window that ends behind the first byte of the next frame. -/
theorem window_one (front rest : List Byte) {short : List Byte} (byte : Byte) (h : short.length + 1 = frameSize) :
    ((front ++ short ++ byte :: rest).drop front.length).take frameSize = short ++ [byte] := by
  have hlen : (short ++ [byte]).length = frameSize := by rw [List.length_append, List.length_singleton, h]
  have hcons : short ++ byte :: rest = short ++ [byte] ++ rest := List.append_cons ..
  rw [List.append_assoc, List.drop_left, hcons, List.take_left' hlen]

/-- For all sizes but the shortest and those with two equal bytes of length. -/
theorem apart_iff (hlen : 27 ≤ frameSize) (hshort : frameSize < 2 ^ 16) (hdiff : frameSize % 256 ≠ frameSize / 256)
    (pieces : List (Piece frameSize)) :
    Apart pieces ↔ ∀ run frame, Precedes pieces run frame → ¬EndsShort frameSize (stream run) := by
  constructor
  · rintro h run frame hrun ⟨front, short, hbytes, hvalid⟩
    obtain ⟨parsed, hparsed⟩ := Option.isSome_iff_exists.mp hvalid
    have hsize := (validateFrame_some hparsed).1
    rw [List.length_append, List.length_singleton] at hsize
    have hnone := h run frame hrun front.length
      (by rw [hbytes, List.length_append]; omega) (by rw [hbytes, List.length_append]; omega)
    obtain ⟨rest, hrest⟩ : ∃ rest, frame.bytes frameSize = 66 :: rest := ⟨_, rfl⟩
    rw [hbytes, hrest, window_one front rest 66 hsize, hparsed] at hnone
    cases hnone
  · intro h run frame hrun k hk hcross
    cases hv : validateFrame frameSize (((stream run ++ frame.bytes frameSize).drop k).take frameSize) with
    | none => rfl
    | some parsed =>
        exfalso
        have hborder := crossing hlen hshort hdiff frame hk hcross hv
        obtain ⟨rest, hrest⟩ : ∃ rest, frame.bytes frameSize = 66 :: rest := ⟨_, rfl⟩
        refine h run frame hrun ⟨(stream run).take k, (stream run).drop k, (List.take_append_drop _ _).symm, ?_⟩
        have hlast : ((stream run).drop k).length + 1 = frameSize := by
          rw [List.length_drop]
          omega
        have hwindow := window_one ((stream run).take k) rest 66 hlast
        rw [List.take_append_drop, List.length_take_of_le (Nat.le_of_lt hk), ← hrest] at hwindow
        rw [← hwindow, hv]
        rfl

/-- Every intact frame comes out, in order, if no valid frame can be read across its beginning. That takes damaged
bytes that end in a frame filled with `B` without its last byte, except for some sizes. -/
theorem intact_frames_recovered (hsize : HEADER_SIZE ≤ frameSize) (hshort : frameSize < 2 ^ 16)
    (pieces : List (Piece frameSize)) :
    (Apart pieces → Recovers pieces) ∧
      (27 ≤ frameSize → frameSize % 256 ≠ frameSize / 256 →
        (Apart pieces ↔ ∀ run frame, Precedes pieces run frame → ¬EndsShort frameSize (stream run))) := by
  refine ⟨fun h chunks hchunks => ?_, fun hlen hdiff => apart_iff hlen hshort hdiff pieces⟩
  rw [feedAll_init hsize, hchunks]
  exact scan_pieces [] hsize hshort (by simp) h

/-- The frames with the sequence numbers 66 and 67, the first without its last byte. -/
def shortThenIntact : List (Piece 20) :=
  [.damaged ⟨66, 0, by decide, by decide⟩ (buildFrame 66 0 20).dropLast (List.dropLast_sublist _),
    .intact ⟨67, 0, by decide, by decide⟩]

/-- The short frame takes the first byte of the intact one. -/
theorem intact_frame_lost :
    ¬Recovers shortThenIntact ∧
      ((FrameParser.init 20).feedAll [stream shortThenIntact]).1 = [⟨66, 0, 20⟩] := by
  have hframes : ((FrameParser.init 20).feedAll [stream shortThenIntact]).1 = [⟨66, 0, 20⟩] := by decide
  refine ⟨fun h => ?_, hframes⟩
  have hall := h [stream shortThenIntact] (List.append_nil _)
  rw [hframes] at hall
  exact absurd hall (by decide)

/-- The frame with the sequence number 65 does no harm without its last byte. -/
def harmlessThenIntact : List (Piece 20) :=
  [.damaged ⟨65, 0, by decide, by decide⟩ (buildFrame 65 0 20).dropLast (List.dropLast_sublist _),
    .intact ⟨67, 0, by decide, by decide⟩]

theorem intact_frames_recovered_harmless : Recovers harmlessThenIntact := by
  apply (intact_frames_recovered (by decide) (by decide) harmlessThenIntact).1
  rintro run frame ⟨before, after, hpieces, hdamaged⟩
  -- the run is empty or the damaged frame
  cases before with
  | cons piece before =>
      obtain ⟨-, hrest⟩ := List.cons.inj hpieces
      have hempty : stream run = [] := by
        cases run with
        | nil => rfl
        | cons piece run =>
            have hlen := congrArg List.length hrest
            simp at hlen
            omega
      intro k hk
      rw [hempty] at hk
      cases hk
  | nil =>
      cases run with
      | nil => cases hpieces
      | cons piece run =>
          obtain ⟨rfl, hrest⟩ := List.cons.inj hpieces
          cases run with
          | cons piece run =>
              have hlen := congrArg List.length hrest
              simp at hlen
          | nil =>
              obtain ⟨hframe, -⟩ := List.cons.inj hrest
              cases hframe
              decide

end BleAtHost.StreamTest
