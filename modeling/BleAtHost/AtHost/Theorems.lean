import Mathlib.Data.List.TakeWhile
import BleAtHost.AtHost.Lemmas.Framing
import BleAtHost.AtHost.Lemmas.Payload

/-!
# Cuts of the byte stream

`at_host_rx_bytes` is called with what one read of the UART returned. Reading `a` and then `b` comes to the same as
reading `a ++ b`, except where the cut stands between `AT+SEND` and further line ends: the flag by which these are
passed over is a local variable of the call.
-/

namespace BleAtHost.AtHost

variable {σ : Type}

/-- The same calls were made, output included, and the parser is in the same state. -/
def World.Same (w w' : World σ) : Prop := w.trace = w'.trace ∧ w.host = w'.host

section
variable (ops : Ops σ) (tx : Tx σ) {w : World σ}

/-- The flag makes no difference to bytes that do not begin with a line end. -/
theorem rxLoop_skip_irrelevant (hm : w.host.payloadMode = true) {data : List Byte}
    (hd : ∀ ch ∈ data.head?, isLineEnd ch = false) :
    (rxLoop ops tx (true, w) data).2 = (rxLoop ops tx (false, w) data).2 := by
  cases data with
  | nil => rfl
  | cons ch data =>
      have he : isLineEnd ch = false := hd ch rfl
      have hset := rxByte_payload ops tx true hm fun _ => he
      have hunset := rxByte_payload ops tx false hm fun _ => he
      calc (rxLoop ops tx (true, w) (ch :: data)).2
          = (rxLoop ops tx (rxByte ops tx (true, w) ch) data).2 := rfl
        _ = (rxLoop ops tx (rxByte ops tx (false, w) ch) data).2 := by rw [hset, hunset]
        _ = (rxLoop ops tx (false, w) (ch :: data)).2 := rfl

/-- With the flag set, the line ends before the payload are passed over. -/
theorem rxLoop_skipped (hm : w.host.payloadMode = true) (hb : w.host.payloadBuffer = []) {ends : List Byte}
    (he : ∀ ch ∈ ends, isLineEnd ch = true) : rxLoop ops tx (true, w) ends = (true, w) := by
  induction ends with
  | nil => rfl
  | cons ch ends ih =>
      have hskip := rxByte_skipped ops tx hm hb (he ch List.mem_cons_self)
      calc rxLoop ops tx (true, w) (ch :: ends)
          = rxLoop ops tx (rxByte ops tx (true, w) ch) ends := rfl
        _ = rxLoop ops tx (true, w) ends := by rw [hskip]
        _ = (true, w) := ih fun ch' h => he ch' (List.mem_cons_of_mem _ h)

/-- An open payload tells apart bytes that begin with a line end and fewer bytes that do not. -/
theorem open_payload_distinguishes (hm : w.host.payloadMode = true) (hb : w.host.payloadBuffer = [])
    (hpos : 0 < w.host.payloadExpected) {ends rest : List Byte} (hne : ends ≠ [])
    (he : ∀ ch ∈ ends, isLineEnd ch = true) (hr : ∀ ch ∈ rest.head?, isLineEnd ch = false) :
    ¬ World.Same (rxLoop ops tx (false, w) (ends ++ rest)).2 (rxLoop ops tx (false, w) rest).2 := by
  rintro ⟨htrace, hhost⟩
  have hlen : rest.length < (ends ++ rest).length := by
    rw [List.length_append]
    have := List.length_pos_iff.mpr hne
    omega
  by_cases hlong : w.host.payloadExpected ≤ (ends ++ rest).length
  · have hsent := rxLoop_long ops tx hm hb hpos hlong
    by_cases hlong' : w.host.payloadExpected ≤ rest.length
    · -- both payloads are sent, and they differ in their first byte
      have hsent' := rxLoop_long ops tx hm hb hpos hlong'
      rw [← htrace] at hsent'
      have hcalls := (List.suffix_of_suffix_length_le hsent hsent' (by simp)).eq_of_length (by simp)
      have htake : (ends ++ rest).take w.host.payloadExpected = rest.take w.host.payloadExpected := by
        simpa using hcalls
      obtain ⟨end', ends', rfl⟩ := List.exists_cons_of_ne_nil hne
      obtain ⟨ch, rest', rfl⟩ := List.exists_cons_of_length_pos (Nat.lt_of_lt_of_le hpos hlong')
      obtain ⟨n, hn⟩ : ∃ n, w.host.payloadExpected = n + 1 := ⟨w.host.payloadExpected - 1, by omega⟩
      rw [hn] at htake
      have hhead : end' = ch := (List.cons.inj htake).1
      have hend := he end' List.mem_cons_self
      have hch := hr ch rfl
      rw [← hhead, hend] at hch
      cases hch
    · -- only one payload is sent
      have hshort := rxLoop_short ops tx hm hb _ (Nat.lt_of_not_le hlong')
      rw [htrace, hshort] at hsent
      have hle := hsent.length_le
      simp only [World.buffering, List.length_cons] at hle
      omega
  · -- none is sent, and one has stored more bytes
    have hshort := rxLoop_short ops tx hm hb _ (Nat.lt_of_not_le hlong)
    have hshort' := rxLoop_short ops tx hm hb _ (Nat.lt_trans hlen (Nat.lt_of_not_le hlong))
    rw [hshort, hshort'] at hhost
    have hbuf : ends ++ rest = rest := congrArg State.payloadBuffer hhost
    rw [hbuf] at hlen
    exact Nat.lt_irrefl _ hlen

end

/-- Two reads are one read exactly unless the cut stands between `AT+SEND` and a line end. -/
theorem rx_bytes_append (ops : Ops σ) (tx : Tx σ) (w : World σ) (a b : List Byte) :
    World.Same (atHostRxBytes ops tx (atHostRxBytes ops tx w a) b) (atHostRxBytes ops tx w (a ++ b)) ↔
      ¬ CutAfterSend w.host a b := by
  have hone : atHostRxBytes ops tx w (a ++ b) = (rxLoop ops tx (rxLoop ops tx (false, w) a) b).2 := by
    rw [← rxLoop_append ops tx]; rfl
  have htwo : atHostRxBytes ops tx (atHostRxBytes ops tx w a) b =
      (rxLoop ops tx (false, (rxLoop ops tx (false, w) a).2) b).2 := rfl
  have hopened := skip_iff_opened ops tx w a
  have hsound := (rxLoop_frame ops tx (.unset w.host) a).1
  rw [hone, htwo]
  rcases hmid : rxLoop ops tx (false, w) a with ⟨skip, mid⟩
  rw [hmid] at hopened hsound
  cases skip with
  | false =>
      -- the flag is not set where the cut is, and so both go on alike
      refine iff_of_true ⟨rfl, rfl⟩ fun hcut => ?_
      exact absurd (hopened.mpr hcut.1) (by simp)
  | true =>
      obtain ⟨hm, hb, hpos, _⟩ := hsound rfl
      have hopen := hopened.mp rfl
      by_cases hend : ∃ ch ∈ b.head?, isLineEnd ch = true
      · refine iff_of_false ?_ fun hcut => hcut ⟨hopen, hend⟩
        -- the line ends at the start of `b` and what follows them
        have hsplit : b.takeWhile isLineEnd ++ b.dropWhile isLineEnd = b := List.takeWhile_append_dropWhile
        have hends : ∀ ch ∈ b.takeWhile isLineEnd, isLineEnd ch = true := fun ch h => List.mem_takeWhile_imp h
        have hrest : ∀ ch ∈ (b.dropWhile isLineEnd).head?, isLineEnd ch = false := by
          intro ch h
          have hnot := List.head?_dropWhile_not isLineEnd b
          rw [Option.mem_def.mp h] at hnot
          exact hnot
        have hne : b.takeWhile isLineEnd ≠ [] := by
          obtain ⟨ch, hch, he⟩ := hend
          obtain ⟨b', rfl⟩ := List.head?_eq_some_iff.mp hch
          simp [he]
        have hskip : (rxLoop ops tx (true, mid) b).2 = (rxLoop ops tx (false, mid) (b.dropWhile isLineEnd)).2 := by
          conv => lhs; rw [← hsplit, rxLoop_append ops tx, rxLoop_skipped ops tx hm hb hends]
          exact rxLoop_skip_irrelevant ops tx hm hrest
        rw [hskip]
        conv => enter [1, 1]; rw [← hsplit]
        exact open_payload_distinguishes ops tx hm hb hpos hne hends hrest
      · refine iff_of_true ?_ fun hcut => hend hcut.2
        have heq : (rxLoop ops tx (true, mid) b).2 = (rxLoop ops tx (false, mid) b).2 := by
          refine rxLoop_skip_irrelevant ops tx hm fun ch hch => ?_
          have := fun he => hend ⟨ch, hch, he⟩
          simpa using this
        exact ⟨congrArg World.trace heq.symm, congrArg World.host heq.symm⟩

/-- An application that accepts everything. -/
def quietOps : Ops Unit where
  startScan s _ _ := (0, s)
  connect s _ _ := (0, s)
  disconnect s _ := (0, s)
  sendPayload s _ _ := (0, s)
  getStatus s := (⟨false, false, [], 0, 0⟩, s)
  getProfile s := (⟨[], [], []⟩, s)
  setProfile s _ _ _ := (0, s)
  setMtu s _ := (0, s)
  getMtu s := (23, s)
  requestMtu s _ := (0, s)
  setConnParams s _ _ _ _ _ := (0, s)
  enterDataMode s _ := (0, s)
  getStreamStats s := (⟨0, 0, 0, 0, 0, 0, 0, 0, 0⟩, s)

def quietTx : Tx Unit where
  line s _ := s
  raw s _ := s

/-- `AT+SEND=0,2\r\nhi`, cut before the line feed: the payload is the line feed and `h`. -/
theorem rx_bytes_cut_before_line_feed :
    let w : World Unit := ⟨.init, (), []⟩
    let a := ascii "AT+SEND=0,2\r"
    let b := ascii "\nhi"
    ¬ World.Same (atHostRxBytes quietOps quietTx (atHostRxBytes quietOps quietTx w a) b)
        (atHostRxBytes quietOps quietTx w (a ++ b)) ∧
      (.sendPayload 0 (ascii "\nh")) ∈ (atHostRxBytes quietOps quietTx (atHostRxBytes quietOps quietTx w a) b).trace ∧
      (.sendPayload 0 (ascii "hi")) ∈ (atHostRxBytes quietOps quietTx w (a ++ b)).trace := by
  refine ⟨fun h => ?_, by decide, by decide⟩
  have hbuffer := congrArg State.lineBuffer h.2
  revert hbuffer
  decide

end BleAtHost.AtHost
