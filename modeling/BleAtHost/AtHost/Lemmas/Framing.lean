import BleAtHost.AtHost.Lemmas.Emits

/-!
# The framing of the byte stream

How the bytes divide into lines and payloads, without the commands themselves. `Frame` is where a stream stands;
it depends on the bytes alone, and the parser follows it (`frameOf_rxLoop`).
-/

namespace BleAtHost.AtHost

variable {σ : Type} (ops : Ops σ) (tx : Tx σ)

inductive Frame where
  | line (buffer : List Byte) (overflow : Bool)
  /-- After the line end of a good `AT+SEND`: line ends before the payload are passed over. -/
  | opened (expected : Nat)
  /-- In a payload; the line is the one that stood before it. -/
  | payload (buffer : List Byte) (overflow : Bool) (stored expected : Nat)
deriving DecidableEq, Repr

def Frame.store (buffer : List Byte) (overflow : Bool) (stored expected : Nat) : Frame :=
  if stored + 1 = expected then .line buffer overflow else .payload buffer overflow (stored + 1) expected

def Frame.endLine (buffer : List Byte) (overflow : Bool) : Frame :=
  if overflow then .line [] false
  else
    match sendRequest (cString buffer) with
    | some (_, expected) => .opened expected
    | none => .line [] false

def Frame.next : Frame → Byte → Frame
  | .line buffer overflow, ch =>
      if isLineEnd ch then .endLine buffer overflow
      else if LINE_BUFFER_SIZE - 1 ≤ buffer.length then .line buffer true
      else .line (buffer ++ [ch]) overflow
  | .opened expected, ch => if isLineEnd ch then .opened expected else .store [] false 0 expected
  | .payload buffer overflow stored expected, _ => .store buffer overflow stored expected

/-- Where the stream stands for the parser between two reads. -/
def Frame.start (host : State) : Frame :=
  if host.payloadMode then
    .payload host.lineBuffer host.lineOverflow host.payloadBuffer.length host.payloadExpected
  else .line host.lineBuffer host.lineOverflow

/-- Where the stream stands after more bytes of one read. -/
def Frame.after (host : State) (data : List Byte) : Frame := data.foldl Frame.next (.start host)

/-- The next read would begin with a line end that this read would have passed over. -/
def CutAfterSend (host : State) (a b : List Byte) : Prop :=
  (∃ expected, Frame.after host a = .opened expected) ∧ ∃ ch ∈ b.head?, isLineEnd ch = true

/-! ## The parser follows the framing -/

/-- What the local flag of `at_host_rx_bytes` means when it is set. -/
def SkipSound (skip : Bool) (host : State) : Prop :=
  skip = true → host.payloadMode = true ∧ host.payloadBuffer = [] ∧ 0 < host.payloadExpected ∧
    host.lineBuffer = [] ∧ host.lineOverflow = false

def frameOf (skip : Bool) (host : State) : Frame :=
  if skip then .opened host.payloadExpected else .start host

theorem payloadByte_host (w : World σ) (ch : Byte) :
    (payloadByte ops tx w ch).host =
      if w.host.payloadBuffer.length + 1 = w.host.payloadExpected then
        { w.host with payloadMode := false, payloadExpected := 0, payloadBuffer := [] }
      else { w.host with payloadBuffer := w.host.payloadBuffer ++ [ch] } := by
  simp only [payloadByte, List.length_append, List.length_singleton]
  split
  · exact (Emits.respond tx _ _).host
  · rfl

theorem start_payloadByte {w : World σ} (hm : w.host.payloadMode = true) (ch : Byte) :
    Frame.start (payloadByte ops tx w ch).host =
      .store w.host.lineBuffer w.host.lineOverflow w.host.payloadBuffer.length w.host.payloadExpected := by
  rw [payloadByte_host ops tx]
  unfold Frame.store
  split
  · rfl
  · simp [Frame.start, hm]

theorem endOfLine_frame {w : World σ} (hm : w.host.payloadMode = false) :
    let p := endOfLine ops tx false w
    SkipSound p.1 p.2.host ∧ frameOf p.1 p.2.host = .endLine w.host.lineBuffer w.host.lineOverflow := by
  unfold Frame.endLine
  cases ho : w.host.lineOverflow with
  | true => simp [endOfLine, ho, SkipSound, frameOf, Frame.start, hm, emitError, txLine]
  | false =>
      by_cases hl : w.host.lineBuffer = []
      · have hreq : sendRequest (cString []) = none := by decide
        simp [endOfLine, ho, hl, SkipSound, frameOf, Frame.start, hm, hreq]
      · have hpos : 0 < w.host.lineBuffer.length := List.length_pos_iff.mpr hl
        cases hreq : sendRequest (cString w.host.lineBuffer) with
        | none =>
            obtain ⟨hr, hw⟩ := processCommand_none ops tx w hreq
            simp [endOfLine, ho, hpos, hr, SkipSound, frameOf, Frame.start, hw.host, hm]
        | some request =>
            obtain ⟨connIndex, length⟩ := request
            have hlen := sendRequest_pos hreq
            simp [endOfLine, ho, hpos, processCommand_some ops tx w hreq, SkipSound, frameOf, txRaw, State.opened,
              hlen]

theorem SkipSound.unset (host : State) : SkipSound false host := fun h => by cases h

/-! One lemma for each kind of byte. -/

theorem rxByte_skipped {w : World σ} {ch : Byte} (hm : w.host.payloadMode = true) (hb : w.host.payloadBuffer = [])
    (he : isLineEnd ch = true) : rxByte ops tx (true, w) ch = (true, w) := by
  simp [rxByte, hm, hb, he]

theorem rxByte_payload (skip : Bool) {w : World σ} {ch : Byte} (hm : w.host.payloadMode = true)
    (h : skip = true → isLineEnd ch = false) : rxByte ops tx (skip, w) ch = (false, payloadByte ops tx w ch) := by
  cases skip with
  | false => simp [rxByte, hm]
  | true => simp [rxByte, hm, h rfl]

theorem rxByte_lineEnd {skip : Bool} {w : World σ} {ch : Byte} (hm : w.host.payloadMode = false)
    (he : isLineEnd ch = true) : rxByte ops tx (skip, w) ch = endOfLine ops tx skip w := by
  simp [rxByte, hm, he]

theorem rxByte_frame {skip : Bool} {w : World σ} (hs : SkipSound skip w.host) (ch : Byte) :
    let p := rxByte ops tx (skip, w) ch
    SkipSound p.1 p.2.host ∧ frameOf p.1 p.2.host = (frameOf skip w.host).next ch := by
  cases hm : w.host.payloadMode with
  | true =>
      have hstart := start_payloadByte ops tx hm ch
      cases skip with
      | true =>
          obtain ⟨_, hbuf, _, hline, hover⟩ := hs rfl
          rw [hline, hover, hbuf] at hstart
          by_cases he : isLineEnd ch = true
          · rw [rxByte_skipped ops tx hm hbuf he]
            exact ⟨hs, by simp [frameOf, Frame.next, he]⟩
          · rw [rxByte_payload ops tx true hm fun _ => by simpa using he]
            exact ⟨.unset _, by simpa [frameOf, Frame.next, he] using hstart⟩
      | false =>
          rw [rxByte_payload ops tx false hm fun h => by cases h]
          exact ⟨.unset _, by simpa [frameOf, Frame.start, hm, Frame.next] using hstart⟩
  | false =>
      have hskip : skip = false := by
        cases skip with
        | false => rfl
        | true => exact absurd (hs rfl).1 (by simp [hm])
      subst hskip
      by_cases he : isLineEnd ch = true
      · have hframe := endOfLine_frame ops tx hm
        rw [rxByte_lineEnd ops tx hm he]
        refine ⟨hframe.1, hframe.2.trans ?_⟩
        simp [frameOf, Frame.start, hm, Frame.next, he]
      · by_cases hfull : LINE_BUFFER_SIZE - 1 ≤ w.host.lineBuffer.length
        · simp [rxByte, hfull, SkipSound, frameOf, Frame.start, hm, Frame.next, he]
        · simp [rxByte, hfull, SkipSound, frameOf, Frame.start, hm, Frame.next, he]

theorem rxLoop_frame {skip : Bool} {w : World σ} (hs : SkipSound skip w.host) (data : List Byte) :
    let p := rxLoop ops tx (skip, w) data
    SkipSound p.1 p.2.host ∧ frameOf p.1 p.2.host = data.foldl Frame.next (frameOf skip w.host) := by
  induction data generalizing skip w with
  | nil => exact ⟨hs, rfl⟩
  | cons ch data ih =>
      obtain ⟨hs', hnext⟩ := rxByte_frame ops tx hs ch
      have h := ih hs'
      rw [hnext] at h
      exact h

theorem start_ne_opened (host : State) (expected : Nat) : Frame.start host ≠ .opened expected := by
  unfold Frame.start
  split
  · exact fun h => by cases h
  · exact fun h => by cases h

/-- The flag is set after a read exactly where the framing stands between `AT+SEND` and its payload. -/
theorem skip_iff_opened (w : World σ) (data : List Byte) :
    (rxLoop ops tx (false, w) data).1 = true ↔ ∃ expected, Frame.after w.host data = .opened expected := by
  obtain ⟨_, hframe⟩ := rxLoop_frame ops tx (.unset w.host) data
  have hafter : frameOf _ _ = Frame.after w.host data := hframe
  rw [← hafter]
  cases hskip : (rxLoop ops tx (false, w) data).1 with
  | true => simp [frameOf]
  | false => simp [frameOf, start_ne_opened]

end BleAtHost.AtHost
