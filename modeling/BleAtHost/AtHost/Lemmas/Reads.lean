import BleAtHost.Lib.Runs
import BleAtHost.AtHost.Lemmas.Framing
import BleAtHost.AtHost.Lemmas.Payload
import BleAtHost.AtHost.Lemmas.Replies

/-!
# Byte by byte

What one byte does to the parser and which calls it makes, whatever the operations answer, and the runs over the bytes
of any sequence of calls of `at_host_rx_bytes`.
-/

namespace BleAtHost.AtHost

variable {σ : Type} (ops : Ops σ) (tx : Tx σ)

/-- The parser at the start of a line. -/
def State.freshLine (host : State) : State := { host with lineBuffer := [], lineOverflow := false }

/-- Whether a byte of payload mode is passed over. -/
def PassedOver (skip : Bool) (host : State) (ch : Byte) : Prop :=
  skip = true ∧ host.payloadBuffer = [] ∧ isLineEnd ch = true

/-- One byte: the local flag, the state of the parser and the calls that it makes. -/
inductive ByteStep (skip : Bool) (host : State) (ch : Byte) : Bool → State → List Call → Prop
  | passed (hm : host.payloadMode = true) (hp : PassedOver skip host ch) : ByteStep skip host ch skip host []
  | stored (hm : host.payloadMode = true) (hp : ¬PassedOver skip host ch)
      (hlt : host.payloadBuffer.length + 1 ≠ host.payloadExpected) :
      ByteStep skip host ch false { host with payloadBuffer := host.payloadBuffer ++ [ch] } []
  | sent {calls : List Call} (hm : host.payloadMode = true) (hp : ¬PassedOver skip host ch)
      (heq : host.payloadBuffer.length + 1 = host.payloadExpected)
      (hr : Reply (· = .sendPayload host.payloadConnIndex (host.payloadBuffer ++ [ch])) calls) :
      ByteStep skip host ch false { host with payloadMode := false, payloadExpected := 0, payloadBuffer := [] } calls
  | overlong (hm : host.payloadMode = false) (he : isLineEnd ch = true) (ho : host.lineOverflow = true) :
      ByteStep skip host ch false host.freshLine [.line ErrorKind.invalidCommand.text]
  | blank (hm : host.payloadMode = false) (he : isLineEnd ch = true) (ho : host.lineOverflow = false)
      (hb : workingLine (cString host.lineBuffer) = []) : ByteStep skip host ch false host.freshLine []
  | opened {connIndex length : Nat} (hm : host.payloadMode = false) (he : isLineEnd ch = true)
      (ho : host.lineOverflow = false) (hreq : sendRequest (cString host.lineBuffer) = some (connIndex, length)) :
      ByteStep skip host ch true (host.opened connIndex length).freshLine [.raw (ascii ">")]
  | answered {calls : List Call} (hm : host.payloadMode = false) (he : isLineEnd ch = true)
      (ho : host.lineOverflow = false) (hreq : sendRequest (cString host.lineBuffer) = none)
      (hb : workingLine (cString host.lineBuffer) ≠ [])
      (hr : Reply (Asked (workingLine (cString host.lineBuffer))) calls) :
      ByteStep skip host ch false host.freshLine calls
  | full (hm : host.payloadMode = false) (he : isLineEnd ch = false)
      (hl : LINE_BUFFER_SIZE - 1 ≤ host.lineBuffer.length) :
      ByteStep skip host ch false { host with lineOverflow := true } []
  | char (hm : host.payloadMode = false) (he : isLineEnd ch = false)
      (hl : ¬LINE_BUFFER_SIZE - 1 ≤ host.lineBuffer.length) :
      ByteStep skip host ch false { host with lineBuffer := host.lineBuffer ++ [ch] } []

theorem sendRequest_none_of_blank {line : Text} (h : workingLine line = []) : sendRequest line = none := by
  simp only [sendRequest]
  change (if startsWithIgnoreCase (workingLine line) (ascii "AT+SEND=") = true then _ else none) = none
  rw [h]
  rfl

theorem processSendPayload_replies (w : World σ) {data : List Byte}
    (hd : w.host.payloadBuffer.take w.host.payloadExpected = data) :
    ∃ calls, Reply (· = .sendPayload w.host.payloadConnIndex data) calls ∧
      (processSendPayload ops tx w).host =
        { w.host with payloadMode := false, payloadExpected := 0, payloadBuffer := [] } ∧
      (processSendPayload ops tx w).trace = calls.reverse ++ w.trace ∧
      (processSendPayload ops tx w).ctx = effects ops tx calls w.ctx := by
  subst hd
  simp only [processSendPayload, World.called]
  have hreply : ∀ text : Text, isFinal text = true →
      Reply (· = .sendPayload w.host.payloadConnIndex (w.host.payloadBuffer.take w.host.payloadExpected))
        (.sendPayload w.host.payloadConnIndex (w.host.payloadBuffer.take w.host.payloadExpected) :: [text].map .line) :=
    fun text h => .after rfl rfl (by simp [signals, Call.signal, h])
  unfold respond
  split
  · exact ⟨_, hreply _ (isFinal_error _), rfl, rfl, rfl⟩
  · exact ⟨_, hreply (ascii "+OK") (by decide), rfl, rfl, rfl⟩

/-! ## The end of a line -/

section
variable {w : World σ}

theorem endOfLine_overlong (ho : w.host.lineOverflow = true) :
    endOfLine ops tx false w = (false, { emitError tx w .invalidCommand with host := w.host.freshLine }) := by
  simp [endOfLine, ho, State.freshLine, emitError, txLine]

theorem endOfLine_empty (ho : w.host.lineOverflow = false) (hl : w.host.lineBuffer = []) :
    endOfLine ops tx false w = (false, { w with host := w.host.freshLine }) := by
  simp [endOfLine, ho, hl, State.freshLine]

theorem endOfLine_command (ho : w.host.lineOverflow = false) (hl : w.host.lineBuffer ≠ []) :
    endOfLine ops tx false w =
      ((processCommand ops tx w (cString w.host.lineBuffer)).1 == .enterPayload,
        { (processCommand ops tx w (cString w.host.lineBuffer)).2 with
          host := (processCommand ops tx w (cString w.host.lineBuffer)).2.host.freshLine }) := by
  have hpos : 0 < w.host.lineBuffer.length := List.length_pos_iff.mpr hl
  simp [endOfLine, ho, hpos, State.freshLine]

theorem endOfLine_step {ch : Byte} (hm : w.host.payloadMode = false) (he : isLineEnd ch = true) :
    ∃ calls, ByteStep false w.host ch (endOfLine ops tx false w).1 (endOfLine ops tx false w).2.host calls ∧
      (endOfLine ops tx false w).2.trace = calls.reverse ++ w.trace ∧
      (endOfLine ops tx false w).2.ctx = effects ops tx calls w.ctx := by
  cases ho : w.host.lineOverflow with
  | true =>
      rw [endOfLine_overlong ops tx ho]
      exact ⟨_, .overlong hm he ho, rfl, rfl⟩
  | false =>
      by_cases hb : workingLine (cString w.host.lineBuffer) = []
      · by_cases hl : w.host.lineBuffer = []
        · rw [endOfLine_empty ops tx ho hl]
          exact ⟨_, .blank hm he ho hb, rfl, rfl⟩
        · rw [endOfLine_command ops tx ho hl, processCommand_blank ops tx w hb]
          exact ⟨_, .blank hm he ho hb, rfl, rfl⟩
      · have hl : w.host.lineBuffer ≠ [] := by
          intro hnil
          rw [hnil] at hb
          exact hb (by decide)
        rw [endOfLine_command ops tx ho hl]
        cases hreq : sendRequest (cString w.host.lineBuffer) with
        | none =>
            obtain ⟨hnone, calls, hmade, hreply⟩ := processCommand_answered ops tx w hreq hb
            rw [hnone, hmade.host]
            exact ⟨calls, .answered hm he ho hreq hb hreply, hmade.trace, hmade.ctx⟩
        | some request =>
            obtain ⟨connIndex, length⟩ := request
            rw [processCommand_some ops tx w hreq]
            exact ⟨_, .opened hm he ho hreq, rfl, rfl⟩

theorem rxByte_step {skip : Bool} (hs : SkipSound skip w.host) (ch : Byte) :
    ∃ calls, ByteStep skip w.host ch (rxByte ops tx (skip, w) ch).1 (rxByte ops tx (skip, w) ch).2.host calls ∧
      (rxByte ops tx (skip, w) ch).2.trace = calls.reverse ++ w.trace ∧
      (rxByte ops tx (skip, w) ch).2.ctx = effects ops tx calls w.ctx := by
  cases hm : w.host.payloadMode with
  | true =>
      by_cases hp : PassedOver skip w.host ch
      · obtain ⟨rfl, hb, he⟩ := hp
        rw [rxByte_skipped ops tx hm hb he]
        exact ⟨_, .passed hm ⟨rfl, hb, he⟩, rfl, rfl⟩
      · have hrx : rxByte ops tx (skip, w) ch = (false, payloadByte ops tx w ch) := by
          refine rxByte_payload ops tx skip hm fun hskip => ?_
          rw [← Bool.not_eq_true]
          exact fun he => hp ⟨hskip, (hs hskip).2.1, he⟩
        rw [hrx]
        by_cases heq : w.host.payloadBuffer.length + 1 = w.host.payloadExpected
        · have hbyte : payloadByte ops tx w ch =
              processSendPayload ops tx (w.buffering (w.host.payloadBuffer ++ [ch])) := by
            simp [payloadByte, World.buffering, heq]
          have hdata : (w.buffering (w.host.payloadBuffer ++ [ch])).host.payloadBuffer.take
              (w.buffering (w.host.payloadBuffer ++ [ch])).host.payloadExpected = w.host.payloadBuffer ++ [ch] := by
            refine List.take_of_length_le ?_
            simp [World.buffering, heq]
          obtain ⟨calls, hreply, hhost, htrace, hctx⟩ := processSendPayload_replies ops tx _ hdata
          rw [hbyte, hhost]
          exact ⟨calls, .sent hm hp heq hreply, htrace, hctx⟩
        · have hbyte : payloadByte ops tx w ch = w.buffering (w.host.payloadBuffer ++ [ch]) := by
            simp [payloadByte, World.buffering, heq]
          rw [hbyte]
          exact ⟨_, .stored hm hp heq, rfl, rfl⟩
  | false =>
      have hskip : skip = false := by
        cases skip with
        | false => rfl
        | true => exact absurd (hs rfl).1 (by simp [hm])
      subst hskip
      by_cases he : isLineEnd ch = true
      · rw [rxByte_lineEnd ops tx hm he]
        exact endOfLine_step ops tx hm he
      · have he' : isLineEnd ch = false := by simpa using he
        by_cases hl : LINE_BUFFER_SIZE - 1 ≤ w.host.lineBuffer.length
        · have hrx : rxByte ops tx (false, w) ch =
              (false, { w with host := { w.host with lineOverflow := true } }) := by simp [rxByte, hm, he', hl]
          rw [hrx]
          exact ⟨_, .full hm he' hl, rfl, rfl⟩
        · have hrx : rxByte ops tx (false, w) ch =
              (false, { w with host := { w.host with lineBuffer := w.host.lineBuffer ++ [ch] } }) := by
            simp [rxByte, hm, he', hl]
          rw [hrx]
          exact ⟨_, .char hm he' hl, rfl, rfl⟩

end

/-! ## Runs -/

/-- `at_host_rx_bytes` is called, or its loop comes to the next byte. -/
inductive RxEvent where
  | call
  | byte (ch : Byte)
deriving DecidableEq, Repr

/-- What the latest accepted `AT+SEND` has named, and the bytes stored since. -/
structure Upload where
  connIndex : Nat
  length : Nat
  stored : List Byte
deriving DecidableEq, Repr

instance (skip : Bool) (host : State) (ch : Byte) : Decidable (PassedOver skip host ch) :=
  inferInstanceAs (Decidable (_ ∧ _ ∧ _))

def trackUpload (upload : Option Upload) (skip : Bool) (host : State) (ch : Byte) : Option Upload :=
  if host.payloadMode then
    if PassedOver skip host ch then upload else upload.map fun u => { u with stored := u.stored ++ [ch] }
  else if isLineEnd ch && !host.lineOverflow then
    match sendRequest (cString host.lineBuffer) with
    | some (connIndex, length) => some ⟨connIndex, length, []⟩
    | none => upload
  else upload

/-- The world with the local flag of the loop and the upload. -/
structure Tracked (σ : Type) where
  upload : Option Upload
  skip : Bool
  world : World σ

def rxStep (t : Tracked σ) : RxEvent → Tracked σ
  | .call => { t with skip := false }
  | .byte ch =>
      let p := rxByte ops tx (t.skip, t.world) ch
      ⟨trackUpload t.upload t.skip t.world.host ch, p.1, p.2⟩

/-- After `at_host_init`. -/
def Tracked.start (ctx : σ) : Tracked σ := ⟨none, false, ⟨.init, ctx, []⟩⟩

theorem run_bytes (t : Tracked σ) (data : List Byte) :
    (Runs.run (rxStep ops tx) t (data.map .byte)).world = (rxLoop ops tx (t.skip, t.world) data).2 := by
  induction data generalizing t with
  | nil => rfl
  | cons ch data ih => exact ih _

/-- A call is its event and its bytes. -/
theorem run_call (t : Tracked σ) (data : List Byte) :
    (Runs.run (rxStep ops tx) t (.call :: data.map .byte)).world = atHostRxBytes ops tx t.world data :=
  run_bytes ops tx { t with skip := false } data

/-! ## The invariant -/

structure Sound (upload : Option Upload) (skip : Bool) (host : State) : Prop where
  flag : SkipSound skip host
  line : host.lineBuffer.length ≤ LINE_BUFFER_SIZE - 1
  payload : host.payloadMode = true → 0 < host.payloadExpected ∧ host.payloadExpected ≤ BLE_HOST_SEND_MAX_LEN ∧
    host.payloadBuffer.length < host.payloadExpected ∧
    upload = some ⟨host.payloadConnIndex, host.payloadExpected, host.payloadBuffer⟩

theorem sendRequest_le {line : Text} {connIndex length : Nat} (h : sendRequest line = some (connIndex, length)) :
    length ≤ BLE_HOST_SEND_MAX_LEN := by
  simp only [sendRequest] at h
  split at h
  · unfold sendArgs at h
    split at h
    · split at h
      · split at h
        · cases h
        · rename_i hgood
          cases h
          exact Nat.not_lt.mp fun hlt => hgood (.inr (.inr hlt))
      · cases h
    · cases h
  · cases h

section
variable {upload : Option Upload} {skip skip' : Bool} {host host' : State} {ch : Byte} {calls : List Call}

/-- A byte that leaves the payload mode off keeps the invariant if the line still fits. -/
theorem Sound.of_line (hm : host.payloadMode = false) (hl : host.lineBuffer.length ≤ LINE_BUFFER_SIZE - 1) :
    Sound upload false host :=
  ⟨.unset _, hl, fun h => by rw [hm] at h; cases h⟩

theorem ByteStep.sound (h : Sound upload skip host) (hs : ByteStep skip host ch skip' host' calls) :
    Sound (trackUpload upload skip host ch) skip' host' := by
  cases hs with
  | passed hm hp =>
      have htrack : trackUpload upload skip host ch = upload := by rw [trackUpload, if_pos hm, if_pos hp]
      rw [htrack]
      exact h
  | stored hm hp hlt =>
      obtain ⟨hpos, hle, hfits, hupload⟩ := h.payload hm
      have htrack : trackUpload upload skip host ch =
          some ⟨host.payloadConnIndex, host.payloadExpected, host.payloadBuffer ++ [ch]⟩ := by
        rw [trackUpload, if_pos hm, if_neg hp, hupload]
        rfl
      have hroom : (host.payloadBuffer ++ [ch]).length < host.payloadExpected := by
        rw [List.length_append, List.length_singleton]
        omega
      exact ⟨.unset _, h.line, fun _ => ⟨hpos, hle, hroom, htrack⟩⟩
  | sent hm hp heq hr => exact .of_line rfl h.line
  | overlong hm he ho => exact .of_line hm (Nat.zero_le _)
  | blank hm he ho hb => exact .of_line hm (Nat.zero_le _)
  | opened hm he ho hreq =>
      rename_i connIndex length
      have hpos := sendRequest_pos hreq
      have htrack : trackUpload upload skip host ch = some ⟨connIndex, length, []⟩ := by
        rw [trackUpload, if_neg (by simp [hm]), if_pos (by simp [he, ho]), hreq]
      exact ⟨fun _ => ⟨rfl, rfl, hpos, rfl, rfl⟩, Nat.zero_le _, fun _ => ⟨hpos, sendRequest_le hreq, hpos, htrack⟩⟩
  | answered hm he ho hreq hb hr => exact .of_line hm (Nat.zero_le _)
  | full hm he hl => exact .of_line hm h.line
  | char hm he hl =>
      refine .of_line hm ?_
      rw [List.length_append, List.length_singleton]
      omega

end

def Tracked.Sound (t : Tracked σ) : Prop := AtHost.Sound t.upload t.skip t.world.host

theorem rxStep_sound {t : Tracked σ} (h : t.Sound) (e : RxEvent) : (rxStep ops tx t e).Sound := by
  cases e with
  | call => exact ⟨.unset _, h.line, h.payload⟩
  | byte ch =>
      obtain ⟨calls, hstep, -⟩ := rxByte_step ops tx h.flag ch
      exact hstep.sound h

theorem start_sound (ctx : σ) : (Tracked.start ctx).Sound := .of_line rfl (Nat.zero_le _)

theorem run_sound {t : Tracked σ} (h : t.Sound) (es : List RxEvent) : (Runs.run (rxStep ops tx) t es).Sound :=
  Runs.run_invariant (P := Tracked.Sound) (fun _ e h => rxStep_sound ops tx h e) h es

end BleAtHost.AtHost
