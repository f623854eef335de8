import BleAtHost.AtHost.Lemmas.Emits

/-!
# Payloads of one read

What the loop does with the bytes of a payload, and that the sequence of calls only grows.
-/

namespace BleAtHost.AtHost

variable {σ : Type} (ops : Ops σ) (tx : Tx σ)

theorem rxLoop_append (p : Bool × World σ) (a b : List Byte) :
    rxLoop ops tx p (a ++ b) = rxLoop ops tx (rxLoop ops tx p a) b := by
  unfold rxLoop
  exact List.foldl_append

/-! ## The sequence of calls -/

theorem processSendPayload_trace (w : World σ) :
    (.sendPayload w.host.payloadConnIndex (w.host.payloadBuffer.take w.host.payloadExpected)) :: w.trace <:+
      (processSendPayload ops tx w).trace := by
  simp only [processSendPayload, World.called]
  exact (Emits.respond tx ⟨_, _, _⟩ _).trace

theorem processCommand_trace (w : World σ) (line : Text) : w.trace <:+ (processCommand ops tx w line).2.trace := by
  cases hreq : sendRequest line with
  | none => exact (processCommand_none ops tx w hreq).2.trace
  | some request =>
      rw [processCommand_some ops tx w hreq]
      exact List.suffix_cons _ _

theorem endOfLine_trace (skip : Bool) (w : World σ) : w.trace <:+ (endOfLine ops tx skip w).2.trace := by
  simp only [endOfLine]
  split
  · exact processCommand_trace ops tx w _
  · split
    · exact List.suffix_cons _ _
    · exact List.suffix_refl _

theorem payloadByte_trace (w : World σ) (ch : Byte) : w.trace <:+ (payloadByte ops tx w ch).trace := by
  simp only [payloadByte]
  split
  · refine List.IsSuffix.trans ?_ (processSendPayload_trace ops tx _)
    exact List.suffix_cons _ _
  · exact List.suffix_refl _

theorem rxByte_trace (p : Bool × World σ) (ch : Byte) : p.2.trace <:+ (rxByte ops tx p ch).2.trace := by
  simp only [rxByte]
  split
  · split
    · exact List.suffix_refl _
    · exact payloadByte_trace ops tx _ _
  · split
    · exact endOfLine_trace ops tx _ _
    · split
      · exact List.suffix_refl _
      · exact List.suffix_refl _

theorem rxLoop_trace (p : Bool × World σ) (data : List Byte) : p.2.trace <:+ (rxLoop ops tx p data).2.trace := by
  induction data generalizing p with
  | nil => exact List.suffix_refl _
  | cons ch data ih => exact (rxByte_trace ops tx p ch).trans (ih _)

/-! ## The bytes of a payload -/

/-- The world with other bytes in the payload buffer. -/
def World.buffering (w : World σ) (data : List Byte) : World σ :=
  { w with host := { w.host with payloadBuffer := data } }

variable {w : World σ}

theorem rxByte_stored (hm : w.host.payloadMode = true) (ch : Byte)
    (hlt : w.host.payloadBuffer.length + 1 < w.host.payloadExpected) :
    rxByte ops tx (false, w) ch = (false, w.buffering (w.host.payloadBuffer ++ [ch])) := by
  have hne : w.host.payloadBuffer.length + 1 ≠ w.host.payloadExpected := Nat.ne_of_lt hlt
  simp [rxByte, hm, payloadByte, World.buffering, hne]

theorem rxByte_last (hm : w.host.payloadMode = true) (ch : Byte)
    (heq : w.host.payloadBuffer.length + 1 = w.host.payloadExpected) :
    rxByte ops tx (false, w) ch =
      (false, processSendPayload ops tx (w.buffering (w.host.payloadBuffer ++ [ch]))) := by
  simp [rxByte, hm, payloadByte, World.buffering, heq]

/-- Bytes that do not complete the payload are stored. -/
theorem rxLoop_partial (hm : w.host.payloadMode = true) (data : List Byte)
    (hlt : w.host.payloadBuffer.length + data.length < w.host.payloadExpected) :
    rxLoop ops tx (false, w) data = (false, w.buffering (w.host.payloadBuffer ++ data)) := by
  induction data generalizing w with
  | nil => simp [rxLoop, World.buffering]
  | cons ch data ih =>
      simp only [List.length_cons] at hlt
      have hstored := rxByte_stored ops tx hm ch (by omega)
      have hrest := ih (w := w.buffering (w.host.payloadBuffer ++ [ch])) hm
        (by simp only [World.buffering, List.length_append, List.length_singleton]; omega)
      calc rxLoop ops tx (false, w) (ch :: data)
          = rxLoop ops tx (false, w.buffering (w.host.payloadBuffer ++ [ch])) data := by
            rw [← hstored]; rfl
        _ = (false, w.buffering (w.host.payloadBuffer ++ ch :: data)) := by
            rw [hrest]; simp [World.buffering]

/-- An open payload that the bytes do not complete. -/
theorem rxLoop_short (hm : w.host.payloadMode = true) (hb : w.host.payloadBuffer = []) (data : List Byte)
    (hlt : data.length < w.host.payloadExpected) : rxLoop ops tx (false, w) data = (false, w.buffering data) := by
  have h := rxLoop_partial ops tx hm data (by simpa [hb] using hlt)
  rw [hb] at h
  exact h

/-- An open payload that the bytes complete is sent, whatever follows it. -/
theorem rxLoop_long (hm : w.host.payloadMode = true) (hb : w.host.payloadBuffer = [])
    (hpos : 0 < w.host.payloadExpected) {data : List Byte} (hle : w.host.payloadExpected ≤ data.length) :
    .sendPayload w.host.payloadConnIndex (data.take w.host.payloadExpected) :: w.trace <:+
      (rxLoop ops tx (false, w) data).2.trace := by
  -- the payload is what stands before its last byte, the last byte, and then the rest
  obtain ⟨n, hn⟩ : ∃ n, w.host.payloadExpected = n + 1 := ⟨w.host.payloadExpected - 1, by omega⟩
  have hlt : n < data.length := by omega
  have hshort := rxLoop_short ops tx hm hb (data.take n)
    (by rw [List.length_take]; omega)
  have hlast := rxByte_last ops tx (w := w.buffering (data.take n)) hm data[n]
    (by simp only [World.buffering, List.length_take]; omega)
  have hsplit : data = data.take n ++ data[n] :: data.drop (n + 1) := by
    rw [← List.drop_eq_getElem_cons hlt, List.take_append_drop]
  have htake : data.take n ++ [data[n]] = data.take w.host.payloadExpected := by
    rw [hn, List.take_succ_eq_append_getElem hlt]
  have hall : rxLoop ops tx (false, w) data =
      rxLoop ops tx (false, processSendPayload ops tx (w.buffering (data.take w.host.payloadExpected)))
        (data.drop (n + 1)) := by
    conv => lhs; rw [hsplit, rxLoop_append ops tx, hshort]
    rw [← htake]
    exact congrArg (fun p => rxLoop ops tx p (data.drop (n + 1))) hlast
  rw [hall]
  refine List.IsSuffix.trans ?_ (rxLoop_trace ops tx _ _)
  have hsent := processSendPayload_trace ops tx (w.buffering (data.take w.host.payloadExpected))
  simpa [World.buffering, List.take_take] using hsent

end BleAtHost.AtHost
