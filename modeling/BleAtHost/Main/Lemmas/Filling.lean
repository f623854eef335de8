import BleAtHost.Bridge.Lemmas.Escape
import BleAtHost.Bridge.Lemmas.Flow
import BleAtHost.Main.Lemmas.Refinement

/-!
# A ring that fills up

The host sends plain payload in data mode and the peer takes nothing. The states in which a full ring shows are too
large to be computed, so they are described.
-/

namespace BleAtHost

open Main

namespace Bridge

variable {b : Bridge}

theorem rx_plain (ha : ¬b.escape.active) {byte : RxByte} (hp : byte.ch ≠ PLUS) :
    b.rx byte = { (b.take byte).offer [byte.ch] with last := byte.now } := by
  have hc : ¬(byte.ch = PLUS ∧ (b.take byte).guardTime ≤ Detector.elapsed byte.now (b.take byte).last) :=
    fun h => hp h.1
  rw [rx, if_neg ha, consider, if_neg hc]

/-- A byte that is no plus ends a candidate; the ring is offered both. -/
theorem rx_ends_candidate (h : Counted b) (ha : b.escape.active) {byte : RxByte} (hp : byte.ch ≠ PLUS) :
    ¬(b.rx byte).escape.active ∧
      (b.rx byte).toBle = ((b.toBle.put ([PLUS, PLUS, PLUS].take b.escape.count)).2.put [byte.ch]).2 := by
  have hx : ¬(byte.ch = PLUS ∧ b.escape.count < 3) := fun hx => hp hx.1
  have hc : ¬(byte.ch = PLUS ∧ ((b.take byte).flush byte.flushNow).guardTime ≤
      Detector.elapsed byte.now ((b.take byte).flush byte.flushNow).last) := fun hc => hp hc.1
  have hcount : Counted (b.take byte) := h
  have hflush := flush_of_active hcount ha byte.flushNow
  rw [rx, if_pos ha, if_neg hx, consider, if_neg hc, hflush]
  exact ⟨Bool.false_ne_true, rfl⟩

/-- What plain bytes leave. -/
structure Took (b b' : Bridge) (bytes : List Byte) : Prop where
  same : SameButRx b b'
  idle : ¬b'.escape.active
  data : b'.toBle.data = b.toBle.data ++ bytes.take b.toBle.spaceGet

theorem took_plain (data : List RxByte) (ha : ¬b.escape.active) (hp : ∀ byte ∈ data, byte.ch ≠ PLUS) :
    Took b (data.foldl rx b) (data.map RxByte.ch) := by
  induction data generalizing b with
  | nil => exact ⟨.refl b, ha, by simp⟩
  | cons byte data ih =>
      have hrx := rx_plain ha (hp byte List.mem_cons_self)
      have hna : ¬(b.rx byte).escape.active := by rw [hrx]; exact ha
      have hput : (b.rx byte).toBle = (b.toBle.put [byte.ch]).2 := by rw [hrx]; rfl
      obtain ⟨hsame, hidle, hdata⟩ := ih hna fun byte' hm => hp byte' (List.mem_cons_of_mem _ hm)
      refine ⟨.trans (b.rx_same byte) hsame, hidle, ?_⟩
      have hcons : (byte :: data).map RxByte.ch = [byte.ch] ++ data.map RxByte.ch := rfl
      rw [List.foldl_cons, hdata, hput, RingBuf.put_spaceGet, RingBuf.put_data, List.append_assoc, hcons,
        List.take_append]

theorem rx_replicate_last (byte : RxByte) (k : Nat) :
    ((List.replicate (k + 1) byte).foldl rx b).last = byte.now := by
  rw [List.replicate_succ', List.foldl_append]
  exact rx_last _ byte

/-- Data mode with `n` bytes in the ring, no candidate, and the receiver as flow control wants it. -/
structure Filled (b : Bridge) (n : Nat) (last : Int) : Prop where
  mode : b.mode = .dataMode
  idle : ¬b.escape.active
  length : b.toBle.data.length = n
  irq : b.rxIrq = !b.paused
  paused : b.paused = decide (HOST_TO_BLE_RING_SIZE - n < CONTROL_UART_RX_CHUNK)
  up : ∃ conn, b.link = .up conn
  last : b.last = last
  guardTime : b.guardTime = 1000

/-- While there is room for a chunk the receiver runs. -/
theorem Filled.running {n : Nat} {last : Int} (h : Filled b n last)
    (hn : n + CONTROL_UART_RX_CHUNK ≤ HOST_TO_BLE_RING_SIZE) :
    b.rxIrq = true ∧ b.paused = false ∧ CONTROL_UART_RX_CHUNK ≤ b.toBle.spaceGet := by
  have hpaused : b.paused = false := by rw [h.paused, decide_eq_false]; omega
  refine ⟨by rw [h.irq, hpaused]; rfl, hpaused, ?_⟩
  rw [RingBuf.spaceGet, h.length]; omega

theorem refresh_of_running (hm : b.mode = .dataMode) (hi : b.rxIrq) (hp : b.paused = false) :
    b.refresh.paused = decide (b.toBle.spaceGet < CONTROL_UART_RX_CHUNK) ∧ b.refresh.rxIrq = !b.refresh.paused := by
  have hm' : ¬b.mode ≠ .dataMode := by simp [hm]
  by_cases hs : b.toBle.spaceGet < CONTROL_UART_RX_CHUNK
  · simp [refresh, hm', hs, hp]
  · simp [refresh, hm', hs, hp, hi]

end Bridge

namespace Main

/-- Sixty-four plain bytes. -/
def chunk (now : Int) : List RxByte := List.replicate CONTROL_UART_RX_CHUNK ⟨120, now, now⟩

theorem chunk_plain {now : Int} {byte : RxByte} (h : byte ∈ chunk now) : byte.ch ≠ PLUS := by
  rw [List.eq_of_mem_replicate h]
  change (120 : Byte) ≠ PLUS
  decide

def hostSendsChunk (now : Int) : Event := .uart none (some (chunk now))

/-- What a pass of the interrupt handler does with a chunk while the receiver runs in data mode. -/
theorem read_bridge (env : Env) {f : Firmware} (data : List RxByte) (hm : f.app.appState = .dataMode)
    (hi : f.app.rxIrqEnabled) (hs : CONTROL_UART_RX_CHUNK ≤ f.app.hostToBleRing.spaceGet) (hd : data ≠ [])
    (hl : data.length ≤ CONTROL_UART_RX_CHUNK) :
    ∃ b : Bridge, (step env f (.uart none (some data))).app.bridge 0 = (data.foldl Bridge.rx b).refresh ∧
      b = { (f.app.bridge 0).note
          (.dataRx (data.map RxByte.ch) f.app.hostToBleRing.spaceGet f.app.escapeState.held) with
        chunkLeft := data.length } := by
  have hspace : ¬(f.app.appState = .dataMode ∧ f.app.hostToBleRing.spaceGet < CONTROL_UART_RX_CHUNK) :=
    fun h => absurd h.2 (by omega)
  refine ⟨_, ?_, rfl⟩
  rw [step, controlUartIsr, controlUartIsrTx]
  dsimp only
  rw [if_pos hi, controlUartIsrRx, List.take_of_length_le hl, if_neg hspace, if_neg hd, if_pos hm]
  exact handleDataModeRx_bridge _ data

theorem filled_chunk (env : Env) {f : Firmware} {n : Nat} {last : Int} (h : Bridge.Filled (f.app.bridge 0) n last)
    (hn : n + CONTROL_UART_RX_CHUNK ≤ HOST_TO_BLE_RING_SIZE) (now : Int) :
    Bridge.Filled ((step env f (hostSendsChunk now)).app.bridge 0) (n + CONTROL_UART_RX_CHUNK) now := by
  have hlen : f.app.hostToBleRing.data.length = n := h.length
  obtain ⟨hirq, hpaused, hspace⟩ := h.running hn
  obtain ⟨b, he, hb⟩ := read_bridge env (chunk now) h.mode hirq hspace (by simp [chunk, CONTROL_UART_RX_CHUNK])
    (Nat.le_of_eq List.length_replicate)
  have htook := Bridge.took_plain (b := b) (chunk now) (by rw [hb]; exact h.idle) fun byte hm => chunk_plain hm
  have hlast : ((chunk now).foldl Bridge.rx b).last = now := Bridge.rx_replicate_last ⟨120, now, now⟩ 63
  have hdata : ((chunk now).foldl Bridge.rx b).toBle.data.length = n + CONTROL_UART_RX_CHUNK := by
    have hroom : b.toBle.spaceGet = HOST_TO_BLE_RING_SIZE - n := by rw [hb, ← hlen]; rfl
    have hheld : b.toBle.data.length = n := by rw [hb]; exact hlen
    rw [htook.data, List.length_append, List.length_take, hroom, hheld, List.length_map, chunk, List.length_replicate]
    omega
  have hmode : ((chunk now).foldl Bridge.rx b).mode = .dataMode := htook.same.mode.trans (by rw [hb]; exact h.mode)
  have hrun : ((chunk now).foldl Bridge.rx b).rxIrq = true := htook.same.rxIrq.trans (by rw [hb]; exact hirq)
  have hgo : ((chunk now).foldl Bridge.rx b).paused = false := htook.same.paused.trans (by rw [hb]; exact hpaused)
  rw [hostSendsChunk, he]
  obtain ⟨hsame, hidle, _⟩ := htook
  generalize (chunk now).foldl Bridge.rx b = c at hlast hdata hmode hrun hgo hsame hidle
  obtain ⟨hp, hi⟩ := Bridge.refresh_of_running hmode hrun hgo
  obtain ⟨paused, rxIrq, hr⟩ := c.refresh_eq
  refine ⟨?_, ?_, ?_, hi, ?_, ?_, ?_, ?_⟩
  · rw [hr]; exact hmode
  · rw [hr]; exact hidle
  · rw [hr]; exact hdata
  · rw [hp, RingBuf.spaceGet, hdata]
  · obtain ⟨conn, hup⟩ := h.up
    exact ⟨conn, by rw [hr]; exact hsame.link.trans (by rw [hb]; exact hup)⟩
  · rw [hr]; exact hlast
  · rw [hr]; exact hsame.guardTime.trans (by rw [hb]; exact h.guardTime)

/-- Chunk after chunk, as long as they fit. -/
theorem filled_chunks (env : Env) {f : Firmware} {n : Nat} {now : Int} (h : Bridge.Filled (f.app.bridge 0) n now)
    (k : Nat) (hn : n + k * CONTROL_UART_RX_CHUNK ≤ HOST_TO_BLE_RING_SIZE) :
    Bridge.Filled ((Runs.run (step env) f (List.replicate k (hostSendsChunk now))).app.bridge 0)
      (n + k * CONTROL_UART_RX_CHUNK) now := by
  induction k generalizing f n with
  | zero => simpa using h
  | succ k ih =>
      rw [Nat.add_mul, Nat.one_mul] at hn ⊢
      have hnext := ih (filled_chunk env h (by omega) now) (by omega)
      rw [List.replicate_succ, Runs.run_cons]
      rw [show n + (k * CONTROL_UART_RX_CHUNK + CONTROL_UART_RX_CHUNK) =
        n + CONTROL_UART_RX_CHUNK + k * CONTROL_UART_RX_CHUNK by omega]
      exact hnext

/-- Data mode is entered, then `k` chunks arrive. -/
def fillUp (k : Nat) : List Event := List.replicate k (hostSendsChunk 3000)

theorem filled_fillUp (k : Nat) (hk : k * CONTROL_UART_RX_CHUNK ≤ HOST_TO_BLE_RING_SIZE) :
    Bridge.Filled ((runDataMode (stackRefusing []) (fillUp k)).app.bridge 0) (k * CONTROL_UART_RX_CHUNK) 3000 := by
  have hstart : Bridge.Filled ((runDataMode (stackRefusing []) []).app.bridge 0) 0 3000 := by
    refine ⟨?_, ?_, ?_, ?_, ?_, ⟨⟨0, ⟨[6, 5, 4, 3, 2, 1], 0⟩⟩, ?_⟩, ?_, ?_⟩
    all_goals decide
  have hfilled := filled_chunks (stackRefusing []) hstart k (by omega)
  rw [Nat.zero_add] at hfilled
  have hrun := runDataMode_append (stackRefusing []) [] (fillUp k)
  rw [List.nil_append] at hrun
  rw [hrun]
  exact hfilled

/-! ## A plus held back -/

def hostSendsPlus (now : Int) : Event := .uart none (some [⟨PLUS, now, now⟩])

/-- Data mode with `n` bytes in the ring, one plus held back and the receiver running. -/
structure OneHeld (b : Bridge) (n : Nat) : Prop where
  mode : b.mode = .dataMode
  escape : b.escape = ⟨true, 1⟩
  length : b.toBle.data.length = n
  irq : b.rxIrq = true

/-- After a guard time a plus opens a candidate. -/
theorem oneHeld_plus (env : Env) {f : Firmware} {n : Nat} {last now : Int} (h : Bridge.Filled (f.app.bridge 0) n last)
    (hn : n + CONTROL_UART_RX_CHUNK ≤ HOST_TO_BLE_RING_SIZE) (hg : 1000 ≤ Detector.elapsed now last) :
    OneHeld ((step env f (hostSendsPlus now)).app.bridge 0) n := by
  obtain ⟨hirq, hpaused, hspace⟩ := h.running hn
  obtain ⟨b, he, hb⟩ := read_bridge env [⟨PLUS, now, now⟩] h.mode hirq hspace (List.cons_ne_nil _ _)
    (Nat.le_add_left 1 63)
  have ha : ¬b.escape.active := by rw [hb]; exact h.idle
  have hguard : b.guardTime = 1000 := by rw [hb]; exact h.guardTime
  have hlast : b.last = last := by rw [hb]; exact h.last
  have hopen : PLUS = PLUS ∧ b.guardTime ≤ Detector.elapsed now b.last := ⟨rfl, by rw [hguard, hlast]; exact hg⟩
  have hrx : b.rx ⟨PLUS, now, now⟩ = { b.take ⟨PLUS, now, now⟩ with escape := ⟨true, 1⟩, last := now, armed := true } := by
    rw [Bridge.rx, if_neg ha]
    exact if_pos hopen
  have hc : [(⟨PLUS, now, now⟩ : RxByte)].foldl Bridge.rx b = b.rx ⟨PLUS, now, now⟩ := rfl
  have hmode : (b.rx ⟨PLUS, now, now⟩).mode = .dataMode := by rw [hrx, hb]; exact h.mode
  have hring : (b.rx ⟨PLUS, now, now⟩).toBle = f.app.hostToBleRing := by rw [hrx, hb]; rfl
  obtain ⟨hp, hi⟩ := Bridge.refresh_of_running hmode (by rw [hrx, hb]; exact hirq) (by rw [hrx, hb]; exact hpaused)
  have hroom : ¬f.app.hostToBleRing.spaceGet < CONTROL_UART_RX_CHUNK := Nat.not_lt.mpr hspace
  rw [hring, decide_eq_false hroom] at hp
  obtain ⟨paused, rxIrq, hr⟩ := (b.rx ⟨PLUS, now, now⟩).refresh_eq
  rw [hostSendsPlus, he, hc]
  refine ⟨?_, ?_, ?_, ?_⟩
  · rw [hr]; exact hmode
  · rw [hr, hrx]
  · rw [hr, ← h.length]; exact congrArg (fun r => r.data.length) hring
  · rw [hi, hp]; rfl

/-- The plus takes the place of the last byte of a chunk that just fits. -/
theorem offered_in_vain (env : Env) {f : Firmware} {n : Nat} (h : OneHeld (f.app.bridge 0) n)
    (hn : n + CONTROL_UART_RX_CHUNK = HOST_TO_BLE_RING_SIZE) (now : Int) :
    .h2bPut [120] [] ∈ (step env f (hostSendsChunk now)).app.log := by
  have hlen : f.app.hostToBleRing.data.length = n := h.length
  have hspace : f.app.hostToBleRing.spaceGet = CONTROL_UART_RX_CHUNK := by
    rw [RingBuf.spaceGet, hlen]; omega
  obtain ⟨b, he, hb⟩ := read_bridge env (chunk now) h.mode h.irq (Nat.le_of_eq hspace.symm)
    (by simp [chunk, CONTROL_UART_RX_CHUNK]) (Nat.le_of_eq List.length_replicate)
  have hplain : (⟨120, now, now⟩ : RxByte).ch ≠ PLUS := by
    change (120 : Byte) ≠ PLUS
    decide
  have hescape : b.escape = ⟨true, 1⟩ := by rw [hb]; exact h.escape
  have hring : b.toBle = f.app.hostToBleRing := by rw [hb]; rfl
  have hcounted : Bridge.Counted b := fun _ => by rw [hescape]; decide
  -- the first byte gives up the candidate
  obtain ⟨hidle, hfirst⟩ := Bridge.rx_ends_candidate hcounted (by rw [hescape]) hplain
  -- the next ones fill the ring
  have htook := Bridge.took_plain (List.replicate 62 ⟨120, now, now⟩) hidle fun byte hm => by
    rw [List.eq_of_mem_replicate hm]; exact hplain
  have hfull : ((List.replicate 62 ⟨120, now, now⟩).foldl Bridge.rx (b.rx ⟨120, now, now⟩)).toBle.spaceGet = 0 := by
    have hleft : (b.rx ⟨120, now, now⟩).toBle.spaceGet = 62 := by
      rw [hfirst, RingBuf.put_spaceGet, RingBuf.put_spaceGet, hring, hspace, hescape]
      rfl
    have hdata := congrArg List.length htook.data
    rw [List.length_append, List.length_take, hleft, List.length_map, List.length_replicate] at hdata
    rw [RingBuf.spaceGet] at hleft ⊢
    omega
  -- nothing is left for the last one
  have hlast := Bridge.rx_plain htook.idle hplain
  have hchunk : chunk now = ⟨120, now, now⟩ :: (List.replicate 62 ⟨120, now, now⟩ ++ [⟨120, now, now⟩]) := by
    rw [← List.replicate_succ', ← List.replicate_succ]; rfl
  rw [hchunk, List.foldl_cons, List.foldl_append] at he
  generalize (List.replicate 62 _).foldl Bridge.rx (b.rx ⟨120, now, now⟩) = c at he hfull hlast
  have hlog : (step env f (hostSendsChunk now)).app.log = (c.rx ⟨120, now, now⟩).log := by
    rw [← Bridge.refresh_log]
    exact congrArg Bridge.log he
  rw [hlog, hlast]
  refine List.mem_cons.mpr (Or.inl ?_)
  have htake : (c.take ⟨120, now, now⟩).toBle.spaceGet = 0 := hfull
  rw [htake]; rfl

end Main

end BleAtHost
