import BleAtHost.Main.Lemmas.Traffic

/-!
# The counters of `AT+STREAMSTAT`

The ledger says what the counters of the traffic should show, from the history alone.
-/

namespace BleAtHost.Main

variable {s s' : App} {env : Env} {log : List Obs}

/-! ## The ledger -/

/-- `toBle` and `toHost` are the bytes that the two rings hold. A chunk is `waiting` if it was claimed and its send
failed. -/
structure Ledger where
  writes : Nat
  written : Nat
  notifications : Nat
  notified : Nat
  toBle : Nat
  maxToBle : Nat
  toHost : Nat
  maxToHost : Nat
  waiting : Bool
  closeRequested : Bool
  unexpected : Nat
deriving DecidableEq, Repr

def Ledger.next (l : Ledger) : Obs → Ledger
  | .stack (.gattWrite _ _ data) result | .stack (.gattWriteWithoutResponse _ _ data) result =>
      if result = 0 then { l with writes := l.writes + 1, written := l.written + data.length } else l
  | .notify payload => { l with notifications := l.notifications + 1, notified := l.notified + payload.length }
  | .h2bPut _ stored =>
      { l with toBle := l.toBle + stored.length, maxToBle := max l.maxToBle (l.toBle + stored.length) }
  | .write chunk result _ =>
      if result = 0 then { l with toBle := l.toBle - chunk.length, waiting := false } else { l with waiting := true }
  | .h2bReset => { l with toBle := 0, waiting := false }
  | .b2hPut _ stored =>
      { l with toHost := l.toHost + stored.length, maxToHost := max l.maxToHost (l.toHost + stored.length) }
  | .fill false bytes => { l with toHost := l.toHost - bytes.length }
  | .clear _ => { l with toHost := 0 }
  | .stack (.connCreate _ _ _ _ _) result => if result = 0 then { l with closeRequested := false } else l
  | .stack (.connDisconnect _) result => if result = 0 then { l with closeRequested := true } else l
  | .disconnected _ => if l.closeRequested then l else { l with unexpected := l.unexpected + 1 }
  | _ => l

def ledger : List Obs → Ledger
  | [] => ⟨0, 0, 0, 0, 0, 0, 0, 0, false, false, 0⟩
  | o :: log => (ledger log).next o

/-- The counters show the traffic, and the ledger knows what the rings hold. -/
structure CountersTruthful (s : App) : Prop where
  writeOps : s.streamStats.writeOps = (ledger s.log).writes % 2 ^ 32
  bytesHostToBle : s.streamStats.bytesHostToBle = (ledger s.log).written % 2 ^ 32
  notifyOps : s.streamStats.notifyOps = (ledger s.log).notifications % 2 ^ 32
  bytesBleToHost : s.streamStats.bytesBleToHost = (ledger s.log).notified % 2 ^ 32
  maxHostToBleDepth : s.streamStats.maxHostToBleDepth = (ledger s.log).maxToBle
  maxBleToHostDepth : s.streamStats.maxBleToHostDepth = (ledger s.log).maxToHost
  toBle : s.hostToBleRing.data.length = (ledger s.log).toBle
  toHost : s.bleToHostRing.data.length = (ledger s.log).toHost

/-- The disconnects that the host has not asked for. -/
def UnexpectedCounted (s : App) : Prop := s.streamStats.unexpectedDisconnectCount = (ledger s.log).unexpected % 2 ^ 32

def Obs.acceptsWrite : Obs → Bool
  | .stack (.gattWrite _ _ _) result | .stack (.gattWriteWithoutResponse _ _ _) result => result == 0
  | _ => false

/-- The stack accepts no write of the AT parser. -/
def NoCommandWrite (env : Env) (f : Firmware) (e : Event) : Prop := e.isUart → ∀ o ∈ news env f e, !o.acceptsWrite

/-- While a chunk waits, `host_to_ble_ring` is not filled further than ever before. -/
def Obs.putFits (o : Obs) (before : List Obs) : Bool :=
  match o with
  | .h2bPut _ stored =>
      !(ledger before).waiting || (ledger before).toBle + stored.length ≤ (ledger before).maxToBle
  | _ => true

def PutsFit (log : List Obs) : Prop := Past (fun o before => o.putFits before) log

instance (env : Env) (f : Firmware) (e : Event) : Decidable (NoCommandWrite env f e) :=
  inferInstanceAs (Decidable (_ → _))

instance (log : List Obs) : Decidable (PutsFit log) := inferInstanceAs (Decidable (Past _ _))

/-- The reason of a disconnect tells whether the host has asked for it. -/
def ReasonTells (f : Firmware) (e : Event) : Prop :=
  ∀ reason conn, e = .disconnected reason → f.app.link = .up conn →
    (reason = REMOTE_USER_TERM_CONN ↔ (ledger f.app.log).closeRequested)

/-! ## The ledger and the traffic -/

theorem next_of_not_traffic {o : Obs} (h : o.isTraffic = false) (l : Ledger) : l.next o = l := by
  cases o with
  | stack call result =>
      cases call with
      | gattWrite | gattWriteWithoutResponse | connCreate | connDisconnect => cases h
      | _ => rfl
  | fill fromCtrl bytes =>
      cases fromCtrl with
      | false => cases h
      | true => rfl
  | notify | h2bPut | write | h2bReset | b2hPut | clear | disconnected => cases h
  | _ => rfl

theorem ledger_filter (log : List Obs) : ledger (log.filter Obs.isTraffic) = ledger log := by
  induction log with
  | nil => rfl
  | cons o log ih =>
      cases ho : o.isTraffic with
      | true => rw [List.filter_cons_of_pos ho, ledger, ledger, ih]
      | false => rw [List.filter_cons_of_neg (by simp [ho]), ledger, ih, next_of_not_traffic ho]

theorem putsFit_filter (h : PutsFit log) : PutsFit (log.filter Obs.isTraffic) := by
  induction log with
  | nil => exact h
  | cons o log ih =>
      have hrest : PutsFit (log.filter Obs.isTraffic) := ih h.2
      cases ho : o.isTraffic with
      | false =>
          rw [List.filter_cons_of_neg (by simp [ho])]
          exact hrest
      | true =>
          rw [List.filter_cons_of_pos ho]
          refine ⟨?_, hrest⟩
          have hfits : o.putFits log := h.1
          cases o with
          | h2bPut offered stored =>
              simp only [Obs.putFits, ledger_filter]
              exact hfits
          | _ => rfl

theorem ledger_toBle_le (log : List Obs) : (ledger log).toBle ≤ (ledger log).maxToBle := by
  induction log with
  | nil => exact Nat.le_refl 0
  | cons o log ih =>
      rw [ledger]
      generalize ledger log = l at ih ⊢
      unfold Ledger.next
      repeat' split
      all_goals first | exact ih | (dsimp only; omega)

/-- The number of writes never falls. -/
theorem ledger_writes_le {log' : List Obs} (h : log <:+ log') : (ledger log).writes ≤ (ledger log').writes := by
  have hnext : ∀ (l : Ledger) (o : Obs), l.writes ≤ (l.next o).writes := by
    intro l o
    unfold Ledger.next
    repeat' split
    all_goals first | exact Nat.le_refl _ | exact Nat.le_succ _
  obtain ⟨new, rfl⟩ := h
  induction new with
  | nil => exact Nat.le_refl _
  | cons o new ih => exact ih.trans (hnext _ o)

theorem ledger_writes_of_none {new : List Obs} (h : ∀ o ∈ new, !o.acceptsWrite) :
    (ledger (new ++ log)).writes = (ledger log).writes := by
  induction new with
  | nil => rfl
  | cons o new ih =>
      have hrest := ih fun o' ho => h o' (List.mem_cons_of_mem _ ho)
      have ho : o.acceptsWrite = false := by simpa using h o List.mem_cons_self
      rw [List.cons_append, ledger, ← hrest]
      generalize ledger (new ++ log) = l
      unfold Ledger.next
      repeat' split
      all_goals simp_all [Obs.acceptsWrite]

namespace Traffic

variable {t t' : Traffic} {command : Prop}

/-- What the counters of the traffic show, and that nothing is claimed unless a chunk waits. -/
structure Truthful (t : Traffic) : Prop where
  writeOps : t.stats.writeOps = (ledger t.log).writes % 2 ^ 32
  bytesHostToBle : t.stats.bytesHostToBle = (ledger t.log).written % 2 ^ 32
  notifyOps : t.stats.notifyOps = (ledger t.log).notifications % 2 ^ 32
  bytesBleToHost : t.stats.bytesBleToHost = (ledger t.log).notified % 2 ^ 32
  maxHostToBleDepth : t.stats.maxHostToBleDepth = (ledger t.log).maxToBle
  maxBleToHostDepth : t.stats.maxBleToHostDepth = (ledger t.log).maxToHost
  toBle : t.toBle.data.length = (ledger t.log).toBle
  toHost : t.toHost.data.length = (ledger t.log).toHost
  rewound : (ledger t.log).waiting = false → t.toBle.claimed = 0
  hostRewound : t.toHost.claimed = 0

/-- The ledgers differ at most in what they say of disconnects. -/
def SameCounts (l l' : Ledger) : Prop :=
  ∃ closeRequested unexpected, l' = { l with closeRequested := closeRequested, unexpected := unexpected }

theorem SameCounts.refl (l : Ledger) : SameCounts l l := ⟨l.closeRequested, l.unexpected, rfl⟩

theorem Truthful.of_same (h : t.Truthful) (hs : t'.stats = t.stats) (hb : t'.toBle = t.toBle) (hh : t'.toHost = t.toHost)
    (hl : SameCounts (ledger t.log) (ledger t'.log)) : t'.Truthful := by
  obtain ⟨closeRequested, unexpected, hl⟩ := hl
  constructor
  · rw [hs, hl]; exact h.writeOps
  · rw [hs, hl]; exact h.bytesHostToBle
  · rw [hs, hl]; exact h.notifyOps
  · rw [hs, hl]; exact h.bytesBleToHost
  · rw [hs, hl]; exact h.maxHostToBleDepth
  · rw [hs, hl]; exact h.maxBleToHostDepth
  · rw [hb, hl]; exact h.toBle
  · rw [hh, hl]; exact h.toHost
  · rw [hb, hl]; exact h.rewound
  · rw [hh]; exact h.hostRewound

/-- What a send adds to the ledger. -/
theorem ledger_issue (t : Traffic) (w : Write) (result : Int) :
    ledger (t.issue w result).log =
      if result = 0 then
        { ledger t.log with
          writes := (ledger t.log).writes + 1
          written := (ledger t.log).written + w.data.length }
      else ledger t.log := by
  unfold issue Write.call
  cases w.acked with
  | false => rfl
  | true => rfl

theorem issue_stats (t : Traffic) (w : Write) (result : Int) :
    (t.issue w result).stats = t.stats ∧ (t.issue w result).toBle = t.toBle ∧ (t.issue w result).toHost = t.toHost := by
  obtain ⟨_, _, _, he⟩ := issue_eq t w result
  rw [he]
  exact ⟨rfl, rfl, rfl⟩

theorem chunk_length_le (t : Traffic) : t.chunk.length ≤ (t.toBle.getClaim t.payloadLen).1.length := by
  rw [chunk, List.length_take]
  omega

theorem addU32_mod (n k : Nat) : addU32 (n % 2 ^ 32) k = (n + k) % 2 ^ 32 := Nat.mod_add_mod n (2 ^ 32) k

/-- A chunk that fails is left in the ring. -/
theorem Truthful.failed (h : t.Truthful) {u : Traffic} (hs : u.stats = t.stats) (hb : u.toBle = t.claim.toBle)
    (hh : u.toHost = t.toHost) (hl : ledger u.log = ledger t.log) (chunk : List Byte) {result : Int} (hr : result ≠ 0)
    (ahead : Nat) : (u.finish chunk result ahead).Truthful := by
  have hledger : ledger (u.finish chunk result ahead).log = { ledger t.log with waiting := true } := by
    rw [finish, if_neg hr, note, ledger, hl, Ledger.next, if_neg hr]
  have hsame : (u.finish chunk result ahead).stats = t.stats ∧ (u.finish chunk result ahead).toBle = t.claim.toBle ∧
      (u.finish chunk result ahead).toHost = t.toHost := by
    rw [finish, if_neg hr]
    exact ⟨hs, hb, hh⟩
  obtain ⟨hstats, htoBle, htoHost⟩ := hsame
  constructor
  · rw [hstats, hledger]; exact h.writeOps
  · rw [hstats, hledger]; exact h.bytesHostToBle
  · rw [hstats, hledger]; exact h.notifyOps
  · rw [hstats, hledger]; exact h.bytesBleToHost
  · rw [hstats, hledger]; exact h.maxHostToBleDepth
  · rw [hstats, hledger]; exact h.maxBleToHostDepth
  · rw [htoBle, hledger]; exact h.toBle
  · rw [htoHost, hledger]; exact h.toHost
  · rw [hledger]
    rintro ⟨⟩
  · rw [htoHost]; exact h.hostRewound

/-- A chunk that is accepted is taken from the ring and counted. -/
theorem Truthful.accepted (h : t.Truthful) (w : Write) (hd : w.data = t.chunk) (ahead : Nat) :
    ((t.claim.issue w 0).finish t.chunk 0 ahead).Truthful := by
  obtain ⟨hs, hb, hh⟩ := issue_stats t.claim w 0
  have hl : ledger (t.claim.issue w 0).log = _ := ledger_issue t.claim w 0
  rw [if_pos rfl, hd] at hl
  obtain ⟨hdata, hclaimed⟩ := RingBuf.getClaim_getFinish (r := t.toBle) (chunk_length_le t)
  generalize t.claim.issue w 0 = u at hs hb hh hl
  have hledger : ledger (u.finish t.chunk 0 ahead).log =
      { ledger t.log with
        writes := (ledger t.log).writes + 1
        written := (ledger t.log).written + t.chunk.length
        toBle := (ledger t.log).toBle - t.chunk.length
        waiting := false } := by
    rw [finish, if_pos rfl, note, ledger, hl, Ledger.next, if_pos rfl]
    rfl
  have hstats : (u.finish t.chunk 0 ahead).stats =
      { t.stats with
        bytesHostToBle := addU32 t.stats.bytesHostToBle t.chunk.length
        writeOps := addU32 t.stats.writeOps 1 } := by
    rw [finish, if_pos rfl, note, hs]
    rfl
  have htoBle : (u.finish t.chunk 0 ahead).toBle = (t.claim.toBle.getFinish t.chunk.length).2 := by
    rw [finish, if_pos rfl, note, hb]
  have htoHost : (u.finish t.chunk 0 ahead).toHost = t.toHost := by
    rw [finish, if_pos rfl, note, hh]
    rfl
  constructor
  · rw [hstats, hledger]
    dsimp only
    rw [h.writeOps, addU32_mod]
  · rw [hstats, hledger]
    dsimp only
    rw [h.bytesHostToBle, addU32_mod]
  · rw [hstats, hledger]; exact h.notifyOps
  · rw [hstats, hledger]; exact h.bytesBleToHost
  · rw [hstats, hledger]; exact h.maxHostToBleDepth
  · rw [hstats, hledger]; exact h.maxBleToHostDepth
  · rw [htoBle, hledger, claim, hdata, List.length_drop, h.toBle]
  · rw [htoHost, hledger]; exact h.toHost
  · rw [htoBle]
    exact fun _ => hclaimed
  · rw [htoHost]; exact h.hostRewound

theorem Truthful.receive (h : t.Truthful) (payload : List Byte) : (t.receive payload).Truthful where
  writeOps := h.writeOps
  bytesHostToBle := h.bytesHostToBle
  notifyOps := by
    rw [show (t.receive payload).stats.notifyOps = addU32 t.stats.notifyOps 1 from rfl, h.notifyOps, addU32_mod]
    rfl
  bytesBleToHost := by
    rw [show (t.receive payload).stats.bytesBleToHost = addU32 t.stats.bytesBleToHost payload.length from rfl,
      h.bytesBleToHost, addU32_mod]
    rfl
  maxHostToBleDepth := h.maxHostToBleDepth
  maxBleToHostDepth := h.maxBleToHostDepth
  toBle := h.toBle
  toHost := h.toHost
  rewound := h.rewound
  hostRewound := h.hostRewound

/-- The depth that is recorded is that of the ring, unless a chunk waits; then it is below the largest depth anyway. -/
theorem Truthful.putToBle (h : t.Truthful) (data : List Byte) (hp : PutsFit (t.putToBle data).log) :
    (t.putToBle data).Truthful where
  writeOps := h.writeOps
  bytesHostToBle := h.bytesHostToBle
  notifyOps := h.notifyOps
  bytesBleToHost := h.bytesBleToHost
  maxHostToBleDepth := by
    have hfits : (ledger t.log).waiting = false ∨
        (ledger t.log).toBle + (data.take t.toBle.spaceGet).length ≤ (ledger t.log).maxToBle := by
      simpa [Obs.putFits] using hp.1
    have hsize : (t.toBle.put data).2.sizeGet =
        (ledger t.log).toBle + (data.take t.toBle.spaceGet).length - t.toBle.claimed := by
      rw [RingBuf.sizeGet, RingBuf.put_data, RingBuf.put_claimed, List.length_append, h.toBle]
    change max (t.toBle.put data).2.sizeGet t.stats.maxHostToBleDepth =
      max (ledger t.log).maxToBle ((ledger t.log).toBle + (data.take t.toBle.spaceGet).length)
    rw [hsize, h.maxHostToBleDepth]
    rcases hfits with hw | hle
    · rw [h.rewound hw]
      omega
    · omega
  maxBleToHostDepth := h.maxBleToHostDepth
  toBle := by
    rw [show (t.putToBle data).toBle = (t.toBle.put data).2 from rfl, RingBuf.put_data, List.length_append, h.toBle]
    rfl
  toHost := h.toHost
  rewound := h.rewound
  hostRewound := h.hostRewound

theorem Truthful.full (h : t.Truthful) (data : List Byte) : (t.note (.h2bPut data [])).Truthful where
  writeOps := h.writeOps
  bytesHostToBle := h.bytesHostToBle
  notifyOps := h.notifyOps
  bytesBleToHost := h.bytesBleToHost
  maxHostToBleDepth := by
    have hle := ledger_toBle_le t.log
    change t.stats.maxHostToBleDepth = max (ledger t.log).maxToBle ((ledger t.log).toBle + 0)
    rw [h.maxHostToBleDepth]
    omega
  maxBleToHostDepth := h.maxBleToHostDepth
  toBle := h.toBle
  toHost := h.toHost
  rewound := h.rewound
  hostRewound := h.hostRewound

theorem Truthful.putToHost (h : t.Truthful) (data : List Byte) : (t.putToHost data).Truthful where
  writeOps := h.writeOps
  bytesHostToBle := h.bytesHostToBle
  notifyOps := h.notifyOps
  bytesBleToHost := h.bytesBleToHost
  maxHostToBleDepth := h.maxHostToBleDepth
  maxBleToHostDepth := by
    have hsize : (t.toHost.put data).2.sizeGet = (ledger t.log).toHost + (data.take t.toHost.spaceGet).length := by
      rw [RingBuf.sizeGet, RingBuf.put_data, RingBuf.put_claimed, List.length_append, h.toHost, h.hostRewound]
      rfl
    change max (t.toHost.put data).2.sizeGet t.stats.maxBleToHostDepth =
      max (ledger t.log).maxToHost ((ledger t.log).toHost + (data.take t.toHost.spaceGet).length)
    rw [hsize, h.maxBleToHostDepth, Nat.max_comm]
  toBle := h.toBle
  toHost := by
    rw [show (t.putToHost data).toHost = (t.toHost.put data).2 from rfl, RingBuf.put_data, List.length_append, h.toHost]
    rfl
  rewound := h.rewound
  hostRewound := h.hostRewound

/-- What is sent to the host comes from the front, and nothing of the rest stays claimed. -/
theorem fillFrom_rewound {size : Nat} {ring : RingBuf Byte size} (h : ring.claimed = 0) (accept : Int) :
    (fillFrom ring accept).2.2.data = ring.data.drop (fillFrom ring accept).2.1.length ∧
      (fillFrom ring accept).2.2.claimed = 0 := by
  unfold fillFrom
  dsimp only
  split
  · rename_i hnil
    rw [RingBuf.getClaim_of_nil hnil]
    exact ⟨rfl, h⟩
  · generalize hsent : (uartFifoFill accept (ring.getClaim UART_TX_CHUNK).1).toNat = sent
    have hle : sent ≤ (ring.getClaim UART_TX_CHUNK).1.length := by
      rw [← hsent, uartFifoFill]
      omega
    dsimp only
    rw [List.length_take, Nat.min_eq_left hle]
    exact RingBuf.getClaim_getFinish hle

theorem Truthful.drain (h : t.Truthful) (accept : Int) : (t.drain accept).Truthful where
  writeOps := h.writeOps
  bytesHostToBle := h.bytesHostToBle
  notifyOps := h.notifyOps
  bytesBleToHost := h.bytesBleToHost
  maxHostToBleDepth := h.maxHostToBleDepth
  maxBleToHostDepth := h.maxBleToHostDepth
  toBle := h.toBle
  toHost := by
    rw [show (t.drain accept).toHost = (fillFrom t.toHost accept).2.2 from rfl, (fillFrom_rewound h.hostRewound accept).1,
      List.length_drop, h.toHost]
    rfl
  rewound := h.rewound
  hostRewound := (fillFrom_rewound h.hostRewound accept).2

theorem Truthful.clearSession (h : t.Truthful) (paused : Bool) : (t.clearSession paused).Truthful where
  writeOps := h.writeOps
  bytesHostToBle := h.bytesHostToBle
  notifyOps := h.notifyOps
  bytesBleToHost := h.bytesBleToHost
  maxHostToBleDepth := h.maxHostToBleDepth
  maxBleToHostDepth := h.maxBleToHostDepth
  toBle := h.toBle
  toHost := rfl
  rewound := h.rewound
  hostRewound := rfl

theorem sameCounts_disconnected (l : Ledger) (reason : Nat) : SameCounts l (l.next (.disconnected reason)) := by
  rw [Ledger.next]
  split
  · exact .refl l
  · exact ⟨l.closeRequested, l.unexpected + 1, rfl⟩

theorem Truthful.lost (h : t.Truthful) (reason : Nat) (paused : Bool) :
    (Traffic.clearSession { t with conn := none, toBle := .empty, log := .h2bReset :: .disconnected reason :: t.log }
      paused).Truthful := by
  have hlost : (t.note (.disconnected reason)).Truthful := h.of_same rfl rfl rfl (sameCounts_disconnected _ reason)
  have hreset : Truthful ({ t with conn := none, toBle := .empty, log := .h2bReset :: .disconnected reason :: t.log } : Traffic) :=
    { writeOps := hlost.writeOps
      bytesHostToBle := hlost.bytesHostToBle
      notifyOps := hlost.notifyOps
      bytesBleToHost := hlost.bytesBleToHost
      maxHostToBleDepth := hlost.maxHostToBleDepth
      maxBleToHostDepth := hlost.maxBleToHostDepth
      toBle := rfl
      toHost := hlost.toHost
      rewound := fun _ => rfl
      hostRewound := hlost.hostRewound }
  exact hreset.clearSession paused

/-- One step; of the writes only those of the AT parser are not counted. -/
theorem Truthful.step (h : t.Truthful) (hs : Step env command t t')
    (hn : command → (ledger t'.log).writes ≤ (ledger t.log).writes) (hp : PutsFit t'.log) : t'.Truthful := by
  cases hs with
  | commanded w result hw hr =>
      obtain ⟨hstats, hb, hh⟩ := issue_stats t w result
      refine h.of_same hstats hb hh ?_
      rw [ledger_issue]
      split
      · rename_i hok
        have hle := hn (hr hok)
        rw [ledger_issue, if_pos hok] at hle
        exact absurd hle (Nat.not_succ_le_self _)
      · exact .refl _
  | pumped w n hd hw =>
      generalize env.answer n = result
      by_cases hok : result = 0
      · subst hok
        exact h.accepted w hd _
      · obtain ⟨hstats, hb, hh⟩ := issue_stats t.claim w result
        refine h.failed hstats hb hh ?_ t.chunk hok _
        rw [ledger_issue, if_neg hok]
        rfl
  | refused result hr => exact h.failed (u := t.claim) rfl rfl rfl rfl t.chunk hr _
  | receive payload => exact h.receive payload
  | putToBle data => exact h.putToBle data hp
  | full data => exact h.full data
  | putToHost data => exact h.putToHost data
  | drain accept => exact h.drain accept
  | clearSession paused => exact h.clearSession paused
  | create conn minInterval maxInterval latency timeout result =>
      refine h.of_same rfl rfl rfl ?_
      rw [note, ledger, Ledger.next]
      split
      · exact ⟨false, (ledger t.log).unexpected, rfl⟩
      · exact .refl _
  | disconnect conn result =>
      refine h.of_same rfl rfl rfl ?_
      rw [note, ledger, Ledger.next]
      split
      · exact ⟨true, (ledger t.log).unexpected, rfl⟩
      · exact .refl _
  | _ => exact h.of_same rfl rfl rfl (.refl _)

theorem Step.log_suffix (hs : Step env command t t') : t.log <:+ t'.log := by
  have hissue : ∀ (u : Traffic) (w : Write) (result : Int), u.log <:+ (u.issue w result).log := by
    intro u w result
    rw [issue_log]
    exact List.suffix_cons _ _
  have hfinish : ∀ (u : Traffic) (chunk : List Byte) (result : Int) (ahead : Nat),
      u.log <:+ (u.finish chunk result ahead).log := by
    intro u chunk result ahead
    rw [finish_log]
    exact List.suffix_cons _ _
  cases hs with
  | mtu => exact List.suffix_refl _
  | refit => exact List.suffix_refl _
  | commanded w result => exact hissue t w result
  | pumped w n => exact (hissue t.claim w (env.answer n)).trans (hfinish _ _ _ _)
  | refused result => exact hfinish t.claim _ _ _
  | _ => exact List.suffix_cons _ _

/-- The steps of one event. -/
theorem Truthful.steps (h : t.Truthful) (hs : Steps env command t t')
    (hn : command → (ledger t'.log).writes ≤ (ledger t.log).writes) (hp : PutsFit t'.log) : t'.Truthful := by
  have hkept := Runs.guarded_invariant (R := Step env command)
    (G := fun u => (command → (ledger u.log).writes ≤ (ledger t.log).writes) ∧ PutsFit u.log)
    (P := fun u => (ledger t.log).writes ≤ (ledger u.log).writes ∧ u.Truthful)
    (fun hab hb => ⟨fun hc => (ledger_writes_le hab.log_suffix).trans (hb.1 hc), hb.2.of_suffix hab.log_suffix⟩)
    (fun hab hb ha => ⟨ha.1.trans (ledger_writes_le hab.log_suffix),
      ha.2.step hab (fun hc => (hb.1 hc).trans ha.1) hb.2⟩)
    hs ⟨Nat.le_refl _, h⟩ ⟨hn, hp⟩
  exact hkept.2

end Traffic

/-! ## Runs -/

theorem Traffic.Truthful.report (h : s.traffic.Truthful) (e : Event) : (s.report e).Truthful := by
  unfold App.report
  split
  · exact h.of_same rfl rfl rfl (.refl _)
  · split
    · exact h.of_same rfl rfl rfl (.refl _)
    · exact h
  · rename_i reason conn _
    have hcount : (s.traffic.countDisconnect reason).Truthful := by
      unfold Traffic.countDisconnect
      split
      · exact ⟨h.writeOps, h.bytesHostToBle, h.notifyOps, h.bytesBleToHost, h.maxHostToBleDepth, h.maxBleToHostDepth,
          h.toBle, h.toHost, h.rewound, h.hostRewound⟩
      · exact h
    have hreset : (s.traffic.countDisconnect reason).cleared.refit.Truthful := hcount.of_same rfl rfl rfl (.refl _)
    exact hreset.lost reason s.controlRxPaused
  · exact h.of_same rfl rfl rfl (.refl _)
  · exact h.of_same rfl rfl rfl (.refl _)
  · exact h

theorem ledger_report_writes (s : App) (e : Event) : (ledger (s.report e).log).writes = (ledger s.log).writes := by
  have hfilter : ledger s.traffic.log = ledger s.log := ledger_filter s.log
  rw [← hfilter]
  unfold App.report
  split
  · rfl
  · split
    · rfl
    · rfl
  · rename_i reason conn _
    obtain ⟨closeRequested, unexpected, hl⟩ := Traffic.sameCounts_disconnected (ledger s.traffic.log) reason
    rw [Traffic.closed_log]
    change ((((ledger s.traffic.log).next (.disconnected reason)).next .h2bReset).next (.clear _)).writes = _
    rw [hl]
    rfl
  · rfl
  · rfl
  · rfl

theorem truthful_step {f : Firmware} (h : Reachable env f) (e : Event) (ht : f.app.traffic.Truthful)
    (hn : NoCommandWrite env f e) (hp : PutsFit (step env f e).app.log) : (step env f e).app.traffic.Truthful := by
  refine (ht.report e).steps (step_traffics env h.linkHeld e) (fun hc => ?_) (putsFit_filter hp)
  have hnews : (ledger (step env f e).app.log).writes = (ledger f.app.log).writes := by
    rw [news_append env h e, ledger_writes_of_none (hn hc)]
  rw [ledger_report_writes, ← hnews]
  exact (congrArg Ledger.writes (ledger_filter _)).le

theorem truthful_boot (config : BleHostConfig) (started : Int) (dtr : Bool) :
    (boot config started dtr).app.traffic.Truthful := by
  constructor
  all_goals intros; rfl

theorem countersTruthful_of_traffic (h : s.traffic.Truthful) : CountersTruthful s := by
  have hl : ledger s.traffic.log = ledger s.log := ledger_filter s.log
  constructor
  · rw [← hl]; exact h.writeOps
  · rw [← hl]; exact h.bytesHostToBle
  · rw [← hl]; exact h.notifyOps
  · rw [← hl]; exact h.bytesBleToHost
  · rw [← hl]; exact h.maxHostToBleDepth
  · rw [← hl]; exact h.maxBleToHostDepth
  · rw [← hl]; exact h.toBle
  · rw [← hl]; exact h.toHost

/-- The counters of a run without writes of the AT parser and without new depths behind a waiting chunk. -/
theorem counters_truthful (env : Env) (config : BleHostConfig) (started : Int) (dtr : Bool) (es : List Event)
    (hn : Runs.Along (NoCommandWrite env) (step env) (boot config started dtr) es)
    (hp : PutsFit (Runs.run (step env) (boot config started dtr) es).app.log) :
    CountersTruthful (Runs.run (step env) (boot config started dtr) es).app := by
  have hrun : ∀ (es : List Event) (f : Firmware), Reachable env f → f.app.traffic.Truthful →
      Runs.Along (NoCommandWrite env) (step env) f es → PutsFit (Runs.run (step env) f es).app.log →
      (Runs.run (step env) f es).app.traffic.Truthful := by
    intro es
    induction es with
    | nil => exact fun _ _ ht _ _ => ht
    | cons e es ih =>
        intro f hf ht hn hp
        have hnext : Reachable env (step env f e) := hf.next env e
        have hfits : PutsFit (step env f e).app.log := hp.of_suffix (hnext.log_suffix es)
        exact ih (step env f e) hnext (truthful_step hf e ht hn.1 hfits) hn.2 hp
  exact countersTruthful_of_traffic (hrun es _ ⟨config, started, dtr, [], rfl⟩ (truthful_boot config started dtr) hn hp)

/-! ## Unexpected disconnects -/

namespace Traffic

/-- The steps of a handler see no disconnect. -/
theorem Step.unexpected {t t' : Traffic} {command : Prop} (hs : Step env command t t') :
    t'.stats.unexpectedDisconnectCount = t.stats.unexpectedDisconnectCount ∧
      (ledger t'.log).unexpected = (ledger t.log).unexpected := by
  have hissue : ∀ (u : Traffic) (w : Write) (result : Int),
      (u.issue w result).stats.unexpectedDisconnectCount = u.stats.unexpectedDisconnectCount ∧
        (ledger (u.issue w result).log).unexpected = (ledger u.log).unexpected := by
    intro u w result
    rw [(issue_stats u w result).1, ledger_issue]
    split
    · exact ⟨rfl, rfl⟩
    · exact ⟨rfl, rfl⟩
  have hfinish : ∀ (u : Traffic) (chunk : List Byte) (result : Int) (ahead : Nat),
      (u.finish chunk result ahead).stats.unexpectedDisconnectCount = u.stats.unexpectedDisconnectCount ∧
        (ledger (u.finish chunk result ahead).log).unexpected = (ledger u.log).unexpected := by
    intro u chunk result ahead
    obtain ⟨_, _, hcount, he⟩ := finish_eq u chunk result ahead
    rw [he]
    refine ⟨hcount, ?_⟩
    rw [ledger, Ledger.next]
    split
    · rfl
    · rfl
  have hask : ∀ (u : Traffic) (o : Obs), (∀ l : Ledger, (l.next o).unexpected = l.unexpected) →
      (u.note o).stats.unexpectedDisconnectCount = u.stats.unexpectedDisconnectCount ∧
        (ledger (u.note o).log).unexpected = (ledger u.log).unexpected := fun u o ho => ⟨rfl, ho _⟩
  cases hs with
  | commanded w result => exact hissue t w result
  | pumped w n =>
      obtain ⟨hstats, hl⟩ := hfinish (t.claim.issue w (env.answer n)) t.chunk (env.answer n) t.toBle.claimed
      obtain ⟨hstats', hl'⟩ := hissue t.claim w (env.answer n)
      exact ⟨hstats.trans hstats', hl.trans hl'⟩
  | refused result => exact hfinish t.claim _ _ _
  | create conn minInterval maxInterval latency timeout result =>
      refine hask t _ fun l => ?_
      rw [Ledger.next]
      split
      · rfl
      · rfl
  | disconnect conn result =>
      refine hask t _ fun l => ?_
      rw [Ledger.next]
      split
      · rfl
      · rfl
  | _ => exact ⟨rfl, rfl⟩

theorem Steps.unexpected {t t' : Traffic} {command : Prop} (hs : Steps env command t t') :
    t'.stats.unexpectedDisconnectCount = t.stats.unexpectedDisconnectCount ∧
      (ledger t'.log).unexpected = (ledger t.log).unexpected :=
  Runs.invariant (P := fun u => u.stats.unexpectedDisconnectCount = t.stats.unexpectedDisconnectCount ∧
      (ledger u.log).unexpected = (ledger t.log).unexpected)
    (fun hab ha => ⟨hab.unexpected.1.trans ha.1, hab.unexpected.2.trans ha.2⟩) hs ⟨rfl, rfl⟩

end Traffic

/-- What a disconnect adds to the counter and to the ledger. -/
theorem closed_unexpected (t : Traffic) (reason : Nat) (paused : Bool) :
    (t.closed reason paused).stats.unexpectedDisconnectCount =
        (if reason ≠ REMOTE_USER_TERM_CONN then addU32 t.stats.unexpectedDisconnectCount 1
          else t.stats.unexpectedDisconnectCount) ∧
      (ledger (t.closed reason paused).log).unexpected =
        (ledger t.log).unexpected + if (ledger t.log).closeRequested then 0 else 1 := by
  constructor
  · unfold Traffic.closed Traffic.countDisconnect
    split
    · rfl
    · rfl
  · rw [Traffic.closed_log]
    simp only [List.cons_append, List.nil_append, ledger, Ledger.next]
    split
    · rfl
    · rfl

/-- A step keeps the count right exactly if it is no disconnect whose reason misleads. -/
theorem unexpectedCounted_step {f : Firmware} (h : Reachable env f) (e : Event) (hc : UnexpectedCounted f.app) :
    UnexpectedCounted (step env f e).app ↔ ReasonTells f e := by
  obtain ⟨hcount, hledger⟩ := (step_traffics env h.linkHeld e).unexpected
  have hnow : (ledger f.app.traffic.log).unexpected = (ledger f.app.log).unexpected ∧
      (ledger f.app.traffic.log).closeRequested = (ledger f.app.log).closeRequested := by
    rw [show ledger f.app.traffic.log = ledger f.app.log from ledger_filter f.app.log]
    exact ⟨rfl, rfl⟩
  have hnext : (ledger (step env f e).app.traffic.log) = ledger (step env f e).app.log :=
    ledger_filter (step env f e).app.log
  have hiff : UnexpectedCounted (step env f e).app ↔
      (f.app.report e).stats.unexpectedDisconnectCount = (ledger (f.app.report e).log).unexpected % 2 ^ 32 := by
    rw [← hcount, ← hledger, hnext]
    exact Iff.rfl
  rw [hiff]
  have hc : f.app.traffic.stats.unexpectedDisconnectCount = (ledger f.app.log).unexpected % 2 ^ 32 := hc
  by_cases hlost : ∃ reason conn, e = .disconnected reason ∧ f.app.link = .up conn
  · obtain ⟨reason, conn, rfl, hl⟩ := hlost
    have hreport : f.app.report (.disconnected reason) = f.app.traffic.closed reason f.app.controlRxPaused := by
      simp only [App.report, hl]
    have htells : ReasonTells f (.disconnected reason) ↔
        (reason = REMOTE_USER_TERM_CONN ↔ (ledger f.app.log).closeRequested) := by
      constructor
      · exact fun ht => ht reason conn rfl hl
      · rintro ht _ _ ⟨⟩ _
        exact ht
    obtain ⟨hstats, hl⟩ := closed_unexpected f.app.traffic reason f.app.controlRxPaused
    rw [hreport, htells, hstats, hl, hnow.1, hnow.2, hc, addU32]
    generalize (ledger f.app.log).unexpected = n
    by_cases hreason : reason = REMOTE_USER_TERM_CONN
    · rw [if_neg (not_not.mpr hreason)]
      cases (ledger f.app.log).closeRequested with
      | false => exact iff_of_false (by simp only [Bool.false_eq_true, if_false]; omega) (by simp [hreason])
      | true => exact iff_of_true rfl (by simp [hreason])
    · rw [if_pos hreason]
      cases (ledger f.app.log).closeRequested with
      | false => exact iff_of_true (by simp only [Bool.false_eq_true, if_false]; omega) (by simp [hreason])
      | true => exact iff_of_false (by simp only [if_true]; omega) (by simp [hreason])
  · have hreport : (f.app.report e).stats.unexpectedDisconnectCount = f.app.traffic.stats.unexpectedDisconnectCount ∧
        (f.app.report e).log = f.app.traffic.log := by
      unfold App.report
      split
      · exact ⟨rfl, rfl⟩
      · split
        · exact ⟨rfl, rfl⟩
        · exact ⟨rfl, rfl⟩
      · rename_i reason conn hl
        exact absurd ⟨reason, conn, rfl, hl⟩ hlost
      · exact ⟨rfl, rfl⟩
      · exact ⟨rfl, rfl⟩
      · exact ⟨rfl, rfl⟩
    rw [hreport.1, hreport.2, hnow.1]
    exact iff_of_true hc fun reason conn he hl => absurd ⟨reason, conn, he, hl⟩ hlost

theorem unexpected_counted_iff (env : Env) (config : BleHostConfig) (started : Int) (dtr : Bool) (es : List Event) :
    (∀ es', es' <+: es → UnexpectedCounted (Runs.run (step env) (boot config started dtr) es').app) ↔
      Runs.Along ReasonTells (step env) (boot config started dtr) es :=
  Runs.along_iff (I := Reachable env) (Q := fun f => UnexpectedCounted f.app) (fun _ e h => h.next env e)
    (fun _ e h hc => unexpectedCounted_step h e hc) ⟨config, started, dtr, [], rfl⟩ rfl es

/-! ## Runs that show the difference -/

/-- A stream of two bytes each way; a payload of the host and the end of the connection at the request of the host. -/
theorem streams_observed :
    let env := stackRefusing []
    let stream : List Event := becomeReady ++ (enterDataMode 3000 ++
      [hostSends "hi" 5000, .bleWriteCoalesceWork, .bleWriteWork, .notify (some (ascii "yo"))])
    let sent := runReady env [hostSends "AT+SEND=0,2\r\n" 10, hostSends "hi" 20]
    let ended := Runs.run (step env) sent [hostSends "AT+DISCON=0\r\n" 30, .disconnected 0x16]
    (Runs.Along (NoCommandWrite env) (step env) (boot sampleConfig 0 true) stream ∧
      PutsFit (Runs.run (step env) (boot sampleConfig 0 true) stream).app.log) ∧
    (sent.app.streamStats.writeOps = 0 ∧ (ledger sent.app.log).writes = 1) ∧
    ended.app.streamStats.unexpectedDisconnectCount = 1 ∧ (ledger ended.app.log).unexpected = 0 := by
  decide +kernel

theorem counters_truthful_stream :
    CountersTruthful (Runs.run (step (stackRefusing [])) (boot sampleConfig 0 true) (becomeReady ++ (enterDataMode 3000 ++
      [hostSends "hi" 5000, .bleWriteCoalesceWork, .bleWriteWork, .notify (some (ascii "yo"))]))).app :=
  counters_truthful (stackRefusing []) sampleConfig 0 true _ streams_observed.1.1 streams_observed.1.2

/-- A payload that the stack has accepted is not counted. -/
theorem payload_not_counted :
    ¬CountersTruthful (runReady (stackRefusing []) [hostSends "AT+SEND=0,2\r\n" 10, hostSends "hi" 20]).app := by
  intro h
  obtain ⟨hshown, hwrites⟩ := streams_observed.2.1
  have hcount := h.writeOps
  rw [hshown, hwrites] at hcount
  cases hcount

/-- A connection that ends at the request of the host is counted. -/
theorem requested_close_counted :
    let f := Runs.run (step (stackRefusing [])) (runReady (stackRefusing []) [hostSends "AT+SEND=0,2\r\n" 10, hostSends "hi" 20])
      [hostSends "AT+DISCON=0\r\n" 30, .disconnected 0x16]
    Reachable (stackRefusing []) f ∧ ¬UnexpectedCounted f.app := by
  constructor
  · rw [Runs.run_cons, Runs.run_cons, Runs.run_nil]
    exact ((reachable_runReady _ _).next _ _).next _ _
  · intro h
    obtain ⟨hshown, hunexpected⟩ := streams_observed.2.2
    have hcount := hshown.symm.trans (h.trans (congrArg (· % 2 ^ 32) hunexpected))
    cases hcount

end BleAtHost.Main
