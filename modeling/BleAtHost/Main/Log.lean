import BleAtHost.Main.Stream

/-!
# Histories

What a log says about a connection, a session and the way into data mode. A log is a list of observations, the
newest first, so "the log at that time" is a suffix.
-/

namespace BleAtHost.Main

/-! ## Spans -/

/-- Since data mode was entered. -/
@[simp] def session : List Obs → List Obs
  | [] => []
  | .enter _ _ :: _ => []
  | o :: log => o :: session log

/-- Since `host_to_ble_ring` was reset, that is, on this connection. -/
@[simp] def connection : List Obs → List Obs
  | [] => []
  | .h2bReset :: _ => []
  | o :: log => o :: connection log

/-- Since a connection was opened. -/
def sinceConnected (log : List Obs) : List Obs := log.takeWhile (· ≠ .connected 0)

/-- The time at which data mode was entered. -/
@[simp] def sessionStart : List Obs → Int
  | [] => 0
  | .enter now _ :: _ => now
  | _ :: log => sessionStart log

/-- `Q` holds of every observation together with what came before it. -/
@[simp] def Past (Q : Obs → List Obs → Prop) : List Obs → Prop
  | [] => True
  | o :: log => Q o log ∧ Past Q log

/-! ## Byte streams -/

/-- The bytes that the observations carry, in the order of time. -/
@[simp] def collect (f : Obs → List Byte) : List Obs → List Byte
  | [] => []
  | o :: log => collect f log ++ f o

/-- Bytes that were to be put in `host_to_ble_ring`. -/
def Obs.offered : Obs → List Byte
  | .h2bPut offered _ => offered
  | _ => []

/-- Bytes that were put in `host_to_ble_ring`. -/
def Obs.stored : Obs → List Byte
  | .h2bPut _ stored => stored
  | _ => []

/-- Bytes whose send returned 0. -/
def Obs.accepted : Obs → List Byte
  | .write chunk result _ => if result = 0 then chunk else []
  | _ => []

/-- Bytes of a notification. -/
def Obs.notified : Obs → List Byte
  | .notify payload => payload
  | _ => []

/-- Bytes accepted by `uart_fifo_fill`. -/
def Obs.filled : Obs → List Byte
  | .fill _ bytes => bytes
  | _ => []

/-- The host bytes with the times at which they were taken up, the newest first. -/
@[simp] def hostBytes : List Obs → List (Byte × Int)
  | [] => []
  | .rx b _ _ :: log => (b.ch, b.now) :: hostBytes log
  | _ :: log => hostBytes log

/-- The host bytes in the order of time. -/
def received (log : List Obs) : List Byte := ((hostBytes log).map Prod.fst).reverse

/-- The readings of `k_uptime_get`, the newest first. -/
@[simp] def uptimes : List Obs → List Int
  | [] => []
  | .uptime now :: log => now :: uptimes log
  | _ :: log => uptimes log

/-- The clock never goes back. -/
def ClockForward (log : List Obs) : Prop := (uptimes log).Pairwise (· ≥ ·)

/-- What the escape detection saw. -/
@[simp] def history : List Obs → List (Detector.Input Byte)
  | [] => []
  | .rx b _ _ :: log => .rx b.ch b.now b.flushNow :: history log
  | .guard now :: log => .fire now :: history log
  | _ :: log => history log

/-! ## The way into data mode -/

/-- The number of bytes that wait in `ctrl_tx_ring`. -/
@[simp] def queued : List Obs → Nat
  | [] => 0
  | .ctrlPut _ stored :: log => queued log + stored.length
  | .fill true bytes :: log => queued log - bytes.length
  | _ :: log => queued log

inductive Handover where
  | idle
  /-- `AT+ENTERDATAMODE` is accepted, the line `+IND=DATAMODE,1` is not queued as a whole. -/
  | accepted
  /-- The line is queued; its last byte is the `left`-th that waits. -/
  | announced (left : Nat)
  /-- The last byte of the line has been accepted by `uart_fifo_fill`. -/
  | shown
deriving DecidableEq, Repr

/-- `waiting` is the number of bytes in `ctrl_tx_ring`. -/
def Handover.next (h : Handover) (waiting : Nat) : Obs → Handover
  | .enterAccepted => .accepted
  | .ctrlLine line true => if h = .accepted ∧ line = dataModeLine true then .announced waiting else h
  | .fill true bytes =>
      match h with
      | .announced left => if left ≤ bytes.length then .shown else .announced (left - bytes.length)
      | h => h
  -- data mode is entered before the line is queued as a whole: it is never shown
  | .enter _ _ => if h = .accepted then .idle else h
  | .exit _ _ => .idle
  | .disconnected _ => .idle
  | _ => h

@[simp] def handover : List Obs → Handover
  | [] => .idle
  | o :: log => (handover log).next (queued log) o

/-! ## Conditions on a history

Each says of every observation that it does not show the start of one of the defects. -/

instance Past.decidable {Q : Obs → List Obs → Prop} [∀ o log, Decidable (Q o log)] :
    (log : List Obs) → Decidable (Past Q log)
  | [] => isTrue trivial
  | _ :: log => @instDecidableAnd _ _ inferInstance (Past.decidable log)

/-- A chunk that was accepted had been claimed with the claimed head at the consumed tail. -/
def Obs.sentFromTail : Obs → Bool
  | .write _ result ahead => result ≠ 0 || ahead == 0
  | _ => true

/-- A chunk was read only if the pluses held back fit into the ring with it. -/
def Obs.readWithRoom : Obs → Bool
  | .dataRx bytes space held => bytes.length + held ≤ space
  | _ => true

/-- A plus that finds three pluses held back reads the same time when they are flushed. -/
def Obs.steady : Obs → Bool
  | .rx b held _ => !(held == 3 && b.ch == PLUS) || b.flushNow == b.now
  | _ => true

def Obs.isCallback : Obs → Bool
  | .callback _ => true
  | _ => false

def Obs.isCtrlPut : Obs → Bool
  | .ctrlPut _ _ => true
  | _ => false

/-- An escape exit left nothing behind in `host_to_ble_ring`. -/
def Obs.drained : Obs → Bool
  | .exit _ left => left == []
  | _ => true

/-- A put into `host_to_ble_ring` found room. -/
def Obs.putWhole : Obs → Bool
  | .h2bPut offered stored => stored == offered
  | _ => true

/-- A notification found room in `ble_to_host_ring`. -/
def Obs.foundRoom : Obs → Bool
  | .b2hPut offered stored => stored == offered
  | _ => true

def Handover.isAnnounced : Handover → Bool
  | .announced _ => true
  | _ => false

def Rewound (log : List Obs) : Prop := ∀ o ∈ connection log, o.sentFromTail

/-- The session was never cleared while the receiver was stopped. -/
def ClearedRunning (log : List Obs) : Prop := .clear true ∉ log

def ReadWithRoom (log : List Obs) : Prop := ∀ o ∈ log, o.readWithRoom

/-- Every put of these observations found room. -/
def PutWhole (log : List Obs) : Prop := ∀ o ∈ log, o.putWhole

def SteadyFlush (log : List Obs) : Prop := ∀ o ∈ log, o.steady

/-- No callback that queues a line has run in this session. -/
def NoCallback (log : List Obs) : Prop := ∀ o ∈ session log, !o.isCallback

/-- Every notification of this session found room. -/
def NoOverflow (log : List Obs) : Prop := ∀ o ∈ session log, o.foundRoom

/-- No control bytes were queued while the line that announces data mode was waiting. -/
def Uninterrupted (log : List Obs) : Prop :=
  Past (fun o before => o.isCtrlPut → !(handover before).isAnnounced) log

def DrainedExits (log : List Obs) : Prop := ∀ o ∈ log, o.drained

/-! ## Spans and streams of longer logs -/

theorem session_cons {o : Obs} (h : ∀ now left, o ≠ .enter now left) (log : List Obs) :
    session (o :: log) = o :: session log := by
  cases o with
  | enter now left => exact absurd rfl (h now left)
  | _ => rfl

theorem connection_cons {o : Obs} (h : o ≠ .h2bReset) (log : List Obs) :
    connection (o :: log) = o :: connection log := by
  cases o with
  | h2bReset => exact absurd rfl h
  | _ => rfl

/-- Where a span of the session stands in the log. -/
theorem session_split {log newer before : List Obs} {o : Obs} (h : session log = newer ++ o :: before) :
    ∃ older, log = newer ++ o :: older ∧ session older = before ∧ sessionStart older = sessionStart log := by
  induction log generalizing newer with
  | nil => simp at h
  | cons o' log ih =>
      by_cases he : ∃ now left, o' = .enter now left
      · obtain ⟨now, left, rfl⟩ := he
        simp at h
      · have hne : ∀ now left, o' ≠ .enter now left := fun now left heq => he ⟨now, left, heq⟩
        have hstart : sessionStart (o' :: log) = sessionStart log := by
          cases o' with
          | enter now left => exact absurd rfl (hne now left)
          | _ => rfl
        rw [session_cons hne] at h
        rw [hstart]
        cases newer with
        | nil =>
            obtain ⟨rfl, hs⟩ := List.cons.inj h
            exact ⟨log, rfl, hs, rfl⟩
        | cons n newer =>
            obtain ⟨rfl, hs⟩ := List.cons.inj h
            obtain ⟨older, rfl, ho, hst⟩ := ih hs
            exact ⟨older, rfl, ho, hst⟩

theorem collect_stored {log : List Obs} (h : PutWhole log) : collect Obs.stored log = collect Obs.offered log := by
  induction log with
  | nil => rfl
  | cons o log ih =>
      have hrest := ih fun o' hm => h o' (List.mem_cons_of_mem _ hm)
      have ho := h o List.mem_cons_self
      cases o with
      | h2bPut offered stored =>
          have hw : stored = offered := by simpa [Obs.putWhole] using ho
          simp [Obs.stored, Obs.offered, hrest, hw]
      | _ => simpa [Obs.stored, Obs.offered] using hrest

theorem collect_append (f : Obs → List Byte) (new old : List Obs) :
    collect f (new ++ old) = collect f old ++ collect f new := by
  induction new with
  | nil => simp [collect]
  | cons o new ih => simp [collect, ih]

theorem history_append (new old : List Obs) : history (new ++ old) = history new ++ history old := by
  induction new with
  | nil => rfl
  | cons o new ih => cases o <;> simp [history, ih]

theorem arrivals_history (log : List Obs) : Detector.arrivals (history log) = hostBytes log := by
  induction log with
  | nil => rfl
  | cons o log ih => cases o <;> simp [history, hostBytes, Detector.arrivals, ih]

theorem received_history (log : List Obs) : Detector.received (history log) = received log := by
  simp [Detector.received, received, arrivals_history]

theorem mem_uptimes {now : Int} {log : List Obs} : now ∈ uptimes log ↔ .uptime now ∈ log := by
  induction log with
  | nil => simp [uptimes]
  | cons o log ih => cases o <;> simp [uptimes, ih]

theorem past_of_suffix {Q : Obs → List Obs → Prop} {o : Obs} {log rest : List Obs} (h : Past Q log)
    (hs : o :: rest <:+ log) : Q o rest := by
  induction log with
  | nil => cases List.suffix_nil.mp hs
  | cons o' log ih =>
      rcases List.suffix_cons_iff.mp hs with he | hs
      · obtain ⟨rfl, rfl⟩ := List.cons.inj he
        exact h.1
      · exact ih h.2 hs

theorem Past.of_suffix {Q : Obs → List Obs → Prop} {log log' : List Obs} (h : Past Q log') (hs : log <:+ log') :
    Past Q log := by
  induction log' with
  | nil => rw [List.suffix_nil.mp hs]; trivial
  | cons o log' ih =>
      rcases List.suffix_cons_iff.mp hs with he | hs
      · rw [he]; exact h
      · exact ih h.2 hs

theorem uptimes_append (new old : List Obs) : uptimes (new ++ old) = uptimes new ++ uptimes old := by
  induction new with
  | nil => rfl
  | cons o new ih => cases o <;> simp [ih]

theorem ClockForward.of_suffix {log log' : List Obs} (h : ClockForward log') (hs : log <:+ log') :
    ClockForward log := by
  obtain ⟨new, rfl⟩ := hs
  unfold ClockForward at h ⊢
  rw [uptimes_append] at h
  exact (List.pairwise_append.mp h).2.1

/-- A reading is not before the earlier ones. -/
theorem ClockForward.le {now t : Int} {log : List Obs} (h : ClockForward (.uptime now :: log))
    (ht : .uptime t ∈ log) : t ≤ now :=
  (List.pairwise_cons.mp h).1 t (mem_uptimes.mpr ht)

end BleAtHost.Main
