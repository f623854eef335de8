import BleAtHost.Bridge.Lemmas.Queue
import BleAtHost.Main.Lemmas.Refinement

/-!
# Delivery to the peer

The bytes whose send returned 0 against the bytes that were put in `host_to_ble_ring`, on one connection and
across the sessions of data mode.
-/

namespace BleAtHost.Main

/-! ## Order on a connection -/

/-- What was accepted on this connection is a beginning of what was put. -/
def DeliveredInOrder (log : List Obs) : Prop :=
  collect Obs.accepted (connection log) <+: collect Obs.stored (connection log)

/-- The order is right as long as no chunk is accepted while the claimed head is ahead of the consumed tail. -/
theorem delivered_in_order (env : Env) {f : Firmware} (h : Reachable env f) (hr : Rewound f.app.log) :
    DeliveredInOrder f.app.log := by
  obtain ⟨started, hs⟩ := Queue.of_reachable (h.bridge env)
  have hordered : Queue.Ordered (Queue.ofBridge (f.app.bridge 0)) := Queue.ordered hs hr
  exact ⟨f.app.hostToBleRing.data, hordered.symm⟩

/-- The peer accepts `ab` and then `cd`. -/
def twoChunks : List Event :=
  [hostSends "ab" 4000, .bleWriteCoalesceWork, .bleWriteWork, hostSends "cd" 4001, .bleWriteCoalesceWork, .bleWriteWork]

theorem two_chunks_observed :
    Rewound (runDataMode (stackRefusing []) twoChunks).app.log ∧
      ¬DeliveredInOrder (runDataMode (stackRefusing [7]) twoChunks).app.log := by
  unfold Rewound DeliveredInOrder
  decide +kernel

theorem delivered_in_order_two_chunks :
    DeliveredInOrder (runDataMode (stackRefusing []) twoChunks).app.log :=
  delivered_in_order (stackRefusing []) (reachable_runDataMode _ _) two_chunks_observed.1

/-- The first chunk is refused for lack of memory: `cd` is sent, and `ab` is consumed for it. -/
theorem delivery_skips_refused_chunk :
    Reachable (stackRefusing [7]) (runDataMode (stackRefusing [7]) twoChunks) ∧
      ¬DeliveredInOrder (runDataMode (stackRefusing [7]) twoChunks).app.log :=
  ⟨reachable_runDataMode _ _, two_chunks_observed.2⟩

/-! ## Sessions -/

/-- Data mode begins with nothing in the ring, and what is sent was put in the same session. -/
def SessionsSeparate (log : List Obs) : Prop :=
  (∀ now left, .enter now left ∈ log → left = []) ∧
    ∀ chunk result ahead before, .write chunk result ahead :: before <:+ log →
      chunk <:+: collect Obs.stored (session before)

/-- Sessions do not mix as long as no escape exit leaves bytes in the ring. -/
theorem sessions_separate (env : Env) {f : Firmware} (h : Reachable env f) (hd : DrainedExits f.app.log) :
    SessionsSeparate f.app.log := by
  have hb := h.bridge env
  have hempty : Queue.EnteredEmpty f.app.log := (hb.emptied hd).entered
  obtain ⟨started, hs⟩ := Queue.of_reachable hb
  have hsep : Queue.Separate (Queue.ofBridge (f.app.bridge 0)) := Queue.separate hs hempty
  exact ⟨hempty, fun chunk result ahead before hw => hsep.sent hw⟩

/-- Two sessions with an escape exit between them. -/
def twoSessions : List Event :=
  [hostSends "ab" 4000, .bleWriteCoalesceWork, .bleWriteWork, hostSends "+++" 6000, .escapeGuardWork 7000] ++
    enterDataMode 8000 ++
    [hostSends "c" 9000, .bleWriteCoalesceWork, .bleWriteWork, .bleWriteCoalesceWork, .bleWriteWork]

theorem two_sessions_observed :
    DrainedExits (runDataMode (stackRefusing []) twoSessions).app.log ∧
      .enter 8000 (ascii "ab") ∈ (runDataMode (stackRefusing [7]) twoSessions).app.log ∧
      .write (ascii "bc") 0 0 ∈ session (runDataMode (stackRefusing [7]) twoSessions).app.log ∧
      collect Obs.stored (session (runDataMode (stackRefusing [7]) twoSessions).app.log) = ascii "c" := by
  unfold DrainedExits
  decide +kernel

theorem sessions_separate_two_sessions : SessionsSeparate (runDataMode (stackRefusing []) twoSessions).app.log :=
  sessions_separate (stackRefusing []) (reachable_runDataMode _ _) two_sessions_observed.1

/-- `ab` is refused and still in the ring when the second session begins; its `b` is sent with `c`. -/
theorem refused_chunk_leaks :
    Reachable (stackRefusing [7]) (runDataMode (stackRefusing [7]) twoSessions) ∧
      ¬SessionsSeparate (runDataMode (stackRefusing [7]) twoSessions).app.log ∧
      (.write (ascii "bc") 0 0) ∈ session (runDataMode (stackRefusing [7]) twoSessions).app.log ∧
      (collect Obs.stored (session (runDataMode (stackRefusing [7]) twoSessions).app.log)) = ascii "c" := by
  obtain ⟨_, henter, hwrite, hstored⟩ := two_sessions_observed
  refine ⟨reachable_runDataMode _ _, fun h => ?_, hwrite, hstored⟩
  have hnil := h.1 _ _ henter
  revert hnil
  decide

end BleAtHost.Main
