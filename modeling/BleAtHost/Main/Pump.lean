import BleAtHost.Main.Profile

/-!
# The write pump

The part of `main.c` that takes bytes from `host_to_ble_ring` and gives them to the profile manager.
-/

namespace BleAtHost.Main

section
variable (env : Env)

/-- `schedule_ble_write_pump(K_MSEC(2))` after an error that is retried. -/
def IsRetried (err : Int) : Prop := err = -ENOMEM ∨ err = -EAGAIN ∨ err = -EBUSY ∨ err = -EACCES

instance (err : Int) : Decidable (IsRetried err) := inferInstanceAs (Decidable (_ ∨ _ ∨ _ ∨ _))

/-- The chunk that one pass of the loop sends: a claim of at most the payload length, cut to the buffer. -/
def App.nextChunk (s : App) : List Byte := (s.hostToBleRing.getClaim s.pm.payloadLen).1.take BLE_HOST_SEND_MAX_LEN

/-- The claim and the send of one pass. -/
def sendChunk (s : App) : Int × App :=
  let chunk := s.nextChunk
  let ahead := s.hostToBleRing.claimed
  let s := { s with hostToBleRing := (s.hostToBleRing.getClaim s.pm.payloadLen).2 }
  let (err, s) := profileManagerSend env s chunk
  (err, s.note (.write chunk err ahead))

/-- What one pass does after a send that succeeded. -/
def finishChunk (s : App) (claimLen : Nat) : App :=
  refreshUartRxFlowControl
    { s with
      hostToBleRing := (s.hostToBleRing.getFinish claimLen).2
      streamStats :=
        { s.streamStats with
          bytesHostToBle := addU32 s.streamStats.bytesHostToBle claimLen
          writeOps := addU32 s.streamStats.writeOps 1 }
      dataModeTxFlushDue := false }

/-- The loop of `ble_write_work_handler`. A pass that goes on has consumed at least one byte, so the number of
stored bytes bounds the passes. -/
def bleWriteLoop : Nat → App → App
  | 0, s => s
  | passes + 1, s =>
      if s.currentConn = none ∨ !profileManagerCanEnterDataMode s.pm then s
      else if s.hostToBleRing.sizeGet = 0 then { s with dataModeTxFlushDue := false }
      else if s.appState = .dataMode ∧ s.hostToBleRing.sizeGet < s.pm.payloadLen ∧ !s.dataModeTxFlushDue then
        { s with bleWriteCoalesceWork := true }
      else if s.nextChunk = [] then { s with hostToBleRing := (s.hostToBleRing.getClaim s.pm.payloadLen).2 }
      else
        let claimLen := s.nextChunk.length
        let (err, s) := sendChunk env s
        if err = 0 then bleWriteLoop passes (finishChunk s claimLen)
        else if IsRetried err then { s with bleWriteRetryWork := true }
        else s

def bleWriteWorkHandler (s : App) : App := bleWriteLoop env (s.hostToBleRing.data.length + 1) s

end

def bleWriteCoalesceWorkHandler (s : App) : App := { s with dataModeTxFlushDue := true, bleWriteWork := true }

def bleWriteRetryWorkHandler (s : App) : App := { s with bleWriteWork := true }

end BleAtHost.Main
