import BleAtHost.Client.Calls
import BleAtHost.Main.System
import BleAtHost.Main.Log

/-!
# The client and the firmware

The two threads of the client and the firmware, joined by two byte streams that lose nothing and keep the order.
Every party may act at any time; an event that is not possible leaves the state alone.
-/

namespace BleAtHost.Client

open Main

/-- What the world decides about an operation of the main thread: the clock, whether a wait for a queue has run out
of time, and how many of the bytes under way the operating system holds when they are discarded. -/
structure Choice where
  now : Int
  expired : Bool
  discarded : Nat
deriving DecidableEq, Repr

/-- `queue.get`: nothing is returned only if the queue is empty. -/
def getFrom {α : Type} (queue : List α) (expired : Bool) : Option (Option α × List α) :=
  match queue with
  | item :: rest => some (some item, rest)
  | [] => if expired then some (none, []) else none

/-- An operation of the main thread; `none` while it waits. -/
def perform (w : Choice) (c : Client) : (o : Op) → Option (Answer o × Client)
  | .write data => some ((), { c with output := c.output ++ data })
  | .resetInputBuffer => some ((), { c with input := c.input.drop w.discarded })
  | .monotonic => some (w.now, c)
  | .sleep _ => some ((), c)
  | .getLine _ => (getFrom c.lineQueue w.expired).map fun (line, rest) => (line, { c with lineQueue := rest })
  | .getLineNowait => (getFrom c.lineQueue true).map fun (line, rest) => (line, { c with lineQueue := rest })
  | .getData _ => (getFrom c.dataQueue w.expired).map fun (chunk, rest) => (chunk, { c with dataQueue := rest })
  | .clearLineBuffer => some ((), { c with lineBuffer := [] })
  | .dataModeIsSet => some (c.dataMode, c)
  | .setDataMode => some ((), { c with dataMode := true })
  | .clearDataMode => some ((), { c with dataMode := false })
  | .setExitPending => some ((), { c with exitPending := true })
  | .clearExitPending => some ((), { c with exitPending := false })

/-! ## Calls -/

inductive Call where
  | scan (durationS : Int) (pre : Str) (timeout : Int)
  | connect (mac : Str) (addrType : Int) (timeout : Int)
  | disconnect (timeout : Int)
  | send (payload : List Byte) (timeout : Int)
  | getStatus (timeout : Int)
  | setProfile (serviceUuid notifyUuid writeUuid : Str) (timeout : Int)
  | getProfile (timeout : Int)
  | getStreamStat (timeout : Int)
  | enterDataMode (timeout : Int)
  | drainStream (timeout : Int)
  | syncControlMode (timeout : Int) (attempts : Nat)
  | recoverControlMode (timeout guardTime : Int)
  | exitDataMode (timeout guardTime : Int)
  | writeStream (payload : List Byte)
  | readStream (timeout : Int)
deriving DecidableEq, Repr

/-- What the application does with a result is left open. -/
def ignore {α : Type} (p : Program α) : Program Unit := do
  let _ ← p

def Call.program : Call → Program Unit
  | .scan durationS pre timeout => ignore (Client.scan durationS pre timeout)
  | .connect mac addrType timeout => Client.connect mac addrType timeout
  | .disconnect timeout => Client.disconnect timeout
  | .send payload timeout => Client.send payload timeout
  | .getStatus timeout => ignore (Client.getStatus timeout)
  | .setProfile serviceUuid notifyUuid writeUuid timeout =>
      Client.setProfile serviceUuid notifyUuid writeUuid timeout
  | .getProfile timeout => ignore (Client.getProfile timeout)
  | .getStreamStat timeout => ignore (Client.getStreamStat timeout)
  | .enterDataMode timeout => Client.enterDataMode timeout
  | .drainStream timeout => ignore (Client.drainStream timeout)
  | .syncControlMode timeout attempts => Client.syncControlMode timeout attempts
  | .recoverControlMode timeout guardTime => Client.recoverControlMode timeout guardTime
  | .exitDataMode timeout guardTime => Client.exitDataMode timeout guardTime
  | .writeStream payload => Client.writeStream payload
  | .readStream timeout => ignore (Client.readStream timeout)

/-! ## Both parties -/

/-- Bytes that the receiver of the firmware has taken. -/
def taken : Obs → List Byte
  | .atRx bytes | .dataRx bytes _ _ => bytes
  | _ => []

/-- What the two logs differ by goes over the wires: `g` comes after `f`. -/
def exchange (c : Client) (f g : Firmware) : Client :=
  { c with
    input := c.input ++ (collect Obs.filled g.app.log).drop (collect Obs.filled f.app.log).length
    output := c.output.drop ((collect taken g.app.log).length - (collect taken f.app.log).length) }

/-- The receiver has the bytes that come next. -/
def Offered (c : Client) : Event → Prop
  | .uart _ (some data) => data.map RxByte.ch <+: c.output
  | _ => True

instance (c : Client) (e : Event) : Decidable (Offered c e) :=
  match e with
  | .uart _ (some _) => inferInstanceAs (Decidable (_ <+: _))
  | .uart _ none | .lineState _ | .bleWriteWork | .bleWriteRetryWork | .bleWriteCoalesceWork | .escapeGuardWork _
  | .scanStopWork | .deviceFound _ _ _ _ | .connected _ | .disconnected _ | .leParamUpdated _ _ _ | .attMtu _
  | .serviceDiscover _ | .characteristicDiscover _ | .subscribe _ | .notify _ | .exchange _ | .write _ =>
      isTrue trivial

/-- `main` is what the main thread still has to do. -/
structure Joint where
  fw : Firmware
  client : Client
  main : Program Unit

inductive JointEvent where
  | firmware (e : Event)
  | reader (n : Nat)
  | main (w : Choice)
  | call (call : Call)

/-- A call begins when the one before it has returned or raised. -/
def Program.ended {α : Type} : Program α → Bool
  | .pure _ | .raise _ => true
  | _ => false

def Joint.step (env : Env) (j : Joint) : JointEvent → Joint
  | .firmware e =>
      if Offered j.client e then
        { j with fw := Main.step env j.fw e, client := j.client.exchange j.fw (Main.step env j.fw e) }
      else j
  | .reader n => { j with client := j.client.readerStep n }
  | .main w =>
      let (client, main) := Prog.turn (perform w) j.client j.main
      { j with client := client, main := main }
  | .call call => if Program.ended j.main then { j with main := call.program } else j

/-- The client opens the port. -/
def Joint.start (f : Firmware) : Joint := ⟨f, .init, pure ()⟩

end BleAtHost.Client
