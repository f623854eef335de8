import Mathlib.Data.List.Pairwise
import BleAtHost.Main.System

/-!
# What a scan has seen

The reports that `device_found` let through since the radio was last asked to scan, next to the firmware, and the
cache and the announcements that they call for.
-/

namespace BleAtHost.Main

/-- A report that `device_found` lets through. -/
structure Sighting where
  addr : BtAddrLe
  rssi : Int
  name : Text
deriving DecidableEq, Repr

/-- The type and the name of a report are let through, and a scan is on. -/
def accepts (s : App) (type : Nat) (ad : List Byte) : Bool :=
  decide (s.appState = .scanning) && isReportedAdvType type &&
    matchesScanFilter s (parseDeviceName ad BLE_HOST_NAME_MAX_LEN)

/-! ## The log -/

def Obs.isScanStart : Obs → Bool
  | .stack .scanStart _ => true
  | _ => false

/-- How often the radio was asked to scan. -/
def scanStarts (log : List Obs) : Nat := log.countP Obs.isScanStart

def isScanLine (line : Text) : Bool := (ascii "+IND=SCDA,").isPrefixOf line

/-- The scan results announced since the radio was last asked to scan, the newest first. A line counts when it is handed to
`queue_ctrl_line`, stored whole or not. -/
def announced : List Obs → List Text
  | [] => []
  | .stack .scanStart _ :: _ => []
  | .ctrlLine line _ :: log => if isScanLine line then line :: announced log else announced log
  | _ :: log => announced log

/-! ## What is to be found in the cache -/

/-- The first sighting of every address, in order, as many as the cache has room for; in `seen` the newest comes
first. -/
def found (seen : List Sighting) : List Sighting :=
  (seen.pwFilter fun x y => x.addr ≠ y.addr).reverse.take MAX_SCANNED_DEVICES

def latestRssi (seen : List Sighting) (addr : BtAddrLe) : Int :=
  ((seen.find? fun x => x.addr == addr).map Sighting.rssi).getD 0

section
variable (env : Env)

def Sighting.entry (seen : List Sighting) (i : Nat) (x : Sighting) : ScannedDeviceEntry :=
  ⟨true, i, x.addr, env.btAddrToStr x.addr.val, snprintk BLE_HOST_NAME_MAX_LEN x.name, latestRssi seen x.addr⟩

/-- The entry at a place of the cache. -/
def slot (seen : List Sighting) (i : Nat) : ScannedDeviceEntry := ((found seen)[i]?).elim .zero (Sighting.entry env seen i)

/-- The line of `at_host_notify_scan_result`. -/
def Sighting.line (i : Nat) (x : Sighting) : Text :=
  snprintk 128 (ascii "+IND=SCDA," ++ decimal i ++ ascii "," ++ env.btAddrToStr x.addr.val ++ ascii "," ++
    snprintk BLE_HOST_NAME_MAX_LEN x.name ++ ascii "," ++ decimal (bleHostAddrTypeToWlt x.addr.type) ++ ascii "," ++
    signedDecimal x.rssi)

/-! ## Runs -/

/-- The sightings after an event. -/
def sightings (f : Firmware) (seen : List Sighting) (e : Event) : List Sighting :=
  match e with
  | .deviceFound addr rssi type ad =>
      if accepts f.app type ad then ⟨addr, rssi, parseDeviceName ad BLE_HOST_NAME_MAX_LEN⟩ :: seen else seen
  | e => if scanStarts f.app.log < scanStarts (step env f e).app.log then [] else seen

def watchScan (p : Firmware × List Sighting) (e : Event) : Firmware × List Sighting :=
  (step env p.1 e, sightings env p.1 p.2 e)

end

end BleAtHost.Main
