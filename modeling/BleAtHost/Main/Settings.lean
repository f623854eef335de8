import BleAtHost.Lib.KeyStore
import BleAtHost.Main.System

/-!
# Settings across reboots

`settings_handle_set` of `settings.c`, the load that calls it for every stored key, and the histories of updates,
power failures and reboots of which the stored configuration is the result.
-/

namespace BleAtHost.Main

/-- The initial value of `g_config`. -/
def defaultConfig : BleHostConfig where
  activeProfile := ⟨ascii "0xFFF0", ascii "0xFFF1", ascii "0xFFF2"⟩
  mtu := 259
  connIntervalMin := 6
  connIntervalMax := 9
  latency := 0
  timeout := 400
  autoMtu := true
  autoSubscribe := true
  prefer2mPhy := true
  preferDle := true
  allowDataMode := true
  streamGuardTimeMs := 1000

/-! ## Loading -/

/-- The names that `settings_handle_set` knows; only the saved ones are ever written. -/
inductive SettingsName where
  | saved (key : SettingsKey)
  | autoMtu
  | autoSubscribe
  | prefer2mPhy
  | preferDle
  | allowDataMode
  | streamGuardTimeMs
  | other
deriving DecidableEq, Repr

/-- `read_cb` into a variable: as many bytes as there are and fit replace the ones in memory. -/
def readInto (memory value : List Byte) : List Byte := value.take memory.length ++ memory.drop value.length

/-- The `uint16_t` that lies in memory as these bytes. -/
def fromLe16 : List Byte → Nat
  | [low, high] => low.toNat + 256 * high.toNat
  | _ => 0

def readU16 (old : Nat) (value : List Byte) : Nat := fromLe16 (readInto (le16 old) value)

def readBool (old : Bool) (value : List Byte) : Bool := readInto [if old then 1 else 0] value ≠ [0]

/-- The three UUID branches. A text that the normaliser refuses leaves the old one. -/
def readUuid (old : Text) (value : List Byte) : Int × Text :=
  if value.length = 0 ∨ BLE_HOST_UUID_STR_LEN ≤ value.length then (-EINVAL, old)
  else
    match bleHostNormalizeUuid (cString value) BLE_HOST_UUID_STR_LEN with
    | some text => (0, text)
    | none => (-EINVAL, old)

/-- `settings_handle_set`, with a `read_cb` that does not fail. -/
def settingsHandleSet (config : BleHostConfig) (name : SettingsName) (value : List Byte) : Int × BleHostConfig :=
  match name with
  | .saved .service =>
      let (rc, text) := readUuid config.activeProfile.serviceUuid value
      (rc, { config with activeProfile := { config.activeProfile with serviceUuid := text } })
  | .saved .notify =>
      let (rc, text) := readUuid config.activeProfile.notifyUuid value
      (rc, { config with activeProfile := { config.activeProfile with notifyUuid := text } })
  | .saved .write =>
      let (rc, text) := readUuid config.activeProfile.writeUuid value
      (rc, { config with activeProfile := { config.activeProfile with writeUuid := text } })
  | .saved .mtu => (0, { config with mtu := readU16 config.mtu value })
  | .saved .connMin => (0, { config with connIntervalMin := readU16 config.connIntervalMin value })
  | .saved .connMax => (0, { config with connIntervalMax := readU16 config.connIntervalMax value })
  | .saved .latency => (0, { config with latency := readU16 config.latency value })
  | .saved .timeout => (0, { config with timeout := readU16 config.timeout value })
  | .autoMtu => (0, { config with autoMtu := readBool config.autoMtu value })
  | .autoSubscribe => (0, { config with autoSubscribe := readBool config.autoSubscribe value })
  | .prefer2mPhy => (0, { config with prefer2mPhy := readBool config.prefer2mPhy value })
  | .preferDle => (0, { config with preferDle := readBool config.preferDle value })
  | .allowDataMode => (0, { config with allowDataMode := readBool config.allowDataMode value })
  | .streamGuardTimeMs => (0, { config with streamGuardTimeMs := readU16 config.streamGuardTimeMs value })
  | .other => (-ENOENT, config)

/-- `settings_load_subtree` on a store whose items come in this order; a refused item is skipped. -/
def settingsLoad (items : List (SettingsKey × List Byte)) : BleHostConfig :=
  items.foldl (fun config item => (settingsHandleSet config (.saved item.1) item.2).2) defaultConfig

/-! ## Histories -/

/-- A call of one of the update functions. -/
inductive Update where
  | profile (serviceUuid notifyUuid writeUuid : Text)
  | mtu (mtu : UInt16)
  | connParams (minInterval maxInterval latency timeout : UInt16)
deriving DecidableEq, Repr

/-- The three normalised texts of `ble_host_settings_update_profile`. -/
def normalizeProfile (serviceUuid notifyUuid writeUuid : Text) : Option BleProfile :=
  match bleHostNormalizeUuid serviceUuid BLE_HOST_UUID_STR_LEN,
    bleHostNormalizeUuid notifyUuid BLE_HOST_UUID_STR_LEN,
    bleHostNormalizeUuid writeUuid BLE_HOST_UUID_STR_LEN with
  | some serviceNorm, some notifyNorm, some writeNorm => some ⟨serviceNorm, notifyNorm, writeNorm⟩
  | _, _, _ => none

namespace Update

/-- What an accepted call puts into `g_config`; a rejected call has none. -/
def config (old : BleHostConfig) : Update → Option BleHostConfig
  | .profile serviceUuid notifyUuid writeUuid =>
      (normalizeProfile serviceUuid notifyUuid writeUuid).map fun profile => { old with activeProfile := profile }
  | .mtu newMtu => if newMtu.toNat < 23 ∨ 259 < newMtu.toNat then none else some { old with mtu := newMtu.toNat }
  | .connParams minInterval maxInterval latency timeout =>
      if connParamsValid minInterval.toNat maxInterval.toNat latency.toNat timeout.toNat then
        some
          { old with
            connIntervalMin := minInterval.toNat
            connIntervalMax := maxInterval.toNat
            latency := latency.toNat
            timeout := timeout.toNat }
      else none

/-- The saves of an accepted call, in order. -/
def saves (new : BleHostConfig) : Update → List (SettingsKey × List Byte)
  | .profile _ _ _ =>
      [(.service, new.activeProfile.serviceUuid), (.notify, new.activeProfile.notifyUuid),
        (.write, new.activeProfile.writeUuid)]
  | .mtu _ => [(.mtu, le16 new.mtu)]
  | .connParams _ _ _ _ =>
      [(.connMin, le16 new.connIntervalMin), (.connMax, le16 new.connIntervalMax), (.latency, le16 new.latency),
        (.timeout, le16 new.timeout)]

variable (env : Env)

def call (s : App) : Update → Int × App
  | .profile serviceUuid notifyUuid writeUuid => bleHostSettingsUpdateProfile env s serviceUuid notifyUuid writeUuid
  | .mtu newMtu => bleHostSettingsUpdateMtu env s newMtu.toNat
  | .connParams minInterval maxInterval latency timeout =>
      bleHostSettingsUpdateConnParams env s minInterval.toNat maxInterval.toNat latency.toNat timeout.toNat

/-- The first `count` saves of the call. -/
def cutShort (s : App) (count : Nat) (u : Update) : App :=
  match u.config s.config with
  | none => s
  | some new => (settingsSaveAll env { s with config := new } ((u.saves new).take count)).2

end Update

/-- The variables but `g_config` do not matter to the settings. -/
def reboot (s : App) : App := { s with config := settingsLoad s.store }

inductive SettingsEvent where
  | update (u : Update)
  /-- Power is lost in the call, before the save after the first `count`. -/
  | powerLoss (u : Update) (count : Nat)
  | reboot
deriving DecidableEq, Repr

section
variable (env : Env)

def settingsStep (s : App) : SettingsEvent → App
  | .update u => (u.call env s).2
  | .powerLoss u count => reboot (u.cutShort env s count)
  | .reboot => reboot s

/-- An empty store and the default configuration. -/
def settingsStart (started : Int) (dtr : Bool) : App := (boot defaultConfig started dtr).app

/-- How many of the next saves succeed before one fails. -/
def successes (calls : Nat) : Nat → Nat
  | 0 => 0
  | n + 1 => if env.answer calls = 0 then successes (calls + 1) n + 1 else 0

/-- The number of saves that an accepted call makes. -/
def Update.saveCount : Update → Nat
  | .profile _ _ _ => 3
  | .mtu _ => 1
  | .connParams _ _ _ _ => 4

/-- Of the first `attempted` saves of the call, if it is accepted, all of the call's or none succeed. -/
def Update.Whole (s : App) (attempted : Nat) (u : Update) : Prop :=
  u.config s.config ≠ none → successes env s.calls attempted = 0 ∨ successes env s.calls attempted = u.saveCount

/-- No save fails between the first and the last of a call, and power is not lost there. -/
def SettingsEvent.Whole (s : App) : SettingsEvent → Prop
  | .update u => u.Whole env s u.saveCount
  | .powerLoss u count => u.Whole env s (min count u.saveCount)
  | .reboot => True

/-- No call of the history is cut in two. -/
def Undivided : App → List SettingsEvent → Prop
  | _, [] => True
  | s, e :: es => e.Whole env s ∧ Undivided (settingsStep env s e) es

end

/-- The calls of a history. -/
def callsOf : List SettingsEvent → List Update
  | [] => []
  | .update u :: es => u :: callsOf es
  | .powerLoss u _ :: es => u :: callsOf es
  | .reboot :: es => callsOf es

end BleAtHost.Main
