import BleAtHost.Main.Traffic

/-!
# Discovery of the profile

The database of a peer, the callbacks with which the stack answers requests about it, and what the profile manager holds
of it. The requests are read off the history, so a wrong range gives the wrong callbacks.
-/

namespace BleAtHost.Main

/-! ## Databases -/

/-- `handle` is that of the declaration. -/
structure Characteristic where
  handle : Nat
  chrc : GattChrc
deriving DecidableEq, Repr

structure PrimaryService where
  service : GattService
  characteristics : List Characteristic
deriving DecidableEq, Repr

/-- Services do not overlap, and a characteristic lies in the range of its service. -/
structure Database where
  services : List PrimaryService
  bounds : ∀ s ∈ services,
    BT_ATT_FIRST_ATTRIBUTE_HANDLE ≤ s.service.handle ∧ s.service.endHandle ≤ BT_ATT_LAST_ATTRIBUTE_HANDLE
  ordered : ∀ s ∈ services, s.service.handle ≤ s.service.endHandle
  inside : ∀ s ∈ services, ∀ c ∈ s.characteristics, s.service.handle ≤ c.handle ∧ c.handle ≤ s.service.endHandle
  apart : services.Pairwise fun s t => s.service.endHandle < t.service.handle ∨ t.service.endHandle < s.service.handle

namespace Database

variable (db : Database)

/-- The services that are declared in a range. -/
def servicesIn (startHandle endHandle : Nat) : List GattService :=
  (db.services.map (·.service)).filter fun s => startHandle ≤ s.handle && s.handle ≤ endHandle

/-- The characteristics that are declared in a range, of whatever service. -/
def characteristicsIn (startHandle endHandle : Nat) : List GattChrc :=
  ((db.services.flatMap (·.characteristics)).filter fun c => startHandle ≤ c.handle && c.handle ≤ endHandle).map (·.chrc)

def serviceCallbacks (services : List GattService) : List Event :=
  services.map (fun s => Event.serviceDiscover (some s)) ++ [.serviceDiscover none]

def characteristicCallbacks (chrcs : List GattChrc) : List Event :=
  chrcs.map (fun c => Event.characteristicDiscover (some c)) ++ [.characteristicDiscover none]

/-- The callbacks that a request leads to. A subscription succeeds. -/
def callbacks : Obs → List Event
  | .stack (.gattDiscover _ startHandle endHandle type) result =>
      if result ≠ 0 then []
      else if type = BT_GATT_DISCOVER_PRIMARY then serviceCallbacks (db.servicesIn startHandle endHandle)
      else characteristicCallbacks (db.characteristicsIn startHandle endHandle)
  | .stack (.gattSubscribe _ _) result => if result ≠ 0 then [] else [.subscribe 0]
  | _ => []

end Database

/-! ## The profile in a database -/

/-- The comparison of the callbacks. -/
def uuidMatches (uuid : BtUuid) (text : Text) : Bool :=
  bleHostUuidEquals (bleHostFormatUuidFromBt uuid BLE_HOST_UUID_STR_LEN) text

/-- The characteristics of the profile: the first in the service that notifies and the first that is written. -/
def Database.find (db : Database) (profile : BleProfile) : Option (GattChrc × GattChrc) := do
  let service ← db.services.find? fun s => uuidMatches s.service.uuid profile.serviceUuid
  let chrcs := service.characteristics.map (·.chrc)
  let notify ← chrcs.find? fun c => uuidMatches c.uuid profile.notifyUuid
  let write ← chrcs.find? fun c => uuidMatches c.uuid profile.writeUuid
  some (notify, write)

/-! ## The view -/

def Obs.isRequest : Obs → Bool
  | .stack (.gattDiscover _ _ _ _) _ | .stack (.gattSubscribe _ _) _ => true
  | _ => false

/-- What the profile manager holds of the database, and its requests. -/
structure Discovery where
  serviceDiscoverParams : DiscoverParams
  characteristicDiscoverParams : DiscoverParams
  serviceStartHandle : Nat
  serviceEndHandle : Nat
  notifyValueHandle : Nat
  writeValueHandle : Nat
  writeProperties : Nat
  ready : Bool
  serviceFound : Bool
  notifyFound : Bool
  writeFound : Bool
  autoSubscribe : Bool
  requests : List Obs

def App.discovery (s : App) : Discovery where
  serviceDiscoverParams := s.pm.serviceDiscoverParams
  characteristicDiscoverParams := s.pm.characteristicDiscoverParams
  serviceStartHandle := s.pm.serviceStartHandle
  serviceEndHandle := s.pm.serviceEndHandle
  notifyValueHandle := s.pm.notifyValueHandle
  writeValueHandle := s.pm.writeValueHandle
  writeProperties := s.pm.writeProperties
  ready := s.pm.ready
  serviceFound := s.pm.serviceFound
  notifyFound := s.pm.notifyFound
  writeFound := s.pm.writeFound
  autoSubscribe := s.config.autoSubscribe
  requests := s.log.filter Obs.isRequest

/-- What the profile manager and the number of errors should be at the end. -/
def Discovered (found : Option (GattChrc × GattChrc)) (d : Discovery) (errors : Nat) : Prop :=
  match found with
  | some (notify, write) =>
      d.ready = true ∧ d.notifyValueHandle = notify.valueHandle ∧ d.writeValueHandle = write.valueHandle ∧
        d.writeProperties = write.properties ∧ errors = 0
  | none => d.ready = false ∧ errors = 1

/-! ## The conversation -/

def Event.isDiscovery : Event → Bool
  | .serviceDiscover _ | .characteristicDiscover _ | .subscribe _ => true
  | _ => false

/-- The stack has not taken up a request. -/
def Obs.refused : Obs → Bool
  | .stack (.gattDiscover _ _ _ _) result | .stack (.gattSubscribe _ _) result => result != 0
  | _ => false

def Obs.isError : Obs → Bool
  | .callback .error => true
  | _ => false

/-- The callbacks to come, and the errors that the callbacks so far have reported. -/
structure Conversation where
  pending : List Event
  errors : Nat

def Conversation.start : Conversation := ⟨[], 0⟩

def converse (env : Env) (db : Database) (p : Firmware × Conversation) (e : Event) : Firmware × Conversation :=
  let new := news env p.1 e
  (step env p.1 e,
    { pending := (if e.isDiscovery then p.2.pending.tail else p.2.pending) ++ new.reverse.flatMap db.callbacks
      errors := p.2.errors + if e.isDiscovery then new.countP Obs.isError else 0 })

/-- The connection ends, or the subscription. -/
def Event.interrupts : Event → Bool
  | .disconnected _ | .notify none => true
  | _ => false

/-- The callbacks come in order. In between anything may happen but an interruption and a change of the profile, and the
stack takes up every request. -/
structure InTurn (env : Env) (p : Firmware × Conversation) (e : Event) : Prop where
  next : e.isDiscovery → p.2.pending.head? = some e
  kept : !e.interrupts
  config : (step env p.1 e).app.config.activeProfile = p.1.app.config.activeProfile
  accepted : ∀ o ∈ news env p.1 e, !o.refused

deriving instance DecidableEq for Event

instance (env : Env) (p : Firmware × Conversation) (e : Event) : Decidable (InTurn env p e) :=
  decidable_of_iff
    ((e.isDiscovery → p.2.pending.head? = some e) ∧ !e.interrupts ∧
      (step env p.1 e).app.config.activeProfile = p.1.app.config.activeProfile ∧ ∀ o ∈ news env p.1 e, !o.refused)
    ⟨fun h => ⟨h.1, h.2.1, h.2.2.1, h.2.2.2⟩, fun h => ⟨h.next, h.kept, h.config, h.accepted⟩⟩

end BleAtHost.Main
