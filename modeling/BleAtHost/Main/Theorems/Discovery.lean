import BleAtHost.Main.Lemmas.Discovery
import BleAtHost.Main.Theorems.Status

/-!
# Discovery finds the profile

A conversation goes through the services, then through the characteristics of the service that was found, then perhaps
through the subscription. What the profile manager holds is at every time what the callbacks so far have shown.
-/

namespace BleAtHost.Main

variable {s : App} {f : Firmware} {env : Env} {db : Database} {profile : BleProfile}

/-! ## Databases -/

theorem filter_eq_nil_of_apart {c : Characteristic} {s t : PrimaryService}
    (hc : t.service.handle ≤ c.handle ∧ c.handle ≤ t.service.endHandle)
    (ha : s.service.endHandle < t.service.handle ∨ t.service.endHandle < s.service.handle) :
    (decide (s.service.handle ≤ c.handle) && decide (c.handle ≤ s.service.endHandle)) = false := by
  simp only [Bool.and_eq_false_iff, decide_eq_false_iff_not]
  omega

/-- In the range of a service lie its own characteristics and no others. -/
theorem Database.characteristicsIn_service (db : Database) {service : PrimaryService} (hm : service ∈ db.services) :
    db.characteristicsIn service.service.handle service.service.endHandle = service.characteristics.map (·.chrc) := by
  obtain ⟨before, behind, hsplit⟩ := List.append_of_mem hm
  have hapart := db.apart
  rw [hsplit, List.pairwise_append, List.pairwise_cons] at hapart
  have hnone : ∀ t ∈ db.services, service.service.endHandle < t.service.handle ∨ t.service.endHandle < service.service.handle →
      ∀ c ∈ t.characteristics,
        ¬(decide (service.service.handle ≤ c.handle) && decide (c.handle ≤ service.service.endHandle)) = true := by
    intro t ht ha c hc
    rw [filter_eq_nil_of_apart (db.inside t ht c hc) ha]
    exact Bool.false_ne_true
  have hbefore : (before.flatMap (·.characteristics)).filter
      (fun c => service.service.handle ≤ c.handle && c.handle ≤ service.service.endHandle) = [] := by
    rw [List.filter_eq_nil_iff]
    intro c hc
    obtain ⟨t, ht, hc⟩ := List.mem_flatMap.mp hc
    have ha := hapart.2.2 t ht service List.mem_cons_self
    exact hnone t (hsplit ▸ List.mem_append_left _ ht) ha.symm c hc
  have hbehind : (behind.flatMap (·.characteristics)).filter
      (fun c => service.service.handle ≤ c.handle && c.handle ≤ service.service.endHandle) = [] := by
    rw [List.filter_eq_nil_iff]
    intro c hc
    obtain ⟨t, ht, hc⟩ := List.mem_flatMap.mp hc
    have ha := hapart.2.1.1 t ht
    exact hnone t (hsplit ▸ List.mem_append_right _ (List.mem_cons_of_mem _ ht)) ha c hc
  have hown : service.characteristics.filter
      (fun c => service.service.handle ≤ c.handle && c.handle ≤ service.service.endHandle) = service.characteristics := by
    rw [List.filter_eq_self]
    intro c hc
    simpa using db.inside service hm c hc
  rw [characteristicsIn, hsplit, List.flatMap_append, List.flatMap_cons, List.filter_append, List.filter_append, hbefore,
    hown, hbehind, List.nil_append, List.append_nil]

theorem Database.servicesIn_all (db : Database) :
    db.servicesIn BT_ATT_FIRST_ATTRIBUTE_HANDLE BT_ATT_LAST_ATTRIBUTE_HANDLE = db.services.map (·.service) := by
  rw [servicesIn, List.filter_eq_self]
  intro service hs
  obtain ⟨t, ht, rfl⟩ := List.mem_map.mp hs
  have hbounds := db.bounds t ht
  have hordered := db.ordered t ht
  simp only [Bool.and_eq_true, decide_eq_true_eq]
  omega

/-! ## The conversation -/

theorem callbacks_of_not_request (db : Database) {o : Obs} (h : o.isRequest = false) : db.callbacks o = [] := by
  cases o with
  | stack call result =>
      cases call with
      | gattDiscover | gattSubscribe => cases h
      | _ => rfl
  | _ => rfl

theorem callbacks_filter (db : Database) (new : List Obs) :
    new.reverse.flatMap db.callbacks = (new.filter Obs.isRequest).reverse.flatMap db.callbacks := by
  induction new with
  | nil => rfl
  | cons o new ih =>
      cases ho : o.isRequest with
      | true => rw [List.filter_cons_of_pos ho, List.reverse_cons, List.reverse_cons, List.flatMap_append,
          List.flatMap_append, ih]
      | false =>
          rw [List.filter_cons_of_neg (by simp [ho]), ← ih, List.reverse_cons, List.flatMap_append, List.flatMap_singleton,
            callbacks_of_not_request db ho, List.append_nil]

/-- The requests of a step. -/
theorem news_requests (h : Reachable env f) (e : Event) (added : List Obs)
    (hr : (step env f e).app.discovery.requests = added ++ f.app.discovery.requests) :
    (news env f e).filter Obs.isRequest = added := by
  have hlog : (step env f e).app.log.filter Obs.isRequest = added ++ f.app.log.filter Obs.isRequest := hr
  rw [news_append env h e, List.filter_append] at hlog
  exact List.append_cancel_right hlog

theorem converse_pending (db : Database) (h : Reachable env f) (c : Conversation) (e : Event) (added : List Obs)
    (hr : (step env f e).app.discovery.requests = added ++ f.app.discovery.requests) :
    (converse env db (f, c) e).2.pending =
      (if e.isDiscovery then c.pending.tail else c.pending) ++ added.reverse.flatMap db.callbacks := by
  simp only [converse]
  rw [callbacks_filter, news_requests h e added hr]

theorem converse_errors (db : Database) (h : Reachable env f) (c : Conversation) (e : Event) {k : Nat}
    (hk : (step env f e).app.log.countP Obs.isError = f.app.log.countP Obs.isError + k) :
    (converse env db (f, c) e).2.errors = c.errors + if e.isDiscovery then k else 0 := by
  have hcount : (news env f e).countP Obs.isError = k := by
    rw [news_append env h e, List.countP_append] at hk
    omega
  simp only [converse]
  rw [hcount]

theorem InTurn.result (h : Reachable env f) {c : Conversation} {e : Event} (hu : InTurn env (f, c) e) {o : Obs}
    (hr : (step env f e).app.discovery.requests = o :: f.app.discovery.requests) : o.refused = false := by
  have hnews : (news env f e).filter Obs.isRequest = [o] := news_requests h e [o] hr
  have hmem : o ∈ news env f e := List.mem_of_mem_filter (hnews ▸ List.mem_singleton_self o)
  simpa using hu.accepted o hmem

/-! ## The callbacks -/

def App.errors (s : App) : Nat := s.log.countP Obs.isError

theorem errors_note {o : Obs} (h : o.isError = false) (s : App) : (s.note o).errors = s.errors := by
  simp [App.note, App.errors, h]

theorem errors_kickUartTx (s : App) : (kickUartTx s).errors = s.errors := by
  unfold kickUartTx
  split
  · rfl
  · rfl

theorem errors_queueCtrlBytes (s : App) (data : List Byte) : (queueCtrlBytes s data).errors = s.errors := by
  unfold queueCtrlBytes
  split
  · rfl
  · rw [errors_kickUartTx]
    simp [App.errors, Obs.isError]

theorem errors_queueCtrlLine (s : App) (line : Text) : (queueCtrlLine s line).errors = s.errors := by
  unfold queueCtrlLine
  dsimp only
  rw [errors_note rfl, errors_queueCtrlBytes, errors_queueCtrlBytes]

theorem errors_profileReady (s : App) : (profileReady s).errors = s.errors := by
  unfold profileReady
  dsimp only [atHostNotifyReady]
  rw [errors_queueCtrlLine]
  split
  · exact errors_note rfl s
  · exact errors_note rfl s

theorem errors_profileError (s : App) : (profileError s).errors = s.errors + 1 := by
  have hnote : (s.note (.callback .error)).errors = s.errors + 1 := List.countP_cons_of_pos rfl
  unfold profileError
  dsimp only [atHostNotifyFunctionError]
  rw [errors_queueCtrlLine]
  split
  · exact hnote
  · exact hnote

theorem service_seen (env : Env) (service : GattService) (ht : s.pm.serviceDiscoverParams.type = BT_GATT_DISCOVER_PRIMARY) :
    (serviceDiscoverCb env s (some service)).discovery =
        (if uuidMatches service.uuid s.config.activeProfile.serviceUuid then
          { s.discovery with
            serviceFound := true
            serviceStartHandle := service.handle
            serviceEndHandle := service.endHandle }
        else s.discovery) ∧
      (serviceDiscoverCb env s (some service)).errors = s.errors := by
  unfold serviceDiscoverCb
  dsimp only
  rw [if_neg (not_not.mpr ht), ← uuidMatches]
  split
  · exact ⟨rfl, rfl⟩
  · exact ⟨rfl, rfl⟩

theorem services_missing (env : Env) (hf : s.pm.serviceFound = false) :
    (serviceDiscoverCb env s none).discovery = s.discovery ∧ (serviceDiscoverCb env s none).errors = s.errors + 1 := by
  simp only [serviceDiscoverCb, hf, Bool.not_false, if_true]
  exact ⟨discovery_profileError s, errors_profileError s⟩

/-- The request for the characteristics of the service that was found. -/
def characteristicRequest (env : Env) (s : App) : Obs :=
  .stack (.gattDiscover s.pm.conn s.pm.serviceStartHandle s.pm.serviceEndHandle BT_GATT_DISCOVER_CHARACTERISTIC)
    (env.answer s.calls)

theorem services_done (env : Env) (hf : s.pm.serviceFound = true) :
    (serviceDiscoverCb env s none).discovery =
        { s.discovery with
          characteristicDiscoverParams :=
            ⟨s.pm.serviceStartHandle, s.pm.serviceEndHandle, BT_GATT_DISCOVER_CHARACTERISTIC⟩
          requests := characteristicRequest env s :: s.discovery.requests } ∧
      ((characteristicRequest env s).refused = false → (serviceDiscoverCb env s none).errors = s.errors) := by
  have hcall : serviceDiscoverCb env s none = (startCharacteristicDiscovery env s).2 := by simp [serviceDiscoverCb, hf]
  rw [hcall, startCharacteristicDiscovery]
  dsimp only [App.ask]
  split
  · rename_i hr
    refine ⟨?_, fun h => absurd (bne_eq_false_iff_eq.mp h) hr⟩
    rw [discovery_profileError]
    rfl
  · exact ⟨rfl, fun _ => List.countP_cons_of_neg Bool.false_ne_true⟩

theorem characteristic_seen (env : Env) (chrc : GattChrc)
    (ht : s.pm.characteristicDiscoverParams.type = BT_GATT_DISCOVER_CHARACTERISTIC) :
    characteristicDiscoverCb env s (some chrc) = { s with pm := matchCharacteristic s.config.activeProfile s.pm chrc } := by
  simp only [characteristicDiscoverCb, ht, ne_eq, not_true_eq_false, if_false]

theorem characteristics_missing (env : Env) (hf : s.pm.notifyFound = false ∨ s.pm.writeFound = false) :
    (characteristicDiscoverCb env s none).discovery = s.discovery ∧
      (characteristicDiscoverCb env s none).errors = s.errors + 1 := by
  have herror : (profileError s).discovery = s.discovery ∧ (profileError s).errors = s.errors + 1 :=
    ⟨discovery_profileError s, errors_profileError s⟩
  simp only [characteristicDiscoverCb]
  split
  · exact herror
  · rename_i hn
    split
    · exact herror
    · rename_i hw
      simp only [Bool.not_eq_true', Bool.not_eq_false] at hn hw
      rcases hf with h | h
      · rw [hn] at h
        cases h
      · rw [hw] at h
        cases h

def subscribeRequest (env : Env) (s : App) : Obs :=
  .stack (.gattSubscribe s.pm.conn s.pm.notifyValueHandle) (env.answer s.calls)

theorem characteristics_done (env : Env) (hn : s.pm.notifyFound = true) (hw : s.pm.writeFound = true) :
    (s.config.autoSubscribe = true ∧
        (characteristicDiscoverCb env s none).discovery =
          { s.discovery with requests := subscribeRequest env s :: s.discovery.requests } ∧
        ((subscribeRequest env s).refused = false → (characteristicDiscoverCb env s none).errors = s.errors)) ∨
      (characteristicDiscoverCb env s none).discovery = { s.discovery with ready := true } ∧
        (characteristicDiscoverCb env s none).errors = s.errors := by
  unfold characteristicDiscoverCb
  dsimp only
  rw [if_neg (by simp [hn]), if_neg (by simp [hw])]
  cases ha : s.config.autoSubscribe with
  | true =>
      refine .inl ⟨rfl, ?_⟩
      rw [if_pos rfl, subscribeNotifyCharacteristic]
      dsimp only [App.ask]
      split
      · rename_i hr
        refine ⟨?_, fun h => absurd (bne_eq_false_iff_eq.mp h) hr⟩
        rw [discovery_profileError]
        rfl
      · exact ⟨rfl, fun _ => List.countP_cons_of_neg Bool.false_ne_true⟩
  | false =>
      refine .inr ?_
      rw [if_neg Bool.false_ne_true, discovery_profileReady, errors_profileReady]
      exact ⟨rfl, rfl⟩

theorem subscribed_discovery (s : App) :
    (subscribeHandler s 0).discovery = { s.discovery with ready := true } ∧ (subscribeHandler s 0).errors = s.errors := by
  simp only [subscribeHandler, ne_eq, not_true_eq_false, if_false]
  rw [discovery_profileReady, errors_profileReady]
  exact ⟨rfl, rfl⟩

/-! ## What has been found so far -/

/-- The flags and handles are those of the first matches in a list of characteristics. -/
structure Found (profile : BleProfile) (d : Discovery) (chrcs : List GattChrc) : Prop where
  notifyFound : d.notifyFound = (chrcs.find? fun c => uuidMatches c.uuid profile.notifyUuid).isSome
  writeFound : d.writeFound = (chrcs.find? fun c => uuidMatches c.uuid profile.writeUuid).isSome
  notify : ∀ c, (chrcs.find? fun c => uuidMatches c.uuid profile.notifyUuid) = some c → d.notifyValueHandle = c.valueHandle
  write : ∀ c, (chrcs.find? fun c => uuidMatches c.uuid profile.writeUuid) = some c →
    d.writeValueHandle = c.valueHandle ∧ d.writeProperties = c.properties

/-- The first comparison. -/
def matchNotify (profile : BleProfile) (pm : ProfileManagerState) (chrc : GattChrc) : ProfileManagerState :=
  if !pm.notifyFound && uuidMatches chrc.uuid profile.notifyUuid then
    { pm with notifyFound := true, notifyValueHandle := chrc.valueHandle }
  else pm

/-- The second. -/
def matchWrite (profile : BleProfile) (pm : ProfileManagerState) (chrc : GattChrc) : ProfileManagerState :=
  if !pm.writeFound && uuidMatches chrc.uuid profile.writeUuid then
    { pm with writeFound := true, writeValueHandle := chrc.valueHandle, writeProperties := chrc.properties }
  else pm

theorem matchCharacteristic_eq (profile : BleProfile) (pm : ProfileManagerState) (chrc : GattChrc) :
    matchCharacteristic profile pm chrc = matchWrite profile (matchNotify profile pm chrc) chrc := rfl

theorem find?_snoc {p : GattChrc → Bool} {seen : List GattChrc} {chrc : GattChrc} :
    (seen ++ [chrc]).find? p = (seen.find? p).or (if p chrc then some chrc else none) := by
  rw [List.find?_append, List.find?_singleton]

theorem Found.matched {seen : List GattChrc} (h : Found profile s.discovery seen) (chrc : GattChrc) :
    Found profile ({ s with pm := matchCharacteristic profile s.pm chrc } : App).discovery (seen ++ [chrc]) := by
  obtain ⟨hn, hw, hnotify, hwrite⟩ := h
  rw [matchCharacteristic_eq]
  have hn : s.pm.notifyFound = _ := hn
  have hw : s.pm.writeFound = _ := hw
  have hnotify : ∀ c : GattChrc, _ → s.pm.notifyValueHandle = c.valueHandle := hnotify
  have hwrite : ∀ c : GattChrc, _ → s.pm.writeValueHandle = c.valueHandle ∧ s.pm.writeProperties = c.properties := hwrite
  generalize s.pm = pm at hn hw hnotify hwrite
  have hnotified : (matchNotify profile pm chrc).notifyFound =
        ((seen ++ [chrc]).find? fun c => uuidMatches c.uuid profile.notifyUuid).isSome ∧
      (∀ c, ((seen ++ [chrc]).find? fun c => uuidMatches c.uuid profile.notifyUuid) = some c →
        (matchNotify profile pm chrc).notifyValueHandle = c.valueHandle) ∧
      (matchNotify profile pm chrc).writeFound = pm.writeFound ∧
      (matchNotify profile pm chrc).writeValueHandle = pm.writeValueHandle ∧
      (matchNotify profile pm chrc).writeProperties = pm.writeProperties := by
    rw [find?_snoc]
    unfold matchNotify
    cases hf : seen.find? fun c => uuidMatches c.uuid profile.notifyUuid with
    | none =>
        rw [hf] at hn
        cases hm : uuidMatches chrc.uuid profile.notifyUuid with
        | true => simp [hn]
        | false => simp [hn]
    | some c =>
        rw [hf] at hn
        simpa [hn] using hnotify c hf
  obtain ⟨hflag, hhandle, hwf, hwh, hwp⟩ := hnotified
  generalize matchNotify profile pm chrc = pm' at hflag hhandle hwf hwh hwp
  have hwritten : (matchWrite profile pm' chrc).writeFound =
        ((seen ++ [chrc]).find? fun c => uuidMatches c.uuid profile.writeUuid).isSome ∧
      (∀ c, ((seen ++ [chrc]).find? fun c => uuidMatches c.uuid profile.writeUuid) = some c →
        (matchWrite profile pm' chrc).writeValueHandle = c.valueHandle ∧
          (matchWrite profile pm' chrc).writeProperties = c.properties) ∧
      (matchWrite profile pm' chrc).notifyFound = pm'.notifyFound ∧
      (matchWrite profile pm' chrc).notifyValueHandle = pm'.notifyValueHandle := by
    rw [find?_snoc]
    unfold matchWrite
    cases hf : seen.find? fun c => uuidMatches c.uuid profile.writeUuid with
    | none =>
        rw [hf] at hw
        cases hm : uuidMatches chrc.uuid profile.writeUuid with
        | true => simp [hwf, hw]
        | false => simp [hwf, hw]
    | some c =>
        rw [hf] at hw
        simpa [hwf, hw, hwh, hwp] using hwrite c hf
  obtain ⟨hflag', hwritten, hsame, hsame'⟩ := hwritten
  exact ⟨hsame.trans hflag, hflag', fun c hc => hsame'.trans (hhandle c hc), hwritten⟩

/-- The comparisons change nothing else. -/
theorem matched_same (profile : BleProfile) (s : App) (chrc : GattChrc) :
    let d := ({ s with pm := matchCharacteristic profile s.pm chrc } : App).discovery
    d.ready = s.discovery.ready ∧ d.characteristicDiscoverParams = s.discovery.characteristicDiscoverParams ∧
      d.requests = s.discovery.requests := by
  rw [matchCharacteristic_eq]
  unfold matchWrite matchNotify
  split
  · split
    · exact ⟨rfl, rfl, rfl⟩
    · exact ⟨rfl, rfl, rfl⟩
  · split
    · exact ⟨rfl, rfl, rfl⟩
    · exact ⟨rfl, rfl, rfl⟩

/-! ## The phases -/

def PrimaryService.isOf (t : PrimaryService) (profile : BleProfile) : Bool := uuidMatches t.service.uuid profile.serviceUuid

/-- Among the services. -/
structure AtServices (db : Database) (profile : BleProfile) (d : Discovery) (c : Conversation)
    (seen rest : List PrimaryService) : Prop where
  split : db.services = seen ++ rest
  pending : c.pending = Database.serviceCallbacks (rest.map (·.service))
  errors : c.errors = 0
  ready : d.ready = false
  notifyFound : d.notifyFound = false
  writeFound : d.writeFound = false
  type : d.serviceDiscoverParams.type = BT_GATT_DISCOVER_PRIMARY
  found : d.serviceFound = (seen.find? (·.isOf profile)).isSome
  range : ∀ t, seen.find? (·.isOf profile) = some t →
    d.serviceStartHandle = t.service.handle ∧ d.serviceEndHandle = t.service.endHandle

/-- Among the characteristics of a service. -/
structure AtCharacteristics (db : Database) (profile : BleProfile) (d : Discovery) (c : Conversation)
    (service : PrimaryService) (seen rest : List GattChrc) : Prop where
  isOf : db.services.find? (·.isOf profile) = some service
  split : service.characteristics.map (·.chrc) = seen ++ rest
  pending : c.pending = Database.characteristicCallbacks rest
  errors : c.errors = 0
  ready : d.ready = false
  type : d.characteristicDiscoverParams.type = BT_GATT_DISCOVER_CHARACTERISTIC
  found : Found profile d seen

/-- Both characteristics are known. -/
structure AtSubscription (db : Database) (profile : BleProfile) (d : Discovery) (c : Conversation)
    (service : PrimaryService) : Prop where
  isOf : db.services.find? (·.isOf profile) = some service
  pending : c.pending = [.subscribe 0]
  errors : c.errors = 0
  ready : d.ready = false
  found : Found profile d (service.characteristics.map (·.chrc))
  notifyFound : d.notifyFound = true
  writeFound : d.writeFound = true

/-- Where a conversation is, and what the profile manager holds there. -/
inductive Phase (db : Database) (profile : BleProfile) (d : Discovery) (c : Conversation) : Prop
  | services (seen rest : List PrimaryService) (h : AtServices db profile d c seen rest)
  | characteristics (service : PrimaryService) (seen rest : List GattChrc)
      (h : AtCharacteristics db profile d c service seen rest)
  | subscribing (service : PrimaryService) (h : AtSubscription db profile d c service)
  | finished (hpending : c.pending = []) (h : Discovered (db.find profile) d c.errors)

/-- The profile in the service that was found. -/
theorem Database.find_of_service {service : PrimaryService} (h : db.services.find? (·.isOf profile) = some service) :
    db.find profile =
      ((service.characteristics.map (·.chrc)).find? fun c => uuidMatches c.uuid profile.notifyUuid).bind fun notify =>
        ((service.characteristics.map (·.chrc)).find? fun c => uuidMatches c.uuid profile.writeUuid).bind fun write =>
          some (notify, write) := by
  have h' : (db.services.find? fun s => uuidMatches s.service.uuid profile.serviceUuid) = some service := h
  simp only [find, h']
  rfl

theorem Database.find_of_no_service (h : db.services.find? (·.isOf profile) = none) : db.find profile = none := by
  have h' : (db.services.find? fun s => uuidMatches s.service.uuid profile.serviceUuid) = none := h
  simp only [find, h']
  rfl

/-- Both characteristics are there. -/
theorem Found.discovered {service : PrimaryService} {d : Discovery}
    (h : Found profile d (service.characteristics.map (·.chrc)))
    (hservice : db.services.find? (·.isOf profile) = some service) (hn : d.notifyFound = true) (hw : d.writeFound = true)
    (hready : d.ready = true) : Discovered (db.find profile) d 0 := by
  rw [h.notifyFound, Option.isSome_iff_exists] at hn
  rw [h.writeFound, Option.isSome_iff_exists] at hw
  obtain ⟨notify, hnotify⟩ := hn
  obtain ⟨write, hwrite⟩ := hw
  rw [Database.find_of_service hservice, hnotify, hwrite]
  exact ⟨hready, h.notify notify hnotify, (h.write write hwrite).1, (h.write write hwrite).2, rfl⟩

/-- One of them is missing. -/
theorem Found.missing {service : PrimaryService} {d : Discovery}
    (h : Found profile d (service.characteristics.map (·.chrc)))
    (hservice : db.services.find? (·.isOf profile) = some service) (hf : d.notifyFound = false ∨ d.writeFound = false)
    (hready : d.ready = false) : Discovered (db.find profile) d 1 := by
  have hnone : db.find profile = none := by
    rw [Database.find_of_service hservice]
    rcases hf with hn | hw
    · rw [h.notifyFound, Option.isSome_eq_false_iff, Option.isNone_iff_eq_none] at hn
      rw [hn]
      rfl
    · rw [h.writeFound, Option.isSome_eq_false_iff, Option.isNone_iff_eq_none] at hw
      rw [hw]
      cases (service.characteristics.map (·.chrc)).find? fun c => uuidMatches c.uuid profile.notifyUuid with
      | none => rfl
      | some notify => rfl
  rw [hnone]
  exact ⟨hready, rfl⟩

/-! ## Steps -/

/-- Only its end takes a connection away. -/
theorem link_step (h : Reachable env f) {conn : Conn} (hl : f.app.link = .up conn) {e : Event}
    (hk : !e.interrupts) : (step env f e).app.link = .up conn := by
  have hcontrols : Controls env (fun _ r => r ≠ .lost) f.app (step env f e).app := by
    refine step_controls h.linkHeld fun r hr => ?_
    rintro rfl
    cases e with
    | disconnected reason => cases hk
    | notify data => cases data <;> cases hr
    | characteristicDiscover attr => cases attr <;> cases hr
    | _ => cases hr
  have hkept : (step env f e).app.link = .up conn ∧ (step env f e).app.currentConn = some conn := by
    refine Runs.invariant (P := fun s => s.link = .up conn ∧ s.currentConn = some conn) ?_ hcontrols
      ⟨hl, (h.linkHeld.up hl).1⟩
    rintro s s' hc ⟨hup, hcur⟩
    cases hc with
    | aside ha => exact ⟨ha.link.trans hup, ha.currentConn.trans hcur⟩
    | readyFound | subscribed =>
        rcases announceReady_cases s with ⟨he, _⟩ | ⟨he, _⟩
        · rw [he]; exact ⟨hup, hcur⟩
        · rw [he]; exact ⟨hup, hcur⟩
    | scanning _ hnone => rw [hcur] at hnone; cases hnone
    | create _ hnone => rw [hcur] at hnone; cases hnone
    | connectFailed _ _ hcreating => rw [hup] at hcreating; cases hcreating
    | opened _ hcreating => rw [hup] at hcreating; cases hcreating
    | closed _ _ _ _ _ hr => exact absurd rfl hr
    | _ => exact ⟨hup, hcur⟩
  exact hkept.1

theorem converse_eq (db : Database) (h : Reachable env f) (c : Conversation) {e : Event} (hd : e.isDiscovery)
    (added : List Obs) {k : Nat}
    (hr : (step env f e).app.discovery.requests = added ++ f.app.discovery.requests)
    (hk : (step env f e).app.errors = f.app.errors + k) :
    (converse env db (f, c) e).2 = ⟨c.pending.tail ++ added.reverse.flatMap db.callbacks, c.errors + k⟩ := by
  have hpending := converse_pending db h c e added hr
  have herrors := converse_errors db h c e hk
  rw [if_pos hd] at hpending herrors
  rw [← hpending, ← herrors]

section
variable {conn : Conn} {c : Conversation} {e : Event}

/-- An event that is no callback of the discovery. -/
theorem Phase.other (h : Reachable env f) (hl : f.app.link = .up conn) (hp : Phase db profile f.app.discovery c)
    (hu : InTurn env (f, c) e) (hd : e.isDiscovery = false) :
    Phase db profile (step env f e).app.discovery (converse env db (f, c) e).2 := by
  have hsame : (step env f e).app.discovery = f.app.discovery := discovery_step env hl hd hu.kept
  have hpending := converse_pending db h c e [] (by rw [hsame]; rfl)
  have hc : (converse env db (f, c) e).2 = c := by
    rw [if_neg (by simp [hd]), List.reverse_nil, List.flatMap_nil, List.append_nil] at hpending
    have herrors : (converse env db (f, c) e).2.errors = c.errors := by simp [converse, hd]
    exact congrArg₂ Conversation.mk hpending herrors
  rw [hsame, hc]
  exact hp

/-- A primary service is reported. -/
theorem AtServices.seen (h : Reachable env f) (hl : f.app.link = .up conn) (hprofile : f.app.config.activeProfile = profile)
    (hone : (db.services.filter (·.isOf profile)).length ≤ 1) {seen rest : List PrimaryService} {t : PrimaryService}
    (hp : AtServices db profile f.app.discovery c seen (t :: rest)) :
    AtServices db profile (step env f (.serviceDiscover (some t.service))).app.discovery
      (converse env db (f, c) (.serviceDiscover (some t.service))).2 (seen ++ [t]) rest := by
  have hcall : (step env f (.serviceDiscover (some t.service))).app = serviceDiscoverCb env f.app (some t.service) := by
    simp only [step, stepApp, whileUp, hl]
  obtain ⟨hd, he⟩ := service_seen env t.service hp.type
  rw [← hcall] at hd he
  have hc : (converse env db (f, c) (.serviceDiscover (some t.service))).2 =
      ⟨Database.serviceCallbacks (rest.map (·.service)), 0⟩ := by
    rw [converse_eq (k := 0) db h c rfl [] (by rw [hd]; split <;> rfl) he, hp.pending, hp.errors, List.reverse_nil,
      List.flatMap_nil, List.append_nil]
    rfl
  have hsplit : db.services = (seen ++ [t]) ++ rest := by rw [hp.split, List.append_assoc, List.singleton_append]
  rw [hc, hd, hprofile, ← PrimaryService.isOf]
  cases hm : t.isOf profile with
  | false =>
      rw [if_neg Bool.false_ne_true]
      have hfind : (seen ++ [t]).find? (·.isOf profile) = seen.find? (·.isOf profile) := by
        rw [List.find?_append, List.find?_singleton, hm, if_neg Bool.false_ne_true, Option.or_none]
      exact ⟨hsplit, rfl, rfl, hp.ready, hp.notifyFound, hp.writeFound, hp.type, hfind ▸ hp.found, hfind ▸ hp.range⟩
  | true =>
      rw [if_pos rfl]
      -- an earlier match would be a second one
      have hnone : seen.find? (·.isOf profile) = none := by
        rw [List.find?_eq_none]
        intro t' ht' hm'
        have hpos : 0 < (seen.filter (·.isOf profile)).length :=
          List.length_pos_of_mem (List.mem_filter.mpr ⟨ht', hm'⟩)
        have htwo : (db.services.filter (·.isOf profile)).length =
            (seen.filter (·.isOf profile)).length + ((rest.filter (·.isOf profile)).length + 1) := by
          rw [hp.split, List.filter_append, List.length_append, List.filter_cons_of_pos (by exact hm), List.length_cons]
        omega
      have hfind : (seen ++ [t]).find? (·.isOf profile) = some t := by
        rw [List.find?_append, hnone, List.find?_singleton, hm, if_pos rfl, Option.none_or]
      refine ⟨hsplit, rfl, rfl, hp.ready, hp.notifyFound, hp.writeFound, hp.type, hfind ▸ rfl, ?_⟩
      rw [hfind]
      rintro _ ⟨⟩
      exact ⟨rfl, rfl⟩

/-- The end of the services. -/
theorem AtServices.done (h : Reachable env f) (hl : f.app.link = .up conn) {seen : List PrimaryService}
    (hp : AtServices db profile f.app.discovery c seen []) (hu : InTurn env (f, c) (.serviceDiscover none)) :
    Phase db profile (step env f (.serviceDiscover none)).app.discovery (converse env db (f, c) (.serviceDiscover none)).2 := by
  have hcall : (step env f (.serviceDiscover none)).app = serviceDiscoverCb env f.app none := by
    simp only [step, stepApp, whileUp, hl]
  have hall : db.services = seen := by rw [hp.split, List.append_nil]
  cases hf : seen.find? (·.isOf profile) with
  | none =>
      have hmissing : f.app.pm.serviceFound = false := hp.found.trans (by rw [hf]; rfl)
      obtain ⟨hd, he⟩ := services_missing env hmissing
      rw [← hcall] at hd he
      rw [converse_eq db h c rfl [] (by rw [hd]; rfl) he, hp.pending, hp.errors, hd]
      refine .finished rfl ?_
      rw [Database.find_of_no_service (hall ▸ hf)]
      exact ⟨hp.ready, rfl⟩
  | some t =>
      have hfound : f.app.pm.serviceFound = true := hp.found.trans (by rw [hf]; rfl)
      have hservice : db.services.find? (·.isOf profile) = some t := hall ▸ hf
      obtain ⟨hstart, hend⟩ := hp.range t hf
      obtain ⟨hd, he⟩ := services_done env hfound
      rw [← hcall] at hd he
      have hr : (step env f (.serviceDiscover none)).app.discovery.requests =
          characteristicRequest env f.app :: f.app.discovery.requests := by rw [hd]
      have haccepted : (characteristicRequest env f.app).refused = false := hu.result h hr
      have hcallbacks : db.callbacks (characteristicRequest env f.app) =
          Database.characteristicCallbacks (t.characteristics.map (·.chrc)) := by
        have hstart : f.app.pm.serviceStartHandle = t.service.handle := hstart
        have hend : f.app.pm.serviceEndHandle = t.service.endHandle := hend
        have hok : env.answer f.app.calls = 0 := by simpa [characteristicRequest, Obs.refused] using haccepted
        rw [characteristicRequest, hstart, hend, hok, Database.callbacks, if_neg (not_not.mpr rfl), if_neg (by decide),
          db.characteristicsIn_service (List.mem_of_find?_eq_some hservice)]
      rw [converse_eq (k := 0) db h c rfl [characteristicRequest env f.app] hr (he haccepted), hp.pending, hp.errors,
        hd, List.reverse_singleton, List.flatMap_singleton, hcallbacks]
      refine .characteristics t [] _ ⟨hservice, rfl, rfl, rfl, hp.ready, rfl, ?_⟩
      refine ⟨hp.notifyFound, hp.writeFound, ?_, ?_⟩
      · rintro _ ⟨⟩
      · rintro _ ⟨⟩

/-- A characteristic is reported. -/
theorem AtCharacteristics.seen (h : Reachable env f) (hl : f.app.link = .up conn)
    (hprofile : f.app.config.activeProfile = profile) {service : PrimaryService} {seen rest : List GattChrc} {chrc : GattChrc}
    (hp : AtCharacteristics db profile f.app.discovery c service seen (chrc :: rest)) :
    AtCharacteristics db profile (step env f (.characteristicDiscover (some chrc))).app.discovery
      (converse env db (f, c) (.characteristicDiscover (some chrc))).2 service (seen ++ [chrc]) rest := by
  have hcall : (step env f (.characteristicDiscover (some chrc))).app =
      { f.app with pm := matchCharacteristic profile f.app.pm chrc } := by
    rw [← hprofile, ← characteristic_seen env chrc hp.type]
    simp only [step, stepApp, whileUp, hl]
  obtain ⟨hready, hparams, hrequests⟩ := matched_same profile f.app chrc
  have hc : (converse env db (f, c) (.characteristicDiscover (some chrc))).2 =
      ⟨Database.characteristicCallbacks rest, 0⟩ := by
    rw [converse_eq (k := 0) db h c rfl [] (by rw [hcall, hrequests]; rfl) (by rw [hcall]; rfl), hp.pending,
      hp.errors, List.reverse_nil, List.flatMap_nil, List.append_nil]
    rfl
  rw [hc, hcall]
  refine ⟨hp.isOf, ?_, rfl, rfl, hready.trans hp.ready, ?_, hp.found.matched chrc⟩
  · rw [hp.split, List.append_assoc, List.singleton_append]
  · rw [hparams]
    exact hp.type

/-- The end of the characteristics. -/
theorem AtCharacteristics.done (h : Reachable env f) (hl : f.app.link = .up conn) {service : PrimaryService}
    {seen : List GattChrc} (hp : AtCharacteristics db profile f.app.discovery c service seen [])
    (hu : InTurn env (f, c) (.characteristicDiscover none)) :
    Phase db profile (step env f (.characteristicDiscover none)).app.discovery
      (converse env db (f, c) (.characteristicDiscover none)).2 := by
  have hcall : (step env f (.characteristicDiscover none)).app = characteristicDiscoverCb env f.app none := by
    simp only [step, stepApp, whileUp, hl]
  have hall : service.characteristics.map (·.chrc) = seen := by rw [hp.split, List.append_nil]
  have hfound : Found profile f.app.discovery (service.characteristics.map (·.chrc)) := hall ▸ hp.found
  by_cases hboth : f.app.pm.notifyFound = true ∧ f.app.pm.writeFound = true
  · obtain ⟨hn, hw⟩ := hboth
    rcases characteristics_done env hn hw with ⟨_, hd, he⟩ | ⟨hd, he⟩
    · rw [← hcall] at hd he
      have hr : (step env f (.characteristicDiscover none)).app.discovery.requests =
          subscribeRequest env f.app :: f.app.discovery.requests := by rw [hd]
      have haccepted : (subscribeRequest env f.app).refused = false := hu.result h hr
      have hok : env.answer f.app.calls = 0 := by simpa [subscribeRequest, Obs.refused] using haccepted
      have hcallbacks : db.callbacks (subscribeRequest env f.app) = [.subscribe 0] := by
        rw [subscribeRequest, hok]
        rfl
      rw [converse_eq (k := 0) db h c rfl [subscribeRequest env f.app] hr (he haccepted), hp.pending, hp.errors, hd,
        List.reverse_singleton, List.flatMap_singleton, hcallbacks]
      exact .subscribing service ⟨hp.isOf, rfl, rfl, hp.ready, ⟨hfound.notifyFound, hfound.writeFound, hfound.notify,
        hfound.write⟩, hn, hw⟩
    · rw [← hcall] at hd he
      rw [converse_eq (k := 0) db h c rfl [] (by rw [hd]; rfl) he, hp.pending, hp.errors, hd]
      have hready : Found profile { f.app.discovery with ready := true } (service.characteristics.map (·.chrc)) :=
        ⟨hfound.notifyFound, hfound.writeFound, hfound.notify, hfound.write⟩
      exact .finished rfl (hready.discovered hp.isOf hn hw rfl)
  · have hmissing : f.app.pm.notifyFound = false ∨ f.app.pm.writeFound = false := by
      simpa only [not_and_or, Bool.not_eq_true] using hboth
    obtain ⟨hd, he⟩ := characteristics_missing env hmissing
    rw [← hcall] at hd he
    rw [converse_eq db h c rfl [] (by rw [hd]; rfl) he, hp.pending, hp.errors, hd]
    exact .finished rfl (hfound.missing hp.isOf hmissing hp.ready)

/-- The subscription succeeds. -/
theorem AtSubscription.done (h : Reachable env f) (hl : f.app.link = .up conn) {service : PrimaryService}
    (hp : AtSubscription db profile f.app.discovery c service) :
    Phase db profile (step env f (.subscribe 0)).app.discovery (converse env db (f, c) (.subscribe 0)).2 := by
  have hcall : (step env f (.subscribe 0)).app = subscribeHandler f.app 0 := by simp only [step, stepApp, whileUp, hl]
  obtain ⟨hd, he⟩ := subscribed_discovery f.app
  rw [← hcall] at hd he
  rw [converse_eq (k := 0) db h c rfl [] (by rw [hd]; rfl) he, hp.pending, hp.errors, hd]
  have hfound : Found profile { f.app.discovery with ready := true } (service.characteristics.map (·.chrc)) :=
    ⟨hp.found.notifyFound, hp.found.writeFound, hp.found.notify, hp.found.write⟩
  exact .finished rfl (hfound.discovered hp.isOf hp.notifyFound hp.writeFound rfl)

/-- One step of a conversation. -/
theorem Phase.step (h : Reachable env f) (hl : f.app.link = .up conn) (hprofile : f.app.config.activeProfile = profile)
    (hone : (db.services.filter (·.isOf profile)).length ≤ 1) (hp : Phase db profile f.app.discovery c)
    (hu : InTurn env (f, c) e) :
    Phase db profile (step env f e).app.discovery (converse env db (f, c) e).2 := by
  cases hd : e.isDiscovery with
  | false => exact hp.other h hl hu hd
  | true =>
      have hnext : c.pending.head? = some e := hu.next hd
      cases hp with
      | services seen rest hp =>
          rw [hp.pending] at hnext
          cases rest with
          | nil => cases hnext; exact hp.done h hl hu
          | cons t rest => cases hnext; exact .services _ _ (hp.seen h hl hprofile hone)
      | characteristics service seen rest hp =>
          rw [hp.pending] at hnext
          cases rest with
          | nil => cases hnext; exact hp.done h hl hu
          | cons chrc rest => cases hnext; exact .characteristics _ _ _ (hp.seen h hl hprofile)
      | subscribing service hp =>
          rw [hp.pending] at hnext
          cases hnext
          exact hp.done h hl
      | finished hpending =>
          rw [hpending] at hnext
          cases hnext

end

/-! ## Runs -/

/-- A conversation on an open connection. -/
structure Talk (env : Env) (db : Database) (profile : BleProfile) (p : Firmware × Conversation) : Prop where
  reachable : Reachable env p.1
  link : p.1.app.link.isUp
  unchanged : p.1.app.config.activeProfile = profile
  phase : Phase db profile p.1.app.discovery p.2

theorem exists_of_isUp {link : Link} (h : link.isUp) : ∃ conn, link = .up conn := by
  cases link with
  | up conn => exact ⟨conn, rfl⟩
  | _ => cases h

/-- The steps of a handler keep the connection. -/
theorem Traffic.Steps.conn {t t' : Traffic} {command : Prop} (h : Traffic.Steps env command t t') : t'.conn = t.conn := by
  have hissue : ∀ (u : Traffic) (w : Write) (result : Int), (u.issue w result).conn = u.conn := by
    intro u w result
    obtain ⟨_, _, _, he⟩ := Traffic.issue_eq u w result
    rw [he]
  have hfinish : ∀ (u : Traffic) (chunk : List Byte) (result : Int) (ahead : Nat),
      (u.finish chunk result ahead).conn = u.conn := by
    intro u chunk result ahead
    obtain ⟨_, _, _, he⟩ := Traffic.finish_eq u chunk result ahead
    rw [he]
  refine Runs.invariant (P := fun u => u.conn = t.conn) (fun {a b} hab ha => Eq.trans ?_ ha) h rfl
  cases hab with
  | commanded w result => exact hissue a w result
  | pumped w n => exact (hfinish _ _ _ _).trans (hissue a.claim w _)
  | refused result => exact hfinish a.claim _ _ _
  | _ => rfl

/-- The connection opens. -/
theorem talk_connected (hf : Reachable env f) {conn : Conn} (hl : f.app.link = .creating conn)
    (hu : InTurn env (f, .start) (.connected 0)) :
    Talk env db f.app.config.activeProfile (converse env db (f, .start) (.connected 0)) := by
  have hnext : Reachable env (step env f (.connected 0)) := hf.next env (.connected 0)
  have hcall : (step env f (.connected 0)).app = connected env f.app conn 0 := by simp only [step, stepApp, hl]
  have hup : (step env f (.connected 0)).app.link.isUp := by
    have hreport : (f.app.report (.connected 0)).conn = some conn := by
      simp only [App.report, hl]
      rfl
    have hconn : (step env f (.connected 0)).app.pm.conn = some conn :=
      (step_traffics env hf.linkHeld (.connected 0)).conn.trans hreport
    exact hnext.isUp (by rw [hconn]; rfl)
  refine ⟨hnext, hup, hu.config, ?_⟩
  obtain ⟨result, hd⟩ := discovery_connected env f.app conn
  rw [← hcall] at hd
  have hr : (step env f (.connected 0)).app.discovery.requests = serviceRequest conn result :: f.app.discovery.requests := by
    rw [hd]
  have haccepted : (serviceRequest conn result).refused = false := hu.result hf hr
  have hcallbacks : db.callbacks (serviceRequest conn result) =
      Database.serviceCallbacks (db.services.map (·.service)) := by
    have hok : result = 0 := by simpa [serviceRequest, Obs.refused] using haccepted
    rw [serviceRequest, hok, Database.callbacks, if_neg (not_not.mpr rfl), if_pos rfl, db.servicesIn_all]
  have hpending := converse_pending db hf .start (.connected 0) [serviceRequest conn result] hr
  rw [List.reverse_singleton, List.flatMap_singleton, hcallbacks] at hpending
  refine .services [] db.services ⟨rfl, hpending, rfl, ?_, ?_, ?_, ?_, ?_, ?_⟩
  · exact congrArg Discovery.ready hd
  · exact congrArg Discovery.notifyFound hd
  · exact congrArg Discovery.writeFound hd
  · exact congrArg (·.serviceDiscoverParams.type) hd
  · exact congrArg Discovery.serviceFound hd
  · rintro _ ⟨⟩

theorem Talk.step {p : Firmware × Conversation} {e : Event} (h : Talk env db profile p)
    (hone : (db.services.filter (·.isOf profile)).length ≤ 1) (hu : InTurn env p e) :
    Talk env db profile (converse env db p e) := by
  obtain ⟨conn, hl⟩ := exists_of_isUp h.link
  refine ⟨h.reachable.next env e, ?_, hu.config.trans h.unchanged, h.phase.step h.reachable hl h.unchanged hone hu⟩
  have hup : (BleAtHost.Main.step env p.1 e).app.link = .up conn := link_step h.reachable hl hu.kept
  exact congrArg Link.isUp hup

theorem Phase.ready {d : Discovery} {c : Conversation} (h : Phase db profile d c) (hp : c.pending ≠ []) : d.ready = false := by
  cases h with
  | services seen rest h => exact h.ready
  | characteristics service seen rest h => exact h.ready
  | subscribing service h => exact h.ready
  | finished hpending => exact absurd hpending hp

theorem Phase.discovered {d : Discovery} {c : Conversation} (h : Phase db profile d c) (hp : c.pending = []) :
    Discovered (db.find profile) d c.errors := by
  cases h with
  | services seen rest h =>
      rw [h.pending] at hp
      exact absurd hp (List.append_ne_nil_of_right_ne_nil _ (List.cons_ne_nil _ _))
  | characteristics service seen rest h =>
      rw [h.pending] at hp
      exact absurd hp (List.append_ne_nil_of_right_ne_nil _ (List.cons_ne_nil _ _))
  | subscribing service h =>
      rw [h.pending] at hp
      cases hp
  | finished hpending h => exact h

/-- A discovery that nothing disturbs finds the profile of any database, or says once that it is not there. -/
theorem profile_discovered (env : Env) (db : Database) {f : Firmware} (hf : Reachable env f) {conn : Conn}
    (hl : f.app.link = .creating conn)
    (hone : (db.services.filter (·.isOf f.app.config.activeProfile)).length ≤ 1) (es : List Event)
    (hes : Runs.Along (InTurn env) (converse env db) (f, .start) (.connected 0 :: es)) :
    let p := Runs.run (converse env db) (f, .start) (.connected 0 :: es)
    (p.2.pending ≠ [] → p.1.app.pm.ready = false) ∧
      (p.2.pending = [] → Discovered (db.find f.app.config.activeProfile) p.1.app.discovery p.2.errors) := by
  have htalk := Runs.run_invariant_along (P := Talk env db f.app.config.activeProfile)
    (fun p e hu h => h.step hone hu) (talk_connected hf hl hes.1) hes.2
  exact ⟨htalk.phase.ready, htalk.phase.discovered⟩

/-- The service of `becomeReady` behind one of another kind. -/
def twoServices : Database where
  services :=
    [⟨⟨.uuid16 0x1800, 1, 4⟩, [⟨2, .uuid16 0x2a00, 3, 2⟩]⟩,
      ⟨⟨.uuid16 0xfff0, 5, 10⟩, [⟨6, .uuid16 0xfff1, 7, 16⟩, ⟨9, .uuid16 0xfff2, 10, 4⟩]⟩]
  bounds := by decide
  ordered := by decide
  inside := by decide
  apart := by decide

theorem profile_discovered_sample :
    let p := Runs.run (converse (stackRefusing []) twoServices)
      (Runs.run (step (stackRefusing [])) (boot sampleConfig 0 true) [hostSends "AT+STARTCON=0x010203040506,0\r\n" 0], .start)
      (.connected 0 ::
        [.serviceDiscover (some ⟨.uuid16 0x1800, 1, 4⟩), .attMtu 247, .serviceDiscover (some ⟨.uuid16 0xfff0, 5, 10⟩),
          .serviceDiscover none, .characteristicDiscover (some ⟨.uuid16 0xfff1, 7, 16⟩), .exchange 0,
          .characteristicDiscover (some ⟨.uuid16 0xfff2, 10, 4⟩), .characteristicDiscover none, .subscribe 0])
    Discovered (some (⟨.uuid16 0xfff1, 7, 16⟩, ⟨.uuid16 0xfff2, 10, 4⟩)) p.1.app.discovery p.2.errors :=
  (@profile_discovered (stackRefusing []) twoServices _
    ⟨sampleConfig, 0, true, [hostSends "AT+STARTCON=0x010203040506,0\r\n" 0], rfl⟩ ⟨0, [6, 5, 4, 3, 2, 1], 0⟩ (by decide)
    (by decide) _ (by decide)).2 (by decide)

end BleAtHost.Main
