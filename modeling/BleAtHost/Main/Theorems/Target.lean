import BleAtHost.Lemmas.Uuid
import BleAtHost.Main.Theorems.Connection

/-!
# The target of the writes

The handle that discovery finds is kept for the whole connection, the profile that it was matched against is not.
The database of a peer gives the UUID behind every handle of its connection.
-/

namespace BleAtHost.Main

variable {s s' : App} {env : Env} {db : Conn → Nat → BtUuid} {initial : BleProfile}

/-- The connection and the handle of a write. -/
def StackCall.target : StackCall → Option (Conn × Nat)
  | .gattWriteWithoutResponse conn handle _ | .gattWrite conn handle _ => some (conn, handle)
  | _ => none

def Obs.target : Obs → Option (Conn × Nat)
  | .stack call _ => call.target
  | _ => none

/-- The active profile, `initial` at the start. -/
def profileAt (initial : BleProfile) : List Obs → BleProfile
  | [] => initial
  | .profile _ new _ :: _ => new
  | _ :: log => profileAt initial log

/-- The characteristic behind the handle is the write characteristic of the profile. -/
def Configured (db : Conn → Nat → BtUuid) (profile : BleProfile) (conn : Conn) (handle : Nat) : Prop :=
  bleHostUuidEquals (bleHostFormatUuidFromBt (db conn handle) BLE_HOST_UUID_STR_LEN) profile.writeUuid

/-- The write UUID stays what it is, or no write characteristic has been found yet. -/
def Obs.keepsTarget : Obs → Bool
  | .profile old new cached => !cached || bleHostUuidEquals old.writeUuid new.writeUuid
  | _ => true

/-- The write UUID has been the same since the write characteristic of this connection was found. -/
def TargetKept (log : List Obs) : Prop := ∀ o ∈ sinceConnected log, o.keepsTarget

/-- Every write goes to the characteristic that the profile of that moment names. -/
def WritesConfigured (db : Conn → Nat → BtUuid) (initial : BleProfile) : List Obs → Prop :=
  Past fun o before => ∀ t ∈ o.target, Configured db (profileAt initial before) t.1 t.2

/-- Every write finds its target kept. -/
def TargetsKept : List Obs → Prop := Past fun o before => o.target.isSome → TargetKept before

/-- A characteristic that the stack reports is one of the database of the peer. -/
def FromDatabase (db : Conn → Nat → BtUuid) (s : App) : StackReport → Prop
  | .characteristic chrc => ∀ conn, s.link = .up conn → db conn chrc.valueHandle = chrc.uuid
  | _ => True

def Discovers (db : Conn → Nat → BtUuid) (f : Firmware) (e : Event) : Prop := ∀ r ∈ e.report, FromDatabase db f.app r

instance (profile : BleProfile) (conn : Conn) (handle : Nat) : Decidable (Configured db profile conn handle) :=
  inferInstanceAs (Decidable (_ = true))

instance (log : List Obs) : Decidable (TargetKept log) := inferInstanceAs (Decidable (∀ o ∈ sinceConnected log, _))

instance : (r : StackReport) → Decidable (FromDatabase db s r)
  | .subscription _ | .lost | .guardTimer => inferInstanceAs (Decidable True)
  | .characteristic chrc =>
      match hl : s.link with
      | .up conn =>
          decidable_of_iff (db conn chrc.valueHandle = chrc.uuid)
            ⟨fun h c hc => by cases hl.symm.trans hc; exact h, fun h => h conn hl⟩
      | .creating _ => isTrue fun c hc => (nomatch hl.symm.trans hc)
      | .down => isTrue fun c hc => (nomatch hl.symm.trans hc)

instance (f : Firmware) (e : Event) : Decidable (Discovers db f e) := inferInstanceAs (Decidable (∀ r ∈ e.report, _))

/-! ## The log -/

/-- Observations that leave the profile, the connection and the writes alone. -/
def Obs.still : Obs → Bool
  | .stack call _ => call.target.isNone
  | .profile _ _ _ => false
  | .connected err => err ≠ 0
  | _ => true

theorem still_of_aside {o : Obs} (h : o.Aside) : o.still := by
  cases o with
  | stack call result =>
      cases call with
      | gattWrite => exact h.elim
      | gattWriteWithoutResponse => exact h.elim
      | _ => rfl
  | profile => exact h.elim
  | connected => exact h.elim
  | _ => rfl

theorem target_of_still {o : Obs} (h : o.still) : o.target = none := by
  cases o with
  | stack call result => simpa [Obs.still, Obs.target] using h
  | _ => rfl

theorem TargetKept.tail {o : Obs} {log : List Obs} (ho : o ≠ .connected 0) (h : TargetKept (o :: log)) :
    TargetKept log := by
  intro o' hm
  refine h o' ?_
  rw [sinceConnected_cons ho]
  exact List.mem_cons_of_mem o hm

theorem ne_connected_of_still {o : Obs} (h : o.still) : o ≠ .connected 0 := by
  rintro rfl
  simp [Obs.still] at h

/-- The writes that find their target kept go to the configured characteristic. -/
def KeptWrites (db : Conn → Nat → BtUuid) (initial : BleProfile) : List Obs → Prop :=
  Past fun o before => ∀ t ∈ o.target, TargetKept before → Configured db (profileAt initial before) t.1 t.2

theorem KeptWrites.configured {log : List Obs} (h : KeptWrites db initial log) (hk : TargetsKept log) :
    WritesConfigured db initial log := by
  induction log with
  | nil => trivial
  | cons o log ih => exact ⟨fun t ht => h.1 t ht (hk.1 (Option.isSome_of_mem ht)), ih h.2 hk.2⟩

theorem still_append (db : Conn → Nat → BtUuid) (initial : BleProfile) {new : List Obs} (log : List Obs)
    (hn : ∀ o ∈ new, o.still) :
    profileAt initial (new ++ log) = profileAt initial log ∧ (TargetKept (new ++ log) → TargetKept log) ∧
      (KeptWrites db initial log → KeptWrites db initial (new ++ log)) := by
  induction new with
  | nil => exact ⟨rfl, id, id⟩
  | cons o new ih =>
      obtain ⟨hprofile, hkept, hpast⟩ := ih fun o' hm => hn o' (List.mem_cons_of_mem o hm)
      have ho : o.still := hn o List.mem_cons_self
      refine ⟨?_, fun h => hkept (h.tail (ne_connected_of_still ho)), fun h => ⟨?_, hpast h⟩⟩
      · rw [← hprofile]
        cases o with
        | profile => cases ho
        | _ => rfl
      · intro t ht
        rw [target_of_still ho] at ht
        cases ht

/-! ## What the changes of the control keep -/

structure Targeted (db : Conn → Nat → BtUuid) (initial : BleProfile) (s : App) : Prop where
  connection : ConnectionKept s
  held : ∀ {conn}, s.pm.conn = some conn → s.link = .up conn
  profile : profileAt initial s.log = s.config.activeProfile
  target : TargetKept s.log → ∀ {conn}, s.pm.conn = some conn → s.pm.writeFound →
    Configured db s.config.activeProfile conn s.pm.writeValueHandle
  past : KeptWrites db initial s.log

theorem Targeted.of_same (h : Targeted db initial s) (hk : ConnectionKept s') (hc : s'.pm.conn = s.pm.conn)
    (hw : s'.pm.writeFound = s.pm.writeFound) (hh : s'.pm.writeValueHandle = s.pm.writeValueHandle)
    (hl : s'.link = s.link) (hp : s'.config.activeProfile = s.config.activeProfile) (new : List Obs)
    (hlog : s'.log = new ++ s.log) (hn : ∀ o ∈ new, o.still) : Targeted db initial s' := by
  obtain ⟨hprofile, hkept, hpast⟩ := still_append db initial s.log hn
  constructor
  · exact hk
  · intro conn hconn
    rw [hl]
    exact h.held (hc ▸ hconn)
  · rw [hlog, hprofile, hp, h.profile]
  · intro htarget conn hconn hfound
    rw [hp, hh]
    exact h.target (hkept (hlog ▸ htarget)) (hc ▸ hconn) (hw ▸ hfound)
  · rw [hlog]
    exact hpast h.past

/-- Without a connection nothing is found. -/
theorem Targeted.of_detached (h : Targeted db initial s) (hk : ConnectionKept s') (hc : s'.pm.conn = none)
    (hp : s'.config = s.config) (hprofile : profileAt initial s'.log = profileAt initial s.log)
    (hpast : KeptWrites db initial s'.log) : Targeted db initial s' := by
  constructor
  · exact hk
  · intro conn hconn
    rw [hc] at hconn
    cases hconn
  · rw [hprofile, hp, h.profile]
  · intro _ conn hconn
    rw [hc] at hconn
    cases hconn
  · exact hpast

theorem Targeted.announceReady (h : Targeted db initial s) (hk : ConnectionKept (announceReady s)) :
    Targeted db initial (announceReady s) := by
  rcases announceReady_cases s with ⟨he, _⟩ | ⟨he, _⟩
  · rw [he] at hk ⊢
    exact h.of_same hk rfl rfl rfl rfl rfl [.callback .ready] rfl (by simp [Obs.still])
  · rw [he] at hk ⊢
    exact h.of_same hk rfl rfl rfl rfl rfl [.callback .ready] rfl (by simp [Obs.still])

/-- The comparison that finds the write characteristic makes its handle the target. -/
theorem matchCharacteristic_target {profile : BleProfile} {pm : ProfileManagerState} {chrc : GattChrc} {conn : Conn}
    (hdb : db conn chrc.valueHandle = chrc.uuid)
    (h : pm.writeFound → Configured db profile conn pm.writeValueHandle)
    (hw : (matchCharacteristic profile pm chrc).writeFound) :
    Configured db profile conn (matchCharacteristic profile pm chrc).writeValueHandle := by
  unfold matchCharacteristic at hw ⊢
  dsimp only at hw ⊢
  -- the comparison with the notify UUID does not touch the write characteristic
  generalize hpm : (if !pm.notifyFound && bleHostUuidEquals (bleHostFormatUuidFromBt chrc.uuid BLE_HOST_UUID_STR_LEN)
      profile.notifyUuid then { pm with notifyFound := true, notifyValueHandle := chrc.valueHandle } else pm) = t at hw ⊢
  have hsame : t.writeFound = pm.writeFound ∧ t.writeValueHandle = pm.writeValueHandle := by
    rw [← hpm]
    split
    · exact ⟨rfl, rfl⟩
    · exact ⟨rfl, rfl⟩
  split at hw
  · rename_i hmatch
    rw [if_pos hmatch]
    have hequals := (Bool.and_eq_true _ _ ▸ hmatch).2
    unfold Configured
    dsimp only
    rw [hdb]
    exact hequals
  · rename_i hmatch
    rw [if_neg hmatch, hsame.2]
    exact h (hsame.1 ▸ hw)

theorem Targeted.written (h : Targeted db initial s) (hk : ConnectionKept s') {call : StackCall} {result : Int}
    {conn : Conn} (hcall : call.target = some (conn, s.pm.writeValueHandle)) (hc : s.pm.conn = some conn)
    (hw : s.pm.writeFound) (hpm : s'.pm = s.pm) (hl : s'.link = s.link)
    (hp : s'.config.activeProfile = s.config.activeProfile) (hlog : s'.log = .stack call result :: s.log) :
    Targeted db initial s' := by
  constructor
  · exact hk
  · intro c hconn
    rw [hl]
    exact h.held (hpm ▸ hconn)
  · rw [hlog, hp]
    exact h.profile
  · intro htarget c hconn hfound
    rw [hlog] at htarget
    rw [hp, hpm]
    exact h.target (htarget.tail (by simp)) (hpm ▸ hconn) (hpm ▸ hfound)
  · rw [hlog]
    refine ⟨fun t ht hkept => ?_, h.past⟩
    have hsome : some (conn, s.pm.writeValueHandle) = some t := hcall.symm.trans ht
    cases hsome
    rw [h.profile]
    exact h.target hkept hc hw

theorem Targeted.replaced {profile : BleProfile} (h : Targeted db initial s)
    (hk : ConnectionKept (replaceProfile s profile)) : Targeted db initial (replaceProfile s profile) := by
  constructor
  · exact hk
  · exact h.held
  · rfl
  · intro htarget conn hconn hfound
    have hequals : bleHostUuidEquals s.config.activeProfile.writeUuid profile.writeUuid := by
      have ho := htarget (.profile s.config.activeProfile profile s.pm.writeFound)
        (by rw [replaceProfile, sinceConnected_cons (by simp)]; exact List.mem_cons_self)
      have hfound : s.pm.writeFound = true := hfound
      simpa [Obs.keepsTarget, hfound] using ho
    exact bleHostUuidEquals_trans (h.target (TargetKept.tail (by simp) htarget) hconn hfound) hequals
  · exact ⟨fun _ ht => (by cases ht), h.past⟩

theorem Targeted.control (h : Targeted db initial s) (hc : Control env (FromDatabase db) s s') :
    Targeted db initial s' := by
  have hk : ConnectionKept s' := h.connection.control hc
  cases hc with
  | aside ha =>
      obtain ⟨new, hn, hlog⟩ := ha.log
      exact h.of_same hk ha.route.conn ha.route.writeFound ha.route.writeValueHandle ha.link ha.activeProfile new hlog
        fun o ho => still_of_aside (hn o ho)
  | subscribe => exact h.of_same hk rfl rfl rfl rfl rfl [_] rfl (by simp [Obs.still, StackCall.target])
  | write conn data hconn hr hw => exact h.written hk rfl hconn hw rfl rfl rfl rfl
  | writeWithoutResponse conn data hconn hr hw => exact h.written hk rfl hconn hw rfl rfl rfl rfl
  | found chrc conn hl hr =>
      have hsame := (matchCharacteristic_conn s.config.activeProfile s.pm chrc).1
      constructor
      · exact hk
      · exact fun hconn => h.held (hsame ▸ hconn)
      · exact h.profile
      · intro hkept c hconn hfound
        have hconn : s.pm.conn = some c := hsame ▸ hconn
        exact matchCharacteristic_target (hr c (h.held hconn)) (h.target hkept hconn) hfound
      · exact h.past
  | readyFound => exact h.announceReady hk
  | subscribed => exact h.announceReady hk
  | unsubscribed => exact h.of_same hk rfl rfl rfl rfl rfl [] rfl (by simp)
  | profile profile => exact h.replaced hk
  | errorState => exact h.of_same hk rfl rfl rfl rfl rfl [] rfl (by simp)
  | disconnecting => exact h.of_same hk rfl rfl rfl rfl rfl [_] rfl (by simp [Obs.still, StackCall.target])
  | enterAccepted => exact h.of_same hk rfl rfl rfl rfl rfl [_] rfl (by simp [Obs.still])
  | entered => exact h.of_same hk rfl rfl rfl rfl rfl [_, _] rfl (by simp [Obs.still])
  | left => exact h.of_same hk rfl rfl rfl rfl rfl [_, _, _] rfl (by simp [Obs.still])
  | scanning => exact h.of_same hk rfl rfl rfl rfl rfl [] rfl (by simp)
  | scanTimer => exact h.of_same hk rfl rfl rfl rfl rfl [] rfl (by simp)
  | scanStopped => exact h.of_same hk rfl rfl rfl rfl rfl [_] rfl (by simp [Obs.still, StackCall.target])
  | scanStuck => exact h.of_same hk rfl rfl rfl rfl rfl [_] rfl (by simp [Obs.still, StackCall.target])
  | create peer hcur =>
      have hpc : s.pm.conn = none := h.connection.manager_none hcur
      obtain ⟨_, _, _, _, _, hlog, hcreated⟩ := createConnection_cases env s peer
      have hsame : (createConnection env s peer).2.pm = s.pm := hcreated.elim (fun ha => ha.2.pm) fun ha => ha.2.pm
      have hconfig : (createConnection env s peer).2.config = s.config :=
        hcreated.elim (fun ha => ha.2.config) fun ha => ha.2.config
      refine h.of_detached hk (by rw [hsame]; exact hpc) hconfig ?_ ?_
      · rw [hlog]; rfl
      · rw [hlog]
        exact ⟨fun _ ht => (by cases ht), h.past⟩
  | connectFailed err conn hl =>
      have hpc : s.pm.conn = none := (h.connection.creating hl).2
      exact h.of_detached hk hpc rfl rfl ⟨fun _ ht => (by cases ht), fun _ ht => (by cases ht), h.past⟩
  | opened conn hl =>
      constructor
      · exact hk
      · rintro c ⟨⟩
        rfl
      · exact h.profile
      · exact fun _ _ _ hfound => (by cases hfound)
      · exact ⟨fun _ ht => (by cases ht), h.past⟩
  | closed conn reason hl hcur hpc =>
      have hclosed : ClosedFrom s (closeConnection env s conn reason) conn := closedFrom hcur hpc reason
      obtain ⟨_, _, _, hlog⟩ := hclosed.log
      refine h.of_detached hk hclosed.pmConn hclosed.config ?_ ?_
      · rw [hlog]; rfl
      · rw [hlog]
        exact ⟨fun _ ht => (by cases ht), fun _ ht => (by cases ht), fun _ ht => (by cases ht),
          fun _ ht => (by cases ht), fun _ ht => (by cases ht), h.past⟩

/-! ## Runs -/

theorem targeted_run (env : Env) (db : Conn → Nat → BtUuid) (config : BleHostConfig) (started : Int) (dtr : Bool)
    {es : List Event} (hdb : Runs.Along (Discovers db) (step env) (boot config started dtr) es) :
    Targeted db config.activeProfile (Runs.run (step env) (boot config started dtr) es).app := by
  have hstep : ∀ f (e : Event), Discovers db f e → Reachable env f ∧ Targeted db config.activeProfile f.app →
      Reachable env (step env f e) ∧ Targeted db config.activeProfile (step env f e).app := by
    rintro f e hdiscovers ⟨hf, htargeted⟩
    refine ⟨hf.next env e, ?_⟩
    have hcontrols : Controls env (FromDatabase db) f.app (step env f e).app := step_controls hf.linkHeld hdiscovers
    exact Runs.invariant (P := Targeted db config.activeProfile) (fun hc ht => ht.control hc) hcontrols htargeted
  have hboot : Targeted db config.activeProfile (boot config started dtr).app := by
    constructor
    · exact connectionKept_boot config started dtr
    · rintro conn ⟨⟩
    · rfl
    · rintro _ conn ⟨⟩
    · exact ⟨fun _ ht => (by cases ht), trivial⟩
  exact (Runs.run_invariant_along (P := fun f => Reachable env f ∧ Targeted db config.activeProfile f.app) hstep
    ⟨⟨config, started, dtr, [], rfl⟩, hboot⟩ hdb).2

/-- As long as the write UUID is not replaced behind a characteristic that was found, every write goes to the
characteristic that is configured. The profile that the log shows is the one that `AT+GETSVCUUID` reports. -/
theorem writes_configured (env : Env) (db : Conn → Nat → BtUuid) (config : BleHostConfig) (started : Int) (dtr : Bool)
    {es : List Event} (hdb : Runs.Along (Discovers db) (step env) (boot config started dtr) es)
    (hkept : TargetsKept (Runs.run (step env) (boot config started dtr) es).app.log) :
    (opGetProfile (Runs.run (step env) (boot config started dtr) es).app).1 =
        profileAt config.activeProfile (Runs.run (step env) (boot config started dtr) es).app.log ∧
      WritesConfigured db config.activeProfile (Runs.run (step env) (boot config started dtr) es).app.log := by
  have htargeted := targeted_run env db config started dtr hdb
  exact ⟨htargeted.profile.symm, htargeted.past.configured hkept⟩

/-- The database of the connections above. -/
def sampleDatabase (_ : Conn) (handle : Nat) : BtUuid := if handle = 3 then .uuid16 0xfff1 else .uuid16 0xfff2

/-- The profile is set before the connection, and the same UUID is set again on it in another spelling. -/
theorem writes_configured_respelled :
    let es := hostSends "AT+SETSVCUUID=FFF0,FFF1,FFF2\r\n" 0 :: becomeReady ++
      [hostSends "AT+SETSVCUUID=0xfff0,0xfff1,0xfff2\r\n" 1000, hostSends "AT+SEND=0,3\r\nabc" 2000]
    let f := Runs.run (step (stackRefusing [])) (boot sampleConfig 0 true) es
    (opGetProfile f.app).1 = profileAt sampleConfig.activeProfile f.app.log ∧
      WritesConfigured sampleDatabase sampleConfig.activeProfile f.app.log := by
  intro es f
  have hrun : Runs.Along (Discovers sampleDatabase) (step (stackRefusing [])) (boot sampleConfig 0 true) es ∧
      TargetsKept f.app.log := by
    unfold TargetsKept
    decide
  have hwrites := writes_configured (stackRefusing []) sampleDatabase sampleConfig 0 true hrun.1 hrun.2
  exact hwrites

/-- The profile is replaced on the connection: the next payload goes to the characteristic of the old one. -/
theorem write_to_replaced_target :
    let es := becomeReady ++
      [hostSends "AT+SETSVCUUID=0xFFF0,0xFFF1,0xFFF3\r\n" 1000, hostSends "AT+SEND=0,3\r\nabc" 2000]
    let f := Runs.run (step (stackRefusing [])) (boot sampleConfig 0 true) es
    Runs.Along (Discovers sampleDatabase) (step (stackRefusing [])) (boot sampleConfig 0 true) es ∧
      ¬WritesConfigured sampleDatabase sampleConfig.activeProfile f.app.log := by
  unfold WritesConfigured
  decide

end BleAtHost.Main
