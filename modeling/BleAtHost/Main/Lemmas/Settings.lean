import BleAtHost.Lemmas.Uuid
import BleAtHost.Main.Settings

/-!
# What is saved and what is loaded

The saves of a call, and the loaded configuration as a function of the value under each key.
-/

namespace BleAtHost.Main

/-! ## Reading -/

theorem fromLe16_le16 {n : Nat} (h : n < 65536) : fromLe16 (le16 n) = n := by
  simp only [le16, fromLe16, UInt8.toNat_ofNat']
  omega

theorem readU16_le16 (old : Nat) {n : Nat} (h : n < 65536) : readU16 old (le16 n) = n := fromLe16_le16 h

theorem readUuid_normalized {input output : Text}
    (h : bleHostNormalizeUuid input BLE_HOST_UUID_STR_LEN = some output) (old : Text) :
    readUuid old output = (0, output) := by
  obtain ⟨hpos, hshort, htext⟩ := fits_of_normalized h
  have hc : ¬(output.length = 0 ∨ BLE_HOST_UUID_STR_LEN ≤ output.length) := by
    rintro (hz | hl)
    · exact hpos hz
    · omega
  rw [readUuid, if_neg hc, htext, normalize_normalized h]

theorem snprintk_normalized {input output : Text}
    (h : bleHostNormalizeUuid input BLE_HOST_UUID_STR_LEN = some output) :
    snprintk BLE_HOST_UUID_STR_LEN output = output :=
  List.take_of_length_le (Nat.le_pred_of_lt (fits_of_normalized h).short)

/-! ## Loading -/

/-- The configuration that results from the values under the keys. -/
def loaded (c : BleHostConfig) (value : SettingsKey → Option (List Byte)) : BleHostConfig :=
  { c with
    activeProfile :=
      { serviceUuid :=
          (value .service).elim c.activeProfile.serviceUuid fun v =>
            (readUuid c.activeProfile.serviceUuid v).2
        notifyUuid :=
          (value .notify).elim c.activeProfile.notifyUuid fun v =>
            (readUuid c.activeProfile.notifyUuid v).2
        writeUuid :=
          (value .write).elim c.activeProfile.writeUuid fun v =>
            (readUuid c.activeProfile.writeUuid v).2 }
    mtu := (value .mtu).elim c.mtu (readU16 c.mtu)
    connIntervalMin := (value .connMin).elim c.connIntervalMin (readU16 c.connIntervalMin)
    connIntervalMax := (value .connMax).elim c.connIntervalMax (readU16 c.connIntervalMax)
    latency := (value .latency).elim c.latency (readU16 c.latency)
    timeout := (value .timeout).elim c.timeout (readU16 c.timeout) }

/-- A stored item as the load passes it to `settings_handle_set`. -/
def loadItem (config : BleHostConfig) (item : SettingsKey × List Byte) : BleHostConfig :=
  (settingsHandleSet config (.saved item.1) item.2).2

theorem foldl_loadItem {items : List (SettingsKey × List Byte)} (h : KeyStore.Distinct items) (config : BleHostConfig) :
    items.foldl loadItem config = loaded config (KeyStore.get items) := by
  induction items generalizing config with
  | nil => rfl
  | cons item items ih =>
      obtain ⟨key, value⟩ := item
      have hnone := h.get_tail
      rw [List.foldl_cons, ih h.tail]
      cases key with
      | _ => simp [loaded, loadItem, settingsHandleSet, KeyStore.get_cons, hnone]

/-- The order of the items does not matter to the load. -/
theorem settingsLoad_perm {store order : List (SettingsKey × List Byte)} (h : KeyStore.Distinct store)
    (hp : order.Perm store) : settingsLoad order = loaded defaultConfig (KeyStore.get store) := by
  have hload : settingsLoad order = loaded defaultConfig (KeyStore.get order) := foldl_loadItem (h.perm hp) defaultConfig
  rw [hload]
  exact congrArg _ (funext (KeyStore.get_perm h hp))

/-! ## Saving -/

/-- The store after these saves. -/
def savedItems (store items : List (SettingsKey × List Byte)) : List (SettingsKey × List Byte) :=
  items.foldl (fun store item => KeyStore.save store item.1 item.2) store

section
variable (env : Env)

/-- The saves that succeed are the first ones. -/
theorem settingsSaveAll_eq (s : App) (items : List (SettingsKey × List Byte)) :
    ∃ rc calls log, settingsSaveAll env s items =
      (rc,
        { s with
          store := savedItems s.store (items.take (successes env s.calls items.length))
          calls := calls
          log := log }) := by
  induction items generalizing s with
  | nil => exact ⟨0, s.calls, s.log, rfl⟩
  | cons item items ih =>
      obtain ⟨key, value⟩ := item
      by_cases h : env.answer s.calls = 0
      · obtain ⟨rc, calls, log, he⟩ := ih (settingsSaveOne env s key value).2
        refine ⟨rc, calls, log, ?_⟩
        simp only [settingsSaveAll, settingsSaveOne, App.ask, h, List.length_cons, successes, List.take_succ_cons,
          ne_eq, not_true_eq_false, if_false, if_true] at he ⊢
        rw [he]
        rfl
      · refine ⟨env.answer s.calls, s.calls + 1, .stack (.settingsSave key value) (env.answer s.calls) :: s.log, ?_⟩
        simp only [settingsSaveAll, settingsSaveOne, App.ask, h, List.length_cons, successes, ne_eq, not_false_eq_true,
          if_false, if_true, List.take_zero]
        rfl

theorem successes_le (calls n : Nat) : successes env calls n ≤ n := by
  induction n generalizing calls with
  | zero => exact Nat.le_refl 0
  | succ n ih =>
      unfold successes
      split
      · exact Nat.succ_le_succ (ih _)
      · exact Nat.zero_le _

theorem successes_eq (h : ∀ n, env.answer n = 0) (calls n : Nat) : successes env calls n = n := by
  induction n generalizing calls with
  | zero => rfl
  | succ n ih => simp [successes, h, ih]

theorem saves_length (new : BleHostConfig) (u : Update) : (u.saves new).length = u.saveCount := by
  cases u with
  | _ => rfl

/-- All updates have one shape. -/
theorem call_eq (s : App) (u : Update) :
    ∃ log, u.call env s =
      match u.config s.config with
      | none => (-EINVAL, s)
      | some new => settingsSaveAll env { s with config := new, log := log } (u.saves new) := by
  cases u with
  | profile serviceUuid notifyUuid writeUuid =>
      simp only [Update.call, bleHostSettingsUpdateProfile, Update.config, normalizeProfile]
      cases hs : bleHostNormalizeUuid serviceUuid BLE_HOST_UUID_STR_LEN with
      | none => exact ⟨s.log, rfl⟩
      | some serviceNorm =>
          cases hn : bleHostNormalizeUuid notifyUuid BLE_HOST_UUID_STR_LEN with
          | none => exact ⟨s.log, rfl⟩
          | some notifyNorm =>
              cases hw : bleHostNormalizeUuid writeUuid BLE_HOST_UUID_STR_LEN with
              | none => exact ⟨s.log, rfl⟩
              | some writeNorm =>
                  simp only [Option.map_some, snprintk_normalized hs, snprintk_normalized hn, snprintk_normalized hw]
                  exact ⟨_, rfl⟩
  | mtu newMtu =>
      refine ⟨s.log, ?_⟩
      simp only [Update.call, bleHostSettingsUpdateMtu, Update.config]
      split
      · rfl
      · rfl
  | connParams minInterval maxInterval latency timeout =>
      refine ⟨s.log, ?_⟩
      simp only [Update.call, bleHostSettingsUpdateConnParams, Update.config]
      cases connParamsValid minInterval.toNat maxInterval.toNat latency.toNat timeout.toNat with
      | false => rfl
      | true => rfl

/-- The state after a call: an accepted one stores what could be saved. -/
theorem call_app (s : App) (u : Update) {new : BleHostConfig} (h : u.config s.config = some new) :
    (u.call env s).2.config = new ∧
      (u.call env s).2.store = savedItems s.store ((u.saves new).take (successes env s.calls u.saveCount)) := by
  obtain ⟨log, hcall⟩ := call_eq env s u
  obtain ⟨rc, calls, _, he⟩ := settingsSaveAll_eq env { s with config := new, log := log } (u.saves new)
  rw [saves_length] at he
  rw [hcall, h]
  dsimp only
  rw [he]
  exact ⟨rfl, rfl⟩

theorem call_app_rejected (s : App) (u : Update) (h : u.config s.config = none) : (u.call env s).2 = s := by
  obtain ⟨_, hcall⟩ := call_eq env s u
  rw [hcall, h]

theorem cutShort_store (s : App) (count : Nat) (u : Update) {new : BleHostConfig} (h : u.config s.config = some new) :
    (u.cutShort env s count).store =
      savedItems s.store ((u.saves new).take (min count (successes env s.calls (min count u.saveCount)))) := by
  obtain ⟨rc, calls, log, he⟩ := settingsSaveAll_eq env { s with config := new } ((u.saves new).take count)
  rw [List.length_take, saves_length, List.take_take, min_comm] at he
  rw [Update.cutShort, h]
  dsimp only
  rw [he]

theorem cutShort_rejected (s : App) (count : Nat) (u : Update) (h : u.config s.config = none) :
    u.cutShort env s count = s := by
  rw [Update.cutShort, h]

end

theorem distinct_savedItems {store : List (SettingsKey × List Byte)} (h : KeyStore.Distinct store)
    (items : List (SettingsKey × List Byte)) : KeyStore.Distinct (savedItems store items) := by
  induction items generalizing store with
  | nil => exact h
  | cons item items ih => exact ih (h.save item.1 item.2)

/-! ## The configuration and the store -/

/-- A load would give the present configuration. -/
structure Coherent (s : App) : Prop where
  distinct : KeyStore.Distinct s.store
  config : s.config = loaded defaultConfig (KeyStore.get s.store)

theorem normalizeProfile_some {serviceUuid notifyUuid writeUuid : Text} {p : BleProfile}
    (h : normalizeProfile serviceUuid notifyUuid writeUuid = some p) :
    bleHostNormalizeUuid serviceUuid BLE_HOST_UUID_STR_LEN = some p.serviceUuid ∧
      bleHostNormalizeUuid notifyUuid BLE_HOST_UUID_STR_LEN = some p.notifyUuid ∧
      bleHostNormalizeUuid writeUuid BLE_HOST_UUID_STR_LEN = some p.writeUuid := by
  unfold normalizeProfile at h
  split at h
  · rename_i hs hn hw
    cases h
    exact ⟨hs, hn, hw⟩
  · cases h

/-- What an accepted call saves is what it put into the configuration. -/
theorem loaded_savedItems {store : List (SettingsKey × List Byte)} {u : Update} {new : BleHostConfig}
    (h : u.config (loaded defaultConfig (KeyStore.get store)) = some new) :
    loaded defaultConfig (KeyStore.get (savedItems store (u.saves new))) = new := by
  cases u with
  | profile serviceUuid notifyUuid writeUuid =>
      obtain ⟨p, hp, rfl⟩ := Option.map_eq_some_iff.mp h
      obtain ⟨hs, hn, hw⟩ := normalizeProfile_some hp
      simp [loaded, savedItems, Update.saves, KeyStore.get_save, readUuid_normalized hs, readUuid_normalized hn,
        readUuid_normalized hw]
  | mtu newMtu =>
      simp only [Update.config] at h
      split at h
      · cases h
      · cases h
        simp [loaded, savedItems, Update.saves, KeyStore.get_save, readU16_le16 _ newMtu.toNat_lt]
  | connParams minInterval maxInterval latency timeout =>
      simp only [Update.config] at h
      split at h
      · cases h
        simp [loaded, savedItems, Update.saves, KeyStore.get_save, readU16_le16 _ minInterval.toNat_lt,
          readU16_le16 _ maxInterval.toNat_lt, readU16_le16 _ latency.toNat_lt, readU16_le16 _ timeout.toNat_lt]
      · cases h

/-! ## What is in the store -/

/-- Under the keys of a call there is nothing, or what one call saved. -/
structure Stored (calls : List Update) (store : List (SettingsKey × List Byte)) : Prop where
  distinct : KeyStore.Distinct store
  profile :
    (∀ key, key = .service ∨ key = .notify ∨ key = .write → KeyStore.get store key = none) ∨
      ∃ service notify write p, .profile service notify write ∈ calls ∧ normalizeProfile service notify write = some p ∧
        KeyStore.get store .service = some p.serviceUuid ∧ KeyStore.get store .notify = some p.notifyUuid ∧
          KeyStore.get store .write = some p.writeUuid
  mtu : KeyStore.get store .mtu = none ∨ ∃ mtu, 23 ≤ mtu ∧ mtu ≤ 259 ∧ KeyStore.get store .mtu = some (le16 mtu)
  connParams :
    (∀ key, key = .connMin ∨ key = .connMax ∨ key = .latency ∨ key = .timeout → KeyStore.get store key = none) ∨
      ∃ minInterval maxInterval latency timeout : UInt16,
        connParamsValid minInterval.toNat maxInterval.toNat latency.toNat timeout.toNat ∧
          KeyStore.get store .connMin = some (le16 minInterval.toNat) ∧
            KeyStore.get store .connMax = some (le16 maxInterval.toNat) ∧
              KeyStore.get store .latency = some (le16 latency.toNat) ∧
                KeyStore.get store .timeout = some (le16 timeout.toNat)

theorem stored_nil (calls : List Update) : Stored calls [] where
  distinct := KeyStore.distinct_nil
  profile := Or.inl fun _ _ => rfl
  mtu := Or.inl rfl
  connParams := Or.inl fun _ _ => rfl

theorem Stored.mono {calls calls' : List Update} {store : List (SettingsKey × List Byte)} (h : Stored calls store)
    (hs : calls ⊆ calls') : Stored calls' store where
  distinct := h.distinct
  profile := by
    apply h.profile.imp_right
    rintro ⟨service, notify, write, p, hm, hrest⟩
    exact ⟨service, notify, write, p, hs hm, hrest⟩
  mtu := h.mtu
  connParams := h.connParams

/-- A call that is saved as a whole. -/
theorem Stored.saved {calls : List Update} {store : List (SettingsKey × List Byte)} (h : Stored calls store)
    {u : Update} {old new : BleHostConfig} (hu : u ∈ calls) (hnew : u.config old = some new) :
    Stored calls (savedItems store (u.saves new)) := by
  have hdistinct := distinct_savedItems h.distinct (u.saves new)
  cases u with
  | profile serviceUuid notifyUuid writeUuid =>
      obtain ⟨p, hp, rfl⟩ := Option.map_eq_some_iff.mp hnew
      refine ⟨hdistinct, Or.inr ⟨serviceUuid, notifyUuid, writeUuid, p, hu, hp, ?_⟩, ?_, ?_⟩
      · simp [savedItems, Update.saves, KeyStore.get_save]
      · simpa [savedItems, Update.saves, KeyStore.get_save] using h.mtu
      · simpa [savedItems, Update.saves, KeyStore.get_save] using h.connParams
  | mtu newMtu =>
      simp only [Update.config] at hnew
      split at hnew
      · cases hnew
      · rename_i hrange
        cases hnew
        refine ⟨hdistinct, ?_, Or.inr ⟨newMtu.toNat, by omega, by omega, ?_⟩, ?_⟩
        · simpa [savedItems, Update.saves, KeyStore.get_save] using h.profile
        · simp [savedItems, Update.saves, KeyStore.get_save]
        · simpa [savedItems, Update.saves, KeyStore.get_save] using h.connParams
  | connParams minInterval maxInterval latency timeout =>
      simp only [Update.config] at hnew
      split at hnew
      · rename_i hvalid
        cases hnew
        refine ⟨hdistinct, ?_, ?_, Or.inr ⟨minInterval, maxInterval, latency, timeout, hvalid, ?_⟩⟩
        · simpa [savedItems, Update.saves, KeyStore.get_save] using h.profile
        · simpa [savedItems, Update.saves, KeyStore.get_save] using h.mtu
        · simp [savedItems, Update.saves, KeyStore.get_save]
      · cases hnew

/-- What a load of an undivided store gives. -/
structure Consistent (calls : List Update) (c : BleHostConfig) : Prop where
  connParams : connParamsValid c.connIntervalMin c.connIntervalMax c.latency c.timeout
  mtu : 23 ≤ c.mtu ∧ c.mtu ≤ 259
  profile : c.activeProfile = defaultConfig.activeProfile ∨
    ∃ service notify write, .profile service notify write ∈ calls ∧
      normalizeProfile service notify write = some c.activeProfile

theorem Stored.consistent {calls : List Update} {store : List (SettingsKey × List Byte)} (h : Stored calls store) :
    Consistent calls (loaded defaultConfig (KeyStore.get store)) where
  connParams := by
    rcases h.connParams with hnone | ⟨minInterval, maxInterval, latency, timeout, hvalid, h1, h2, h3, h4⟩
    · simp only [loaded, hnone, true_or, or_true]
      rfl
    · simpa [loaded, h1, h2, h3, h4, readU16_le16 _ minInterval.toNat_lt, readU16_le16 _ maxInterval.toNat_lt,
        readU16_le16 _ latency.toNat_lt, readU16_le16 _ timeout.toNat_lt] using hvalid
  mtu := by
    rcases h.mtu with hnone | ⟨mtu, hlo, hhi, hget⟩
    · simp only [loaded, hnone]
      decide
    · simp only [loaded, hget, Option.elim_some, readU16_le16 _ (show mtu < 65536 by omega)]
      exact ⟨hlo, hhi⟩
  profile := by
    rcases h.profile with hnone | ⟨service, notify, write, p, hm, hp, h1, h2, h3⟩
    · refine Or.inl ?_
      simp only [loaded, hnone, true_or, or_true]
      rfl
    · obtain ⟨hs, hn, hw⟩ := normalizeProfile_some hp
      refine Or.inr ⟨service, notify, write, hm, ?_⟩
      rw [hp]
      simp [loaded, h1, h2, h3, readUuid_normalized hs, readUuid_normalized hn, readUuid_normalized hw]

/-! ## Histories -/

section
variable (env : Env)

/-- A call that makes all of its saves or none. -/
theorem Stored.take {calls : List Update} {store : List (SettingsKey × List Byte)} (h : Stored calls store)
    {u : Update} {old new : BleHostConfig} (hu : u ∈ calls) (hnew : u.config old = some new) {n : Nat}
    (hn : n = 0 ∨ u.saveCount ≤ n) : Stored calls (savedItems store ((u.saves new).take n)) := by
  rcases hn with rfl | hn
  · exact h
  · rw [List.take_of_length_le (by rw [saves_length]; exact hn)]
    exact h.saved hu hnew

theorem Stored.step {calls : List Update} {s : App} (h : Stored calls s.store) {e : SettingsEvent}
    (he : e.Whole env s) (hs : callsOf [e] ⊆ calls) : Stored calls (settingsStep env s e).store := by
  cases e with
  | update u =>
      have hu : u ∈ calls := hs List.mem_cons_self
      simp only [settingsStep]
      cases hc : u.config s.config with
      | none => rw [call_app_rejected env s u hc]; exact h
      | some new =>
          rw [(call_app env s u hc).2]
          exact h.take hu hc ((he (by simp [hc])).imp_right fun hn => hn.ge)
  | powerLoss u count =>
      have hu : u ∈ calls := hs List.mem_cons_self
      simp only [settingsStep, reboot]
      cases hc : u.config s.config with
      | none => rw [cutShort_rejected env s count u hc]; exact h
      | some new =>
          rw [cutShort_store env s count u hc]
          refine h.take hu hc ?_
          have hle := successes_le env s.calls (min count u.saveCount)
          rcases he (by simp [hc]) with hz | hn
          · exact Or.inl (by omega)
          · exact Or.inr (by omega)
  | reboot => exact h

theorem Stored.run {calls : List Update} {es : List SettingsEvent} {s : App} (h : Stored calls s.store)
    (he : Undivided env s es) (hs : callsOf es ⊆ calls) : Stored calls (Runs.run (settingsStep env) s es).store := by
  induction es generalizing s with
  | nil => exact h
  | cons e es ih =>
      have hcalls : callsOf (e :: es) = callsOf [e] ++ callsOf es := by
        cases e with
        | _ => rfl
      rw [hcalls] at hs
      have hfirst := h.step env he.1 fun u hu => hs (List.mem_append_left _ hu)
      exact ih hfirst he.2 fun u hu => hs (List.mem_append_right _ hu)

theorem coherent_reboot {s : App} (h : KeyStore.Distinct s.store) : Coherent (reboot s) where
  distinct := h
  config := settingsLoad_perm h (List.Perm.refl _)

theorem Coherent.step (hsaves : ∀ n, env.answer n = 0) {s : App} (h : Coherent s) (e : SettingsEvent) :
    Coherent (settingsStep env s e) := by
  cases e with
  | update u =>
      simp only [settingsStep]
      cases hc : u.config s.config with
      | none => rw [call_app_rejected env s u hc]; exact h
      | some new =>
          obtain ⟨hconfig, hstore⟩ := call_app env s u hc
          rw [successes_eq env hsaves, List.take_of_length_le (by rw [saves_length])] at hstore
          refine ⟨?_, ?_⟩
          · rw [hstore]
            exact distinct_savedItems h.distinct _
          · rw [h.config] at hc
            rw [hconfig, hstore, loaded_savedItems hc]
  | powerLoss u count =>
      refine coherent_reboot ?_
      cases hc : u.config s.config with
      | none => rw [cutShort_rejected env s count u hc]; exact h.distinct
      | some new =>
          rw [cutShort_store env s count u hc]
          exact distinct_savedItems h.distinct _
  | reboot => exact coherent_reboot h.distinct

end

end BleAtHost.Main
