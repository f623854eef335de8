import BleAtHost.Main.Lemmas.ScanCache

/-!
# The scan cache

The cache and the announcements are what the sightings since the start of the scan call for.
-/

namespace BleAtHost.Main

variable {env : Env} {s : App} {seen : List Sighting} {x y : Sighting} {i j : Nat}

/-! ## Sightings -/

theorem length_found_le (seen : List Sighting) : (found seen).length ≤ MAX_SCANNED_DEVICES := List.length_take_le _ _

theorem nodup_found (seen : List Sighting) : ((found seen).map Sighting.addr).Nodup := by
  have hp : (seen.pwFilter fun x y => x.addr ≠ y.addr).Pairwise fun x y => x.addr ≠ y.addr := List.pairwise_pwFilter _
  have hr : (seen.pwFilter fun x y => x.addr ≠ y.addr).reverse.Pairwise fun x y => x.addr ≠ y.addr :=
    List.pairwise_reverse.mpr (hp.imp fun h => h.symm)
  exact List.pairwise_map.mpr (hr.sublist (List.take_sublist _ _))

/-- Two places of one address are one place. -/
theorem found_inj (hi : (found seen)[i]? = some x) (hj : (found seen)[j]? = some y) (h : x.addr = y.addr) : i = j := by
  have hlt : i < ((found seen).map Sighting.addr).length := by
    rw [List.length_map]
    exact (List.getElem?_eq_some_iff.mp hi).1
  refine (List.getElem?_inj hlt (nodup_found seen)).mp ?_
  rw [List.getElem?_map, List.getElem?_map, hi, hj, Option.map_some, Option.map_some, h]

/-- An address is in the cache, the cache is full, or the address is new to it. -/
theorem found_cons (x : Sighting) (seen : List Sighting) :
    (found (x :: seen) = found seen ∧
        ((∃ y ∈ found seen, y.addr = x.addr) ∨ (found seen).length = MAX_SCANNED_DEVICES)) ∨
      (found (x :: seen) = found seen ++ [x] ∧ (found seen).length < MAX_SCANNED_DEVICES ∧
        ∀ y ∈ found seen, y.addr ≠ x.addr) := by
  by_cases hx : ∀ y ∈ seen.pwFilter (fun x y => x.addr ≠ y.addr), x.addr ≠ y.addr
  · have hcons : found (x :: seen) =
        ((seen.pwFilter fun x y => x.addr ≠ y.addr).reverse ++ [x]).take MAX_SCANNED_DEVICES := by
      rw [found, List.pwFilter_cons_of_pos hx, List.reverse_cons]
    by_cases hfull : (seen.pwFilter fun x y => x.addr ≠ y.addr).length < MAX_SCANNED_DEVICES
    · have hall : found seen = (seen.pwFilter fun x y => x.addr ≠ y.addr).reverse :=
        List.take_of_length_le (by rw [List.length_reverse]; omega)
      refine .inr ⟨?_, ?_, ?_⟩
      · rw [hcons, hall, List.take_of_length_le]
        simp only [List.length_append, List.length_reverse, List.length_singleton]
        omega
      · rwa [hall, List.length_reverse]
      · intro y hy
        rw [hall, List.mem_reverse] at hy
        exact (hx y hy).symm
    · have hlen : MAX_SCANNED_DEVICES ≤ (seen.pwFilter fun x y => x.addr ≠ y.addr).reverse.length := by
        rw [List.length_reverse]
        omega
      refine .inl ⟨?_, .inr ?_⟩
      · rw [hcons, List.take_append_of_le_length hlen, found]
      · rw [found, List.length_take, Nat.min_eq_left hlen]
  · have hsame : found (x :: seen) = found seen := by rw [found, List.pwFilter_cons_of_neg hx, found]
    refine .inl ⟨hsame, ?_⟩
    by_cases hfull : (seen.pwFilter fun x y => x.addr ≠ y.addr).length < MAX_SCANNED_DEVICES
    · simp only [ne_eq, not_forall, not_not] at hx
      obtain ⟨y, hy, he⟩ := hx
      refine .inl ⟨y, ?_, he.symm⟩
      rw [found, List.take_of_length_le (by rw [List.length_reverse]; omega), List.mem_reverse]
      exact hy
    · refine .inr ?_
      rw [found, List.length_take, List.length_reverse]
      omega

theorem latestRssi_cons (x : Sighting) (seen : List Sighting) (addr : BtAddrLe) :
    latestRssi (x :: seen) addr = if x.addr = addr then x.rssi else latestRssi seen addr := by
  by_cases h : x.addr = addr
  · simp [latestRssi, h]
  · simp [latestRssi, h]

/-! ## The cache -/

theorem slot_of_some (h : (found seen)[i]? = some x) : slot env seen i = x.entry env seen i := by
  rw [slot, h, Option.elim_some]

theorem slot_of_none (h : (found seen)[i]? = none) : slot env seen i = .zero := by
  rw [slot, h, Option.elim_none]

theorem valid_slot : (slot env seen i).valid = true ↔ i < (found seen).length := by
  cases h : (found seen)[i]? with
  | none =>
      have hle := List.getElem?_eq_none_iff.mp h
      simp only [slot_of_none h, ScannedDeviceEntry.zero]
      exact iff_of_false (by simp) (by omega)
  | some x =>
      obtain ⟨hlt, _⟩ := List.getElem?_eq_some_iff.mp h
      simp only [slot_of_some h, Sighting.entry]
      exact iff_of_true trivial hlt

/-- The cache, its counter and the announcements after these sightings. -/
structure Caches (env : Env) (s : App) (seen : List Sighting) : Prop where
  length : s.scannedDevices.length = MAX_SCANNED_DEVICES
  slots : ∀ i < MAX_SCANNED_DEVICES, s.scannedDevices[i]? = some (slot env seen i)
  next : s.nextScanIndex = (found seen).length
  lines : announced s.log = ((found seen).mapIdx (Sighting.line env)).reverse

theorem Caches.of_view {s' : App} (h : Caches env s seen) (hv : s'.scanView = s.scanView) : Caches env s' seen := by
  have hd : s'.scannedDevices = s.scannedDevices := congrArg ScanView.devices hv
  have hn : s'.nextScanIndex = s.nextScanIndex := congrArg ScanView.next hv
  have ha : announced s'.log = announced s.log := congrArg ScanView.announced hv
  exact ⟨hd ▸ h.length, hd ▸ h.slots, hn ▸ h.next, ha ▸ h.lines⟩

theorem Caches.empty (hd : s.scannedDevices = List.replicate MAX_SCANNED_DEVICES .zero) (hn : s.nextScanIndex = 0)
    (ha : announced s.log = []) : Caches env s [] := by
  refine ⟨by rw [hd, List.length_replicate], fun i hi => ?_, hn, ha⟩
  rw [hd, List.getElem?_replicate, if_pos hi]
  exact congrArg some (slot_of_none rfl).symm

theorem Caches.getElem? (h : Caches env s seen) {entry : ScannedDeviceEntry} (hi : s.scannedDevices[i]? = some entry) :
    entry = slot env seen i := by
  have hlt : i < MAX_SCANNED_DEVICES := h.length ▸ (List.getElem?_eq_some_iff.mp hi).1
  exact Option.some.inj (hi.symm.trans (h.slots i hlt))

/-! ## Reports -/

section
variable {type : Nat} {ad : List Byte}

theorem deviceFound_dropped (h : accepts s type ad = false) (addr : BtAddrLe) (rssi : Int) :
    deviceFound env s addr rssi type ad = s := by
  unfold deviceFound
  split; · rfl
  split; · rfl
  dsimp only
  split; · rfl
  simp_all [accepts]

/-- The state with a new entry at the end of the cache, announced. -/
def announce (env : Env) (s : App) (i : Nat) (x : Sighting) : App :=
  queueCtrlLine { s with scannedDevices := s.scannedDevices.set i (x.entry env [x] i), nextScanIndex := (i + 1) % 256 }
    (x.line env i)

/-- What a report that is let through does: the device is known, there is no room for it, or it is new. -/
theorem Caches.cases (h : Caches env s seen) (ha : accepts s type ad = true) (addr : BtAddrLe) (rssi : Int) :
    (∃ i y, (found seen)[i]? = some y ∧ y.addr = addr ∧
        deviceFound env s addr rssi type ad =
          { s with scannedDevices := s.scannedDevices.modify i fun entry => { entry with rssi := rssi } }) ∨
      ((∀ y ∈ found seen, y.addr ≠ addr) ∧ (found seen).length = MAX_SCANNED_DEVICES ∧
        deviceFound env s addr rssi type ad = s) ∨
      ((∀ y ∈ found seen, y.addr ≠ addr) ∧ (found seen).length < MAX_SCANNED_DEVICES ∧
        deviceFound env s addr rssi type ad =
          announce env s (found seen).length ⟨addr, rssi, parseDeviceName ad BLE_HOST_NAME_MAX_LEN⟩) := by
  obtain ⟨⟨hmode, htype⟩, hfilter⟩ : (s.appState = .scanning ∧ isReportedAdvType type = true) ∧
      matchesScanFilter s (parseDeviceName ad BLE_HOST_NAME_MAX_LEN) = true := by simpa [accepts] using ha
  rw [deviceFound, if_neg (not_not.mpr hmode), if_neg (by simp [htype])]
  dsimp only
  rw [if_neg (by simp [hfilter])]
  cases hfind : findScanEntry s addr with
  | some i =>
      obtain ⟨hlt, hp, _⟩ := List.findIdx?_eq_some_iff_getElem.mp hfind
      have hslot := h.getElem? (List.getElem?_eq_getElem hlt)
      rw [hslot] at hp
      obtain ⟨hvalid, haddr⟩ : (slot env seen i).valid = true ∧ (slot env seen i).addr = addr := by simpa using hp
      have hi := List.getElem?_eq_getElem (valid_slot.mp hvalid)
      refine .inl ⟨i, _, hi, ?_, rfl⟩
      rwa [slot_of_some hi] at haddr
  | none =>
      have hnew : ∀ y ∈ found seen, y.addr ≠ addr := by
        intro y hy he
        obtain ⟨i, hi⟩ := List.mem_iff_getElem?.mp hy
        have hlt : i < MAX_SCANNED_DEVICES :=
          Nat.lt_of_lt_of_le (List.getElem?_eq_some_iff.mp hi).1 (length_found_le seen)
        have hnone := List.findIdx?_eq_none_iff.mp hfind _ (List.mem_of_getElem? (h.slots i hlt))
        rw [slot_of_some hi] at hnone
        simp [Sighting.entry, he] at hnone
      refine .inr ?_
      cases hfree : s.scannedDevices.findIdx? fun entry => !entry.valid with
      | none =>
          refine .inl ⟨hnew, ?_, rfl⟩
          by_contra hlen
          have hlt : (found seen).length < MAX_SCANNED_DEVICES := Nat.lt_of_le_of_ne (length_found_le seen) hlen
          have hvalid := List.findIdx?_eq_none_iff.mp hfree _ (List.mem_of_getElem? (h.slots _ hlt))
          have hinvalid : ¬(slot env seen (found seen).length).valid = true := by simp [valid_slot]
          simp at hvalid
          exact hinvalid hvalid
      | some i =>
          obtain ⟨hlt, hp, hbefore⟩ := List.findIdx?_eq_some_iff_getElem.mp hfree
          have hslot := h.getElem? (List.getElem?_eq_getElem hlt)
          have hge : (found seen).length ≤ i := by
            rw [hslot] at hp
            by_contra hlt'
            have hvalid : (slot env seen i).valid = true := valid_slot.mpr (by omega)
            simp [hvalid] at hp
          have hle : i ≤ (found seen).length := by
            by_contra hlt'
            have hfirst := hbefore (found seen).length (by omega)
            rw [h.getElem? (List.getElem?_eq_getElem (by omega))] at hfirst
            simp [valid_slot] at hfirst
          obtain rfl : i = (found seen).length := Nat.le_antisymm hle hge
          refine .inr ⟨hnew, h.length ▸ hlt, ?_⟩
          have hentry : Sighting.entry env [⟨addr, rssi, parseDeviceName ad BLE_HOST_NAME_MAX_LEN⟩] (found seen).length
              ⟨addr, rssi, parseDeviceName ad BLE_HOST_NAME_MAX_LEN⟩ =
              ⟨true, (found seen).length, addr, env.btAddrToStr addr.val,
                snprintk BLE_HOST_NAME_MAX_LEN (parseDeviceName ad BLE_HOST_NAME_MAX_LEN), rssi⟩ := by
            simp [Sighting.entry, latestRssi]
          rw [announce, hentry]
          simp only [h.next]
          rfl

end

/-! ## One more sighting -/

theorem slot_cons_of_ne (hf : (found (x :: seen))[i]? = (found seen)[i]?)
    (hne : ∀ y, (found seen)[i]? = some y → y.addr ≠ x.addr) : slot env (x :: seen) i = slot env seen i := by
  cases hy : (found seen)[i]? with
  | none => rw [slot_of_none (hf.trans hy), slot_of_none hy]
  | some y =>
      rw [slot_of_some (hf.trans hy), slot_of_some hy]
      simp only [Sighting.entry, latestRssi_cons, if_neg (hne y hy).symm]

theorem slot_cons_of_eq (hf : (found (x :: seen))[i]? = (found seen)[i]?) (hy : (found seen)[i]? = some y)
    (he : y.addr = x.addr) : slot env (x :: seen) i = { slot env seen i with rssi := x.rssi } := by
  rw [slot_of_some (hf.trans hy), slot_of_some hy]
  simp only [Sighting.entry, latestRssi_cons, if_pos he.symm]

theorem entry_new (x : Sighting) (seen : List Sighting) (i : Nat) : x.entry env (x :: seen) i = x.entry env [x] i := by
  simp only [Sighting.entry, latestRssi_cons, if_true]

theorem isScanLine_line (env : Env) (i : Nat) (x : Sighting) : isScanLine (x.line env i) = true := by
  simp only [isScanLine, List.isPrefixOf_iff_prefix, Sighting.line, List.append_assoc]
  exact AtHost.prefix_snprintk (by decide) _

theorem found_known (hy : (found seen)[i]? = some y) (he : y.addr = x.addr) : found (x :: seen) = found seen := by
  rcases found_cons x seen with ⟨hf, _⟩ | ⟨_, _, hnew⟩
  · exact hf
  · exact absurd he (hnew y (List.mem_of_getElem? hy))

theorem found_full (hlen : (found seen).length = MAX_SCANNED_DEVICES) : found (x :: seen) = found seen := by
  rcases found_cons x seen with ⟨hf, _⟩ | ⟨_, hlt, _⟩
  · exact hf
  · omega

theorem found_new (hlt : (found seen).length < MAX_SCANNED_DEVICES) (hnew : ∀ y ∈ found seen, y.addr ≠ x.addr) :
    found (x :: seen) = found seen ++ [x] := by
  rcases found_cons x seen with ⟨_, ⟨y, hy, he⟩ | hlen⟩ | ⟨hf, _⟩
  · exact absurd he (hnew y hy)
  · omega
  · exact hf

theorem scanView_announce (env : Env) (s : App) (i : Nat) (x : Sighting) :
    (announce env s i x).scanView =
      ⟨s.scannedDevices.set i (x.entry env [x] i), (i + 1) % 256, s.scanFilterName, x.line env i :: announced s.log,
        scanStarts s.log⟩ :=
  scanView_queueScanLine (isScanLine_line env i x) _

theorem Caches.announce (h : Caches env s seen) (hlt : (found seen).length < MAX_SCANNED_DEVICES)
    (hnew : ∀ y ∈ found seen, y.addr ≠ x.addr) : Caches env (announce env s (found seen).length x) (x :: seen) := by
  have hf := found_new hlt hnew
  have hview := scanView_announce env s (found seen).length x
  have hd := congrArg ScanView.devices hview
  have hn := congrArg ScanView.next hview
  have ha := congrArg ScanView.announced hview
  simp only [App.scanView] at hd hn ha
  generalize Main.announce env s (found seen).length x = t at hd hn ha ⊢
  refine ⟨?_, fun i hi => ?_, ?_, ?_⟩
  · rw [hd, List.length_set, h.length]
  · have hin : i < s.scannedDevices.length := h.length ▸ hi
    rw [hd, List.getElem?_set]
    split
    · rename_i he
      have hx : (found (x :: seen))[i]? = some x := by
        rw [hf, ← he, List.getElem?_append_right (Nat.le_refl _), Nat.sub_self, List.getElem?_cons_zero]
      rw [if_pos (he ▸ hin), slot_of_some hx, entry_new x seen, he]
    · rename_i hne
      have hsame : (found (x :: seen))[i]? = (found seen)[i]? := by
        rw [hf]
        by_cases hil : i < (found seen).length
        · rw [List.getElem?_append_left hil]
        · rw [List.getElem?_append_right (by omega), List.getElem?_eq_none (by simp; omega),
            List.getElem?_eq_none (by omega)]
      rw [h.slots i hi, slot_cons_of_ne hsame fun y hy => hnew y (List.mem_of_getElem? hy)]
  · have hmax : MAX_SCANNED_DEVICES = 32 := rfl
    rw [hn, hf, List.length_append, List.length_singleton]
    omega
  · rw [ha, hf, List.mapIdx_append, List.reverse_append, h.lines]
    simp

theorem Caches.deviceFound (h : Caches env s seen) {type : Nat} {ad : List Byte} (ha : accepts s type ad = true)
    (addr : BtAddrLe) (rssi : Int) :
    Caches env (deviceFound env s addr rssi type ad) (⟨addr, rssi, parseDeviceName ad BLE_HOST_NAME_MAX_LEN⟩ :: seen) := by
  rcases h.cases ha addr rssi with ⟨i, y, hy, he, heq⟩ | ⟨hnew, hlen, heq⟩ | ⟨hnew, hlt, heq⟩
  · have hf : found (⟨addr, rssi, parseDeviceName ad BLE_HOST_NAME_MAX_LEN⟩ :: seen) = found seen := found_known hy he
    rw [heq]
    refine ⟨by rw [List.length_modify, h.length], fun j hj => ?_, hf.symm ▸ h.next, hf.symm ▸ h.lines⟩
    rw [List.getElem?_modify, h.slots j hj]
    by_cases hij : i = j
    · subst hij
      rw [slot_cons_of_eq (by rw [hf]) hy he]
      simp
    · rw [slot_cons_of_ne (by rw [hf]) fun z hz hze => hij (found_inj hy hz (he.trans hze.symm))]
      simp [hij]
  · have hf : found (⟨addr, rssi, parseDeviceName ad BLE_HOST_NAME_MAX_LEN⟩ :: seen) = found seen := found_full hlen
    rw [heq]
    refine ⟨h.length, fun j hj => ?_, hf.symm ▸ h.next, hf.symm ▸ h.lines⟩
    rw [h.slots j hj, slot_cons_of_ne (by rw [hf]) fun y hy => hnew y (List.mem_of_getElem? hy)]
  · rw [heq]
    exact h.announce hlt hnew

/-! ## Runs -/

theorem sightings_other {f : Firmware} {e : Event} (h : e.isReport = false) :
    sightings env f seen e = if scanStarts f.app.log < scanStarts (step env f e).app.log then [] else seen := by
  cases e with
  | deviceFound => cases h
  | _ => rfl

theorem Caches.step {f : Firmware} (h : Caches env f.app seen) (e : Event) :
    Caches env (step env f e).app (sightings env f seen e) := by
  cases he : e.isReport with
  | true =>
      cases e with
      | deviceFound addr rssi type ad =>
          simp only [sightings]
          split
          · rename_i ha
            exact h.deviceFound ha addr rssi
          · rename_i ha
            change Caches env (Main.deviceFound env f.app addr rssi type ad) seen
            rwa [deviceFound_dropped (by simpa using ha)]
      | _ => cases he
  | false =>
      rw [sightings_other he]
      rcases scanView_step env f he with hsame | ⟨hd, hn, ha, hs⟩
      · have hstarts : scanStarts (Main.step env f e).app.log = scanStarts f.app.log := congrArg ScanView.starts hsame
        rw [if_neg (by rw [hstarts]; exact Nat.lt_irrefl _)]
        exact h.of_view hsame
      · have hstarts : scanStarts f.app.log < scanStarts (Main.step env f e).app.log := hs
        rw [if_pos hstarts]
        exact .empty hd hn ha

/-- What a scan leaves behind it, after any events since. -/
structure CacheIntact (env : Env) (f : Firmware) (seen : List Sighting) : Prop where
  size : f.app.scannedDevices.length = MAX_SCANNED_DEVICES
  /-- The valid entries come first. -/
  front : ∀ {i : Nat} {entry : ScannedDeviceEntry}, f.app.scannedDevices[i]? = some entry →
    (entry.valid = true ↔ i < (found seen).length)
  bound : (found seen).length ≤ MAX_SCANNED_DEVICES
  /-- They are the sightings that are announced, each with its place as its index. -/
  entries : ∀ {i : Nat} {x : Sighting}, (found seen)[i]? = some x → f.app.scannedDevices[i]? = some (x.entry env seen i)
  distinct : ((found seen).map Sighting.addr).Nodup
  /-- One line for each, in order. -/
  lines : (announced f.app.log).reverse = (found seen).mapIdx (Sighting.line env)
  known : ∀ {i : Nat} {entry : ScannedDeviceEntry} {type : Nat} {ad : List Byte},
    f.app.scannedDevices[i]? = some entry → entry.valid = true → accepts f.app type ad = true →
    ∀ rssi, step env f (.deviceFound entry.addr rssi type ad) =
      { f with app := { f.app with scannedDevices := f.app.scannedDevices.set i { entry with rssi := rssi } } }
  further : ∀ {addr : BtAddrLe}, (∀ entry ∈ f.app.scannedDevices, entry.valid = true ∧ entry.addr ≠ addr) →
    ∀ rssi type ad, step env f (.deviceFound addr rssi type ad) = f

theorem Caches.intact {f : Firmware} (h : Caches env f.app seen) : CacheIntact env f seen where
  size := h.length
  front hi := by rw [h.getElem? hi, valid_slot]
  bound := length_found_le seen
  entries hx := by
    have hlt := Nat.lt_of_lt_of_le (List.getElem?_eq_some_iff.mp hx).1 (length_found_le seen)
    rw [h.slots _ hlt, slot_of_some hx]
  distinct := nodup_found seen
  lines := by rw [h.lines, List.reverse_reverse]
  known {i entry type ad} hi hv ha rssi := by
    have hslot := h.getElem? hi
    have hlt : i < (found seen).length := by rwa [hslot, valid_slot] at hv
    obtain ⟨x, hx⟩ : ∃ x, (found seen)[i]? = some x := ⟨_, List.getElem?_eq_getElem hlt⟩
    have haddr : entry.addr = x.addr := by
      rw [hslot, slot_of_some hx]
      rfl
    change { f with app := Main.deviceFound env f.app entry.addr rssi type ad } = _
    rcases h.cases ha entry.addr rssi with ⟨j, y, hy, he, heq⟩ | ⟨hnew, _⟩ | ⟨hnew, _⟩
    · obtain rfl : j = i := found_inj hy hx (he.trans haddr)
      rw [heq, List.modify_eq_set_getElem?, hi]
      rfl
    · exact absurd haddr.symm (hnew x (List.mem_of_getElem? hx))
    · exact absurd haddr.symm (hnew x (List.mem_of_getElem? hx))
  further {addr} hall rssi type ad := by
    change { f with app := Main.deviceFound env f.app addr rssi type ad } = f
    cases ha : accepts f.app type ad with
    | false => rw [deviceFound_dropped ha]
    | true =>
        rcases h.cases ha addr rssi with ⟨i, y, hy, he, _⟩ | ⟨_, _, heq⟩ | ⟨_, hlt, _⟩
        · have hlt := Nat.lt_of_lt_of_le (List.getElem?_eq_some_iff.mp hy).1 (length_found_le seen)
          have hentry := (hall _ (List.mem_of_getElem? (h.slots i hlt))).2
          rw [slot_of_some hy] at hentry
          exact absurd he hentry
        · rw [heq]
        · have hvalid := (hall _ (List.mem_of_getElem? (h.slots _ hlt))).1
          exact absurd (valid_slot.mp hvalid) (Nat.lt_irrefl _)

/-- In every run of the firmware the cache and the announcements are those of the reports let through since the radio
was last asked to scan. -/
theorem scanCache_intact (env : Env) (config : BleHostConfig) (started : Int) (dtr : Bool) (es : List Event) :
    CacheIntact env (Runs.run (watchScan env) (boot config started dtr, []) es).1
      (Runs.run (watchScan env) (boot config started dtr, []) es).2 := by
  have hboot : Caches env (boot config started dtr).app [] := .empty rfl rfl rfl
  have hrun : ∀ p : Firmware × List Sighting, Caches env p.1.app p.2 →
      Caches env (Runs.run (watchScan env) p es).1.app (Runs.run (watchScan env) p es).2 :=
    fun p hp => Runs.run_invariant (P := fun p : Firmware × List Sighting => Caches env p.1.app p.2)
      (fun _ e h => h.step e) hp es
  exact (hrun _ hboot).intact

end BleAtHost.Main
