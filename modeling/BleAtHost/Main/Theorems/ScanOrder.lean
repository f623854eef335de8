import Mathlib.Data.List.Dedup
import Mathlib.Data.List.Perm.Subperm
import BleAtHost.Main.Theorems.ScanCache

/-!
# The order of the reports of a scan

A device is announced with its first report that is let through, so the order of its reports shows if only some of them
carry its name.
-/

namespace BleAtHost.Main

variable {env : Env} {s : App} {seen : List Sighting}

/-- An advertisement or a scan response. -/
structure Advert where
  addr : BtAddrLe
  rssi : Int
  type : Nat
  ad : List Byte
deriving DecidableEq, Repr

namespace Advert

/-- The name that it carries; empty if it carries none. -/
def name (r : Advert) : Text := parseDeviceName r.ad BLE_HOST_NAME_MAX_LEN

def sighting (r : Advert) : Sighting := ⟨r.addr, r.rssi, r.name⟩

/-- The type and the filter let it through. -/
def passes (s : App) (r : Advert) : Bool := isReportedAdvType r.type && matchesScanFilter s r.name

end Advert

def report (env : Env) (s : App) (r : Advert) : App := deviceFound env s r.addr r.rssi r.type r.ad

/-- The addresses and names that the lines logged for the reports carry, one after the other. -/
def announcedPairs (env : Env) : App → List Advert → List (BtAddrLe × Text)
  | _, [] => []
  | s, r :: rs =>
      if announced (report env s r).log = r.sighting.line env s.nextScanIndex :: announced s.log then
        (r.addr, r.name) :: announcedPairs env (report env s r) rs
      else announcedPairs env (report env s r) rs

/-- The scan has just begun. -/
def ScanBegun (env : Env) (s : App) : Prop :=
  ∃ s₀ durationS filterName, s₀.appState ≠ .scanning ∧ s = (opStartScan env s₀ durationS filterName).2 ∧
    s.appState = .scanning

/-- The reports of one address carry one name or none. -/
def OneName (rs : List Advert) : Prop :=
  ∀ r ∈ rs, ∀ r' ∈ rs, r.addr = r'.addr → r.name ≠ [] → r'.name ≠ [] → r.name = r'.name

/-- Some address has reports that are let through both with a name and without one. -/
def Mixed (s : App) (rs : List Advert) : Prop :=
  ∃ r ∈ rs, ∃ r' ∈ rs, r.addr = r'.addr ∧ r.passes s ∧ r'.passes s ∧ r.name = [] ∧ r'.name ≠ []

/-- Every order of arrival announces the same, and every name that was received and let through. -/
def OrderFree (env : Env) (s : App) (rs : List Advert) : Prop :=
  ∀ rs' : List Advert, rs'.Perm rs → (∀ p, p ∈ announcedPairs env s rs' ↔ p ∈ announcedPairs env s rs) ∧
    ∀ r ∈ rs, r.passes s → r.name ≠ [] → (r.addr, r.name) ∈ announcedPairs env s rs'

/-! ## The scan goes on -/

theorem ScanBegun.caches (h : ScanBegun env s) : Caches env s [] := by
  obtain ⟨s₀, durationS, filterName, hm, rfl, hscan⟩ := h
  unfold opStartScan at hscan ⊢
  split
  · rename_i hc
    rw [if_pos hc] at hscan
    exact absurd hscan hm
  · rename_i hc
    rw [if_neg hc] at hscan
    split
    · rename_i hb
      rw [if_pos hb] at hscan
      exact absurd hscan hm
    · dsimp only
      split
      · exact .empty rfl rfl rfl
      · exact .empty rfl rfl rfl

/-- The scan is on with the same filter. -/
structure SameScan (s s' : App) : Prop where
  mode : s'.appState = s.appState
  filter : s'.scanFilterName = s.scanFilterName

theorem sameScan_report (env : Env) (s : App) (r : Advert) : SameScan s (report env s r) := by
  have hline : ∀ (t : App) (line : Text), SameScan t (queueCtrlLine t line) := by
    intro t line
    obtain ⟨ring, irq, new, _, he⟩ := queueCtrlLine_eq t line
    rw [he]
    exact ⟨rfl, rfl⟩
  unfold report deviceFound
  split; · exact ⟨rfl, rfl⟩
  split; · exact ⟨rfl, rfl⟩
  dsimp only
  split; · exact ⟨rfl, rfl⟩
  split
  · exact ⟨rfl, rfl⟩
  · split
    · exact ⟨rfl, rfl⟩
    · have hannounced := fun t : App => hline t
      exact ⟨(hannounced _ _).mode, (hannounced _ _).filter⟩

theorem SameScan.passes {s' : App} (h : SameScan s s') (r : Advert) : r.passes s' = r.passes s := by
  simp only [Advert.passes, matchesScanFilter, h.filter]

/-- The sightings of the reports, the newest first. -/
def sighted (s : App) (rs : List Advert) : List Sighting := ((rs.filter (Advert.passes s)).map Advert.sighting).reverse

/-- The line of a device that is new to the cache. -/
theorem Caches.line_of_new {s' : App} {x : Sighting} (h : Caches env s seen) (hnext : Caches env s' (x :: seen))
    (hf : found (x :: seen) = found seen ++ [x]) : announced s'.log = x.line env s.nextScanIndex :: announced s.log := by
  rw [hnext.lines, hf, List.mapIdx_concat, List.reverse_append, h.next, h.lines]
  rfl

/-- The pairs announced are the entries of the cache. -/
theorem announcedPairs_eq (rs : List Advert) (hm : s.appState = .scanning) (h : Caches env s seen) :
    (found seen).map (fun x => (x.addr, x.name)) ++ announcedPairs env s rs =
      (found (sighted s rs ++ seen)).map fun x => (x.addr, x.name) := by
  induction rs generalizing s seen with
  | nil => simp [announcedPairs, sighted]
  | cons r rs ih =>
      have hsame := sameScan_report env s r
      have hmode : (report env s r).appState = .scanning := hsame.mode.trans hm
      have hrest : sighted (report env s r) rs = sighted s rs := by
        simp only [sighted, funext hsame.passes]
      have haccepts : accepts s r.type r.ad = r.passes s := by simp [accepts, hm, Advert.passes, Advert.name]
      cases hp : r.passes s with
      | false =>
          have hdrop : report env s r = s := deviceFound_dropped (haccepts.trans hp) r.addr r.rssi
          have hsighted : sighted s (r :: rs) = sighted s rs := by simp [sighted, hp]
          rw [announcedPairs, hdrop, if_neg (List.cons_ne_self _ _).symm, hsighted]
          exact ih hm h
      | true =>
          have hsighted : sighted s (r :: rs) ++ seen = sighted s rs ++ (r.sighting :: seen) := by
            simp [sighted, hp]
          have hnext : Caches env (report env s r) (r.sighting :: seen) := h.deviceFound (haccepts.trans hp) r.addr r.rssi
          have hgo := ih hmode hnext
          rw [hrest] at hgo
          rw [hsighted, ← hgo, announcedPairs]
          rcases found_cons r.sighting seen with ⟨hf, _⟩ | ⟨hf, _⟩
          · have hnone : announced (report env s r).log = announced s.log := by rw [hnext.lines, hf, h.lines]
            rw [hf, hnone, if_neg (List.cons_ne_self _ _).symm]
          · rw [hf, if_pos (h.line_of_new hnext hf), List.map_append, List.append_assoc]
            rfl

namespace ScanBegun

theorem mode (h : ScanBegun env s) : s.appState = .scanning := by
  obtain ⟨_, _, _, _, _, hscan⟩ := h
  exact hscan

theorem announcedPairs_eq (h : ScanBegun env s) (rs : List Advert) :
    announcedPairs env s rs = (found (sighted s rs)).map fun x => (x.addr, x.name) := by
  simpa [found] using Main.announcedPairs_eq rs h.mode h.caches

/-- One name for each address. -/
theorem pair_unique (h : ScanBegun env s) {rs : List Advert} {addr : BtAddrLe} {name name' : Text}
    (hp : (addr, name) ∈ announcedPairs env s rs) (hp' : (addr, name') ∈ announcedPairs env s rs) : name = name' := by
  rw [h.announcedPairs_eq] at hp hp'
  obtain ⟨x, hx, he⟩ := List.mem_map.mp hp
  obtain ⟨x', hx', he'⟩ := List.mem_map.mp hp'
  obtain ⟨rfl, rfl⟩ := Prod.mk.inj he
  obtain ⟨haddr, rfl⟩ := Prod.mk.inj he'
  obtain ⟨i, hi⟩ := List.mem_iff_getElem?.mp hx
  obtain ⟨j, hj⟩ := List.mem_iff_getElem?.mp hx'
  obtain rfl := found_inj hi hj haddr.symm
  rw [Option.some.inj (hi.symm.trans hj)]

/-- The first report is announced if it is let through. -/
theorem mem_first (h : ScanBegun env s) {r : Advert} (hp : r.passes s) (rs : List Advert) :
    (r.addr, r.name) ∈ announcedPairs env s (r :: rs) := by
  have haccepts : accepts s r.type r.ad = true := by simpa [accepts, h.mode, Advert.passes, Advert.name] using hp
  have hnext : Caches env (report env s r) [r.sighting] := h.caches.deviceFound haccepts r.addr r.rssi
  rw [announcedPairs, if_pos (h.caches.line_of_new hnext rfl)]
  exact List.mem_cons_self

end ScanBegun

/-! ## The order -/

/-- As many addresses as the cache has room for. -/
def FewAddresses (rs : List Advert) : Prop := (rs.map Advert.addr).dedup.length ≤ MAX_SCANNED_DEVICES

theorem mem_sighted {rs : List Advert} {x : Sighting} :
    x ∈ sighted s rs ↔ ∃ r ∈ rs, r.passes s = true ∧ r.sighting = x := by
  simp [sighted, and_assoc]

theorem found_sighted {rs : List Advert} (h : FewAddresses rs) :
    found (sighted s rs) = ((sighted s rs).pwFilter fun x y => x.addr ≠ y.addr).reverse := by
  have hnodup : (((sighted s rs).pwFilter fun x y => x.addr ≠ y.addr).map Sighting.addr).Nodup :=
    List.pairwise_map.mpr (List.pairwise_pwFilter _)
  have hsubset : ((sighted s rs).pwFilter fun x y => x.addr ≠ y.addr).map Sighting.addr ⊆ (rs.map Advert.addr).dedup := by
    intro addr ha
    obtain ⟨x, hx, rfl⟩ := List.mem_map.mp ha
    obtain ⟨r, hr, _, rfl⟩ := mem_sighted.mp (List.pwFilter_subset _ hx)
    exact List.mem_dedup.mpr (List.mem_map_of_mem hr)
  have hlen := (List.subperm_of_subset hnodup hsubset).length_le
  rw [List.length_map] at hlen
  refine List.take_of_length_le ?_
  rw [List.length_reverse]
  exact Nat.le_trans hlen h

/-- Every address that is let through is found, with one of its reports. -/
theorem found_complete {rs : List Advert} (h : FewAddresses rs) {r : Advert} (hr : r ∈ rs) (hp : r.passes s) :
    ∃ r' ∈ rs, r'.passes s = true ∧ r'.addr = r.addr ∧ r'.sighting ∈ found (sighted s rs) := by
  have htrans : ∀ {x y z : Sighting}, x.addr ≠ z.addr → x.addr ≠ y.addr ∨ y.addr ≠ z.addr := by
    intro x y z hne
    by_contra hboth
    simp only [not_or, ne_eq, not_not] at hboth
    exact hne (hboth.1.trans hboth.2)
  have hmem : r.sighting ∈ sighted s rs := mem_sighted.mpr ⟨r, hr, hp, rfl⟩
  have hall := List.forall_mem_pwFilter (R := fun x y : Sighting => x.addr ≠ y.addr) htrans r.sighting (sighted s rs)
  have hsome : ¬∀ y ∈ (sighted s rs).pwFilter (fun x y => x.addr ≠ y.addr), r.sighting.addr ≠ y.addr :=
    fun h => hall.mp h _ hmem rfl
  simp only [ne_eq, not_forall, not_not] at hsome
  obtain ⟨y, hy, he⟩ := hsome
  obtain ⟨r', hr', hp', rfl⟩ := mem_sighted.mp (List.pwFilter_subset _ hy)
  refine ⟨r', hr', hp', he.symm, ?_⟩
  rw [found_sighted h, List.mem_reverse]
  exact hy

/-- Without mixed addresses the pairs are those of the reports that are let through. -/
theorem ScanBegun.mem_announcedPairs (h : ScanBegun env s) {rs : List Advert} (hfew : FewAddresses rs)
    (hname : OneName rs) (hmixed : ¬Mixed s rs) (p : BtAddrLe × Text) :
    p ∈ announcedPairs env s rs ↔ ∃ r ∈ rs, r.passes s = true ∧ (r.addr, r.name) = p := by
  rw [h.announcedPairs_eq]
  constructor
  · intro hp
    obtain ⟨x, hx, rfl⟩ := List.mem_map.mp hp
    rw [found_sighted hfew, List.mem_reverse] at hx
    obtain ⟨r, hr, hpass, rfl⟩ := mem_sighted.mp (List.pwFilter_subset _ hx)
    exact ⟨r, hr, hpass, rfl⟩
  · rintro ⟨r, hr, hpass, rfl⟩
    obtain ⟨r', hr', hpass', haddr, hfound⟩ := found_complete hfew hr hpass
    have hsame : r'.name = r.name := by
      by_cases hn : r.name = []
      · by_contra hne
        exact hmixed ⟨r, hr, r', hr', haddr.symm, hpass, hpass', hn, fun he => hne (he.trans hn.symm)⟩
      · by_cases hn' : r'.name = []
        · exact absurd ⟨r', hr', r, hr, haddr, hpass', hpass, hn', hn⟩ hmixed
        · exact hname r' hr' r hr haddr hn' hn
    refine List.mem_map.mpr ⟨r'.sighting, hfound, ?_⟩
    rw [← hsame, ← haddr]
    rfl

theorem FewAddresses.perm {rs rs' : List Advert} (hp : rs'.Perm rs) (h : FewAddresses rs) : FewAddresses rs' := by
  have hlen := (hp.map Advert.addr).dedup.length_eq
  rw [FewAddresses, hlen]
  exact h

/-- The announcements of a scan do not depend on the order of its reports if and only if no address has reports that are
let through both with a name and without one. -/
theorem orderFree_iff {env : Env} {s : App} (h : ScanBegun env s) {rs : List Advert} (hfew : FewAddresses rs)
    (hname : OneName rs) : OrderFree env s rs ↔ ¬Mixed s rs := by
  constructor
  · rintro hfree ⟨r, hr, r', hr', haddr, hpass, hpass', hn, hn'⟩
    have hperm : (r :: rs.erase r).Perm rs := (List.perm_cons_erase hr).symm
    have hfirst := h.mem_first hpass (rs.erase r)
    have hnamed := (hfree _ hperm).2 r' hr' hpass' hn'
    rw [← haddr] at hnamed
    exact hn' ((h.pair_unique hnamed hfirst).trans hn)
  · intro hmixed rs' hperm
    have hname' : OneName rs' := fun r hr r' hr' => hname r (hperm.subset hr) r' (hperm.subset hr')
    have hmixed' : ¬Mixed s rs' := by
      rintro ⟨r, hr, r', hr', hrest⟩
      exact hmixed ⟨r, hperm.subset hr, r', hperm.subset hr', hrest⟩
    have hmem := h.mem_announcedPairs (hfew.perm hperm) hname' hmixed'
    refine ⟨fun p => ?_, fun r hr hpass _ => (hmem _).mpr ⟨r, hperm.symm.subset hr, hpass, rfl⟩⟩
    rw [hmem, h.mem_announcedPairs hfew hname hmixed]
    constructor
    · rintro ⟨r, hr, hrest⟩
      exact ⟨r, hperm.subset hr, hrest⟩
    · rintro ⟨r, hr, hrest⟩
      exact ⟨r, hperm.symm.subset hr, hrest⟩

/-- `AT+STARTSCAN=5` right after the start. -/
def scanForAll : App := (opStartScan (stackRefusing []) (boot sampleConfig 0 true).app 5 none).2

theorem scanForAll_begun : ScanBegun (stackRefusing []) scanForAll :=
  ⟨(boot sampleConfig 0 true).app, 5, none, by decide, rfl, by decide⟩

/-- An advertisement without a name, and the scan response of the same device. -/
def namelessAdvert : Advert := ⟨⟨[1, 2, 3, 4, 5, 6], 0⟩, -50, 0, [2, 1, 6]⟩
def scanResponse : Advert := ⟨⟨[1, 2, 3, 4, 5, 6], 0⟩, -50, 4, [4, 9, 98, 97, 116]⟩

/-- A second scan response of the device, and an advertisement of another one. -/
def twoDevices : List Advert :=
  [scanResponse, ⟨⟨[6, 5, 4, 3, 2, 1], 0⟩, -70, 0, [2, 1, 6]⟩, { scanResponse with rssi := -60 }]

theorem orderFree_iff_sample :
    ¬Mixed scanForAll twoDevices ∧ (OrderFree (stackRefusing []) scanForAll twoDevices ↔ ¬Mixed scanForAll twoDevices) :=
  ⟨by unfold Mixed; decide,
    orderFree_iff scanForAll_begun (by unfold FewAddresses; decide) (by unfold OneName; decide)⟩

/-- With the advertisement first the device is announced without its name. -/
theorem order_matters :
    announcedPairs (stackRefusing []) scanForAll [namelessAdvert, scanResponse] = [(⟨[1, 2, 3, 4, 5, 6], 0⟩, [])] ∧
      announcedPairs (stackRefusing []) scanForAll [scanResponse, namelessAdvert] =
        [(⟨[1, 2, 3, 4, 5, 6], 0⟩, ascii "bat")] ∧
      ¬OrderFree (stackRefusing []) scanForAll [namelessAdvert, scanResponse] := by
  have hfirst : announcedPairs (stackRefusing []) scanForAll [namelessAdvert, scanResponse] =
      [(⟨[1, 2, 3, 4, 5, 6], 0⟩, [])] := by decide +kernel
  have hlast : announcedPairs (stackRefusing []) scanForAll [scanResponse, namelessAdvert] =
      [(⟨[1, 2, 3, 4, 5, 6], 0⟩, ascii "bat")] := by decide +kernel
  refine ⟨hfirst, hlast, fun h => ?_⟩
  have hsame := ((h [scanResponse, namelessAdvert] (List.Perm.swap _ _ _)).1 (⟨[1, 2, 3, 4, 5, 6], 0⟩, [])).mpr
  rw [hfirst, hlast] at hsame
  exact absurd (hsame List.mem_cons_self) (by decide)

end BleAtHost.Main
