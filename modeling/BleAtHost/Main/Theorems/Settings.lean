import BleAtHost.Main.Lemmas.Settings

/-!
# The stored configuration

What a load gives after any history of updates, power failures and reboots, whatever the order in which the
stored items come.
-/

namespace BleAtHost.Main

/-- As long as no call is divided, a load gives valid parameters and the texts of one call. -/
theorem settings_crash_consistent (env : Env) (started : Int) (dtr : Bool) {es : List SettingsEvent}
    (h : Undivided env (settingsStart started dtr) es) {order : List (SettingsKey × List Byte)}
    (hp : order.Perm (Runs.run (settingsStep env) (settingsStart started dtr) es).store) :
    Consistent (callsOf es) (settingsLoad order) := by
  have hstored : Stored (callsOf es) (Runs.run (settingsStep env) (settingsStart started dtr) es).store :=
    (stored_nil _).run env h (List.Subset.refl _)
  rw [settingsLoad_perm hstored.distinct hp]
  exact hstored.consistent

/-- The first save of the second call fails, and power is lost in the third one before its first save. -/
def undividedHistory : List SettingsEvent :=
  [.update (.connParams 100 200 0 400), .update (.profile (ascii "180D") (ascii "2a37") (ascii "0x2A39")),
    .powerLoss (.connParams 7 8 0 500) 0]

theorem settings_crash_consistent_failures :
    Consistent (callsOf undividedHistory)
      (settingsLoad (Runs.run (settingsStep (stackRefusing [4])) (settingsStart 0 true) undividedHistory).store) := by
  refine settings_crash_consistent (stackRefusing [4]) 0 true ?_ (List.Perm.refl _)
  exact ⟨fun _ => Or.inr (by decide), fun _ => Or.inl (by decide), fun _ => Or.inl rfl, trivial⟩

/-- The new minimum is saved, the maximum is still the default one. -/
theorem power_loss_divides_parameters :
    ¬Consistent [.connParams 100 200 0 400]
      (settingsLoad
        (Runs.run (settingsStep (stackRefusing [])) (settingsStart 0 true)
          [.powerLoss (.connParams 100 200 0 400) 1]).store) := by
  intro h
  exact absurd h.connParams (by decide)

/-- If every save succeeds, a reboot keeps the configuration. -/
theorem settings_survive_reboot (env : Env) (hsaves : ∀ n, env.answer n = 0) (started : Int) (dtr : Bool)
    (es : List SettingsEvent) {order : List (SettingsKey × List Byte)}
    (hp : order.Perm (Runs.run (settingsStep env) (settingsStart started dtr) es).store) :
    settingsLoad order = (Runs.run (settingsStep env) (settingsStart started dtr) es).config := by
  have hstart : Coherent (settingsStart started dtr) := ⟨KeyStore.distinct_nil, rfl⟩
  have hcoherent : Coherent (Runs.run (settingsStep env) (settingsStart started dtr) es) :=
    Runs.run_invariant (P := Coherent) (fun _ e h => h.step env hsaves e) hstart es
  rw [settingsLoad_perm hcoherent.distinct hp, hcoherent.config]

theorem settings_survive_reboot_all_keys :
    let s := Runs.run (settingsStep (stackRefusing [])) (settingsStart 0 true)
      [.update (.connParams 100 200 0 400), .update (.mtu 22), .update (.mtu 185),
        .update (.profile (ascii "180D") (ascii "2a37") (ascii "6E400002B5A3F393E0A9E50E24DCCA9E"))]
    settingsLoad s.store.reverse = s.config :=
  settings_survive_reboot (stackRefusing []) (fun _ => rfl) 0 true _ (List.reverse_perm _)

end BleAtHost.Main
