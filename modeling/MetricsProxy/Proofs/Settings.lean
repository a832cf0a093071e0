import MetricsProxy.Settings

/-!
# Settings that pass the check

Settings pass the check exactly when nothing in them is at fault (`check_eq_ok_iff`). The
check looks at them before there is a listener, and each listener looks again at what it is
given; the two agree (`Passes.validate_listener`, `check_of_refused`), although
the one knows the settings by their names and the other by what they are for.
-/
namespace MetricsProxy
namespace RawSettings

/-! ## The steps of the check -/

section
variable {key : String}

theorem require_eq_ok_iff {value : Option String} {s : String} :
    require key value = .ok s ↔ value = some s := by
  cases value <;> simp [require]

theorem ports_eq_ok_iff {text : String} {ps : List Nat} :
    ports key text = .ok ps ↔ Ports.parse? text = some ps := by
  unfold ports
  cases Ports.parse? text <;> simp

theorem resolve_eq_ok_iff {machine : Except String String} {name : Option String} {s : String} :
    resolve machine name = .ok s ↔ name = some s ∨ name = none ∧ machine = .ok s := by
  cases name with
  | some given => simp [resolve]
  | none =>
    cases machine with
    | ok found =>
      change Except.ok found = .ok s ↔ _
      simp
    | error reason =>
      change Except.error (SettingsError.unresolved reason) = .ok s ↔ _
      simp

theorem positive_eq_ok_iff {n : Nat} {u : Unit} : positive key n = .ok u ↔ 0 < n := by
  unfold positive
  split <;> simp <;> omega

theorem bind_eq_ok_iff {α β : Type} {x : Except SettingsError α} {f : α → Except SettingsError β}
    {b : β} : (x >>= f) = .ok b ↔ ∃ a, x = .ok a ∧ f a = .ok b := by
  cases x <;> simp [bind, Except.bind]

theorem refuse_bind_ne_ok {α β : Type} {e : SettingsError} {f : α → Except SettingsError β}
    {b : β} : (throw e >>= f : Except SettingsError β) ≠ .ok b := nofun

end

/-! ## The check as a whole -/

variable {r : RawSettings} {machine : Except String String} {s : Settings}

/-- Nothing in `r` is at fault, and `s` is what `r` means on a machine of the given name. -/
structure Passes (r : RawSettings) (machine : Except String String) (s : Settings) : Prop where
  token : r.token = some s.token
  server : r.server = some s.server
  scheme : isServer s.server = true
  hostname : r.hostname = some s.hostname ∨ r.hostname = none ∧ machine = .ok s.hostname
  pushPorts : Ports.parse? r.pushPorts = some s.pushPorts
  openTsdbPorts : Ports.parse? r.openTsdbPorts = some s.openTsdbPorts
  someThreads : 0 < r.flushThreads
  somePoints : 0 < r.flushMaxPoints
  someConnections : 0 < r.maxConnections
  someInterval : 0 < r.flushIntervalMillis
  agrees : s = {
    s with
    flushThreads := r.flushThreads
    flushInterval := r.flushIntervalMillis
    flushMaxPoints := r.flushMaxPoints
    bufferLimit := r.bufferLimit
    idFile := r.idFile
    logLevel := Text.lowerText r.logLevel
    maxConnections := r.maxConnections
    retryAttempts := max r.retryAttempts 1
    requestTimeout := r.requestTimeoutSeconds * 1000
    agentReportInterval := max r.agentReportSeconds 1 * 1000
    shutdownGrace := r.shutdownGraceMillis }

theorem check_eq_ok_iff : r.check machine = .ok s ↔ r.Passes machine s := by
  constructor
  · intro h
    simp only [check, bind_eq_ok_iff, require_eq_ok_iff] at h
    obtain ⟨token, htoken, server, hserver, h⟩ := h
    cases hscheme : isServer server with
    | false => exact absurd h (by simp only [hscheme, if_true, refuse_bind_ne_ok, not_false_iff])
    | true =>
        simp only [hscheme, Bool.true_eq_false, if_false, bind_eq_ok_iff, ports_eq_ok_iff,
          resolve_eq_ok_iff, positive_eq_ok_iff] at h
        obtain ⟨name, hname, ps, hps, qs, hqs, -, hthreads, -, hpoints, -, hconnections, -,
          hinterval, h⟩ := h
        cases h
        exact ⟨htoken, hserver, hscheme, hname, hps, hqs, hthreads, hpoints, hconnections,
          hinterval, rfl⟩
  · intro h
    simp only [check, bind_eq_ok_iff, require_eq_ok_iff]
    refine ⟨s.token, h.token, s.server, h.server, ?_⟩
    simp only [h.scheme, Bool.true_eq_false, if_false, bind_eq_ok_iff, ports_eq_ok_iff,
      resolve_eq_ok_iff, positive_eq_ok_iff]
    exact ⟨s.hostname, h.hostname, s.pushPorts, h.pushPorts, s.openTsdbPorts, h.openTsdbPorts, (),
      h.someThreads, (), h.somePoints, (), h.someConnections, (), h.someInterval,
      congrArg Except.ok h.agrees.symm⟩

/-! ## What a listener is given -/

/-- What a listener would be started with if nothing was checked. -/
def listener (r : RawSettings) (port : Nat) (format : Format) : ListenerSettings :=
  { ListenerSettings.standard port format with
    flushThreads := r.flushThreads
    flushInterval := r.flushIntervalMillis
    maxBufferSize := r.bufferLimit
    maxPointsPerFlush := r.flushMaxPoints
    maxConnections := r.maxConnections
    grace := r.shutdownGraceMillis }

theorem Passes.listener_eq (h : r.Passes machine s) (port : Nat) (format : Format) :
    s.listener port format = r.listener port format := by
  rw [h.agrees]
  rfl

theorem Passes.validate_listener (h : r.Passes machine s) (port : Nat) (format : Format) :
    (s.listener port format).validate = .ok () := by
  rw [h.listener_eq, ListenerSettings.validate_eq_ok_iff]
  exact ⟨h.someThreads, h.somePoints, h.someInterval, h.someConnections⟩

/-- The check refuses what a listener would refuse. -/
theorem check_of_refused {port : Nat} {format : Format} {e : ListenerError}
    (h : (r.listener port format).validate = .error e) (machine : Except String String) :
    ∃ e', r.check machine = .error e' := by
  cases hcheck : r.check machine with
  | error e' => exact ⟨e', rfl⟩
  | ok s =>
      have passes := check_eq_ok_iff.mp hcheck
      have hvalid := passes.validate_listener port format
      rw [passes.listener_eq, h] at hvalid
      cases hvalid

/-- Settings that pass the check are never refused later: every listener that is started with
them finds them valid, no timer is set to an interval of zero, what is delivered is tried as
often as they say, and their ports are those of the two texts. What a listener would refuse
does not pass. -/
theorem check_never_refused_later (r : RawSettings) (machine : Except String String) :
    (∀ s, r.check machine = .ok s →
      (∀ port format, (s.listener port format).validate = .ok () ∧
        0 < (s.listener port format).flushInterval) ∧
      0 < s.flushInterval ∧ 0 < s.agentReportInterval ∧
      1 ≤ s.retryAttempts ∧ s.retry.attempts = s.retryAttempts ∧
      Ports.parse? r.pushPorts = some s.pushPorts ∧
      Ports.parse? r.openTsdbPorts = some s.openTsdbPorts) ∧
    ∀ port format e, (r.listener port format).validate = .error e →
      ∃ e', r.check machine = .error e' := by
  refine ⟨fun s hs => ?_, fun port format e h => check_of_refused h machine⟩
  have passes := check_eq_ok_iff.mp hs
  have hinterval : 0 < s.flushInterval := by
    rw [passes.agrees]
    exact passes.someInterval
  have hreport : 0 < s.agentReportInterval := by
    rw [passes.agrees]
    exact Nat.mul_pos (Nat.lt_of_lt_of_le Nat.one_pos (Nat.le_max_right _ _)) (by decide)
  have hattempts : 1 ≤ s.retryAttempts := by
    rw [passes.agrees]
    exact Nat.le_max_right _ _
  exact ⟨fun port format => ⟨passes.validate_listener port format, hinterval⟩, hinterval, hreport,
    hattempts, Nat.max_eq_left hattempts, passes.pushPorts, passes.openTsdbPorts⟩

/-- Settings that ask for no attempt, no time between reports and no port for OpenTSDB. -/
def sparse : RawSettings :=
  { standard with
    token := some "t"
    server := some "https://metrics.example.com"
    pushPorts := "2878, 2879"
    openTsdbPorts := ""
    retryAttempts := 0
    agentReportSeconds := 0 }

/-- Attempts and seconds are raised to one; without connections the settings do not pass. -/
theorem check_never_refused_later_sparse :
    (∃ s, sparse.check (.ok "relay") = .ok s ∧ s.pushPorts = [2878, 2879] ∧ s.openTsdbPorts = [] ∧
      (s.listener 2878 .graphite).validate = .ok () ∧ s.retry.attempts = 1 ∧
      0 < s.agentReportInterval) ∧
    ∃ e, { sparse with maxConnections := 0 }.check (.ok "relay") = .error e := by
  have passed : ∃ s, sparse.check (.ok "relay") = .ok s := ⟨_, rfl⟩
  have refused : ({ sparse with maxConnections := 0 }.listener 2878 .graphite).validate =
      .error (.invalidConfig "max_connections must be at least 1") := rfl
  refine ⟨?_, (check_never_refused_later _ (.ok "relay")).2 2878 .graphite _ refused⟩
  obtain ⟨s, hs⟩ := passed
  obtain ⟨hvalid, -, hreport, -, hattempts, hpush, hopen⟩ :=
    (check_never_refused_later sparse (.ok "relay")).1 s hs
  have hraised : s.retryAttempts = 1 := by
    rw [(check_eq_ok_iff.mp hs).agrees]
    rfl
  exact ⟨s, hs, (Option.some.inj hpush).symm, (Option.some.inj hopen).symm,
    (hvalid 2878 .graphite).1, hattempts.trans hraised, hreport⟩

end RawSettings
end MetricsProxy
