import MetricsProxy.Proofs.Dict
import MetricsProxy.Proofs.Environment
import MetricsProxy.Proofs.Settings

/-!
# Labels from the environment

Three settings are labels: texts that may be given as numbers. Reading another setting and
reading a label commute (`assign_put`), so the label may be read last, and settings are what
they would be without it but for the label (`ofSources_of_find`, `load_of_find`). The check
takes a label as it is, and any other text as well (`get_of_check`, `check_set`).
-/
namespace MetricsProxy
open Text

/-- The settings that are texts or numbers. -/
inductive Label where
  | token
  | server
  | hostname
  deriving DecidableEq

namespace Label

def key : Label → String
  | token => "token"
  | server => "server"
  | hostname => "hostname"

/-- The settings as they are read, with the label, or without it. -/
def put (o : Option String) (r : RawSettings) : Label → RawSettings
  | token => { r with token := o }
  | server => { r with server := o }
  | hostname => { r with hostname := o }

def get (s : Settings) : Label → String
  | token => s.token
  | server => s.server
  | hostname => s.hostname

/-- The settings with another label. -/
def set (text : String) (s : Settings) : Label → Settings
  | token => { s with token := text }
  | server => { s with server := text }
  | hostname => { s with hostname := text }

/-- What is used for the label: only the host name may be left to the machine. -/
def resolved (machine : Except String String) (o : Option String) : Label → Option String
  | token => o
  | server => o
  | hostname => o <|> machine.toOption

end Label

namespace RawSettings

variable {l : Label} {key text : String} {machine : Except String String} {v : Json}
  {o : Option String} {r : RawSettings} {s : Settings}

/-! ## Labels among other settings -/

theorem assign_label (l : Label) (small : oversized? v = none) (r : RawSettings) :
    r.assign l.key v = .ok (l.put (textOrNumber? v) r) := by
  rw [assign, small, ite_self]
  cases l <;> rfl

theorem assign?_put (other : key ≠ l.key) (o : Option String) (r : RawSettings) (v : Json) :
    (l.put o r).assign? key v = (r.assign? key v).map (l.put o) := by
  unfold assign?
  split
  -- The labels come first, then the settings of other types, and names that are none in the end.
  case h_1 =>
    cases l with
    | token => exact absurd rfl other
    | server => rfl
    | hostname => rfl
  case h_2 =>
    cases l with
    | token => rfl
    | server => exact absurd rfl other
    | hostname => rfl
  case h_3 =>
    cases l with
    | token => rfl
    | server => rfl
    | hostname => exact absurd rfl other
  case h_17 => rfl
  all_goals
    rw [Option.map_map]
    cases l <;> rfl

theorem assign_put (other : key ≠ l.key) (o : Option String) (r : RawSettings) (v : Json) :
    (l.put o r).assign key v = (r.assign key v).map (l.put o) := by
  unfold assign
  cases if openNames.contains key then oversized? v else none with
  | some path => rfl
  | none =>
      rw [assign?_put other]
      cases r.assign? key v <;> rfl

def assignAll (r : RawSettings) (es : List (String × Json)) : Except SettingsError RawSettings :=
  es.foldlM (fun r e => r.assign e.1 e.2) r

theorem assignAll_cons (r : RawSettings) (e : String × Json) (es : List (String × Json)) :
    r.assignAll (e :: es) = (r.assign e.1 e.2).bind fun r => r.assignAll es :=
  List.foldlM_cons

theorem assignAll_append (r : RawSettings) (es later : List (String × Json)) :
    r.assignAll (es ++ later) = (r.assignAll es).bind fun r => r.assignAll later :=
  List.foldlM_append

theorem assignAll_put {es : List (String × Json)} (others : ∀ e ∈ es, e.1 ≠ l.key)
    (o : Option String) (r : RawSettings) :
    (l.put o r).assignAll es = (r.assignAll es).map (l.put o) := by
  induction es generalizing r with
  | nil => rfl
  | cons e es ih =>
      obtain ⟨other, others⟩ := List.forall_mem_cons.mp others
      rw [assignAll_cons, assignAll_cons, assign_put other]
      cases r.assign e.1 e.2 with
      | error e => rfl
      | ok r => exact ih others r

/-- A label may be read after all other settings. -/
theorem ofDict_of_find {d : Dict Json} (found : d.find? l.key = some v)
    (small : oversized? v = none) :
    ofDict d = (ofDict (d.erase l.key)).map (l.put (textOrNumber? v)) := by
  obtain ⟨first, rest, heq⟩ := List.append_of_mem (Dict.mem_entries_iff.mpr found)
  have distinct := d.distinct_entries
  rw [heq, List.pairwise_append, List.pairwise_cons] at distinct
  obtain ⟨-, ⟨hrest, -⟩, hfirst⟩ := distinct
  have first_other : ∀ e ∈ first, e.1 ≠ l.key := fun e he => hfirst e he _ List.mem_cons_self
  have rest_other : ∀ e ∈ rest, e.1 ≠ l.key := fun e he => (hrest e he).symm
  have herase : (d.erase l.key).entries = first ++ rest := by
    change d.entries.filter _ = _
    rw [heq, List.filter_append, List.filter_cons_of_neg (by simp),
      List.filter_eq_self.mpr fun e he => by simpa using first_other e he,
      List.filter_eq_self.mpr fun e he => by simpa using rest_other e he]
  change standard.assignAll d.entries = (standard.assignAll (d.erase l.key).entries).map _
  rw [heq, herase, assignAll_append, assignAll_append]
  cases standard.assignAll first with
  | error e => rfl
  | ok r =>
      change r.assignAll ((l.key, v) :: rest) = (r.assignAll rest).map _
      rw [assignAll_cons, assign_label l small]
      exact assignAll_put rest_other _ r

/-- The settings of a source but for one. -/
def without (key : String) (es : List (String × Json)) : List (String × Json) :=
  es.filter fun e => e.1 != key

theorem ofSources_of_find {sources : List (List (String × Json))}
    (found : (Dict.ofList sources.flatten).find? l.key = some v) (small : oversized? v = none) :
    ofSources sources =
      (ofSources (sources.map (without l.key))).map (l.put (textOrNumber? v)) := by
  rw [ofSources, ofDict_of_find found small, Dict.erase_ofList, List.filter_flatten]
  rfl

/-! ## Labels in the check -/

/-- The check takes a label as it is. -/
theorem get_of_check (l : Label) (h : (l.put o r).check machine = .ok s) :
    l.resolved machine o = some (l.get s) := by
  have passes := check_eq_ok_iff.mp h
  cases l with
  | token => exact passes.token
  | server => exact passes.server
  | hostname =>
      obtain rfl | ⟨rfl, hmachine⟩ : o = some s.hostname ∨ o = none ∧ machine = .ok s.hostname :=
        passes.hostname
      · rfl
      · exact congrArg Except.toOption hmachine

/-- Any other text in its place passes too, and nothing else becomes of the settings. -/
theorem check_set (l : Label) (scheme : l = .server → isServer text = true) {other : String}
    (h : (l.put (some other) r).check machine = .ok s) :
    (l.put (some text) r).check machine = .ok (l.set text s) := by
  have passes := check_eq_ok_iff.mp h
  refine check_eq_ok_iff.mpr ?_
  cases l with
  | token =>
      exact { passes with
        token := rfl
        agrees := by rw [passes.agrees]; rfl }
  | server =>
      exact { passes with
        server := rfl
        scheme := scheme rfl
        agrees := by rw [passes.agrees]; rfl }
  | hostname =>
      exact { passes with
        hostname := .inl rfl
        agrees := by rw [passes.agrees]; rfl }

end RawSettings

namespace Settings
open Environment RawSettings

variable {l : Label} {name s : String} {v : Json}

/-! ## Labels in the environment -/

theorem settings_append (before after : List (String × String)) :
    settings (before ++ after) = settings before ++ settings after :=
  List.filterMap_append

theorem settings_label (named : settingName? name = some l.key.toList) (s : String)
    (after : List (String × String)) :
    settings ((name, s) :: after) = (l.key, read s) :: settings after := by
  rw [settings, List.filterMap_cons]
  dsimp only
  rw [named]
  cases l <;> rfl

theorem oversized?_guessWhole (cs : List Char) : oversized? (guessWhole cs) = none := by
  by_cases whole : ∃ i, Numeral cs i ∧ IsWord i
  · obtain ⟨i, numeral, word⟩ := whole
    rw [guessWhole_of_numeral numeral word, oversized?]
    exact if_pos word
  · rw [guessWhole_of_other fun i numeral word => whole ⟨i, numeral, word⟩, oversized?]
    all_goals nofun

theorem oversized?_read (plain : ∀ c ∈ s.toList, isPlain c = true) :
    oversized? (read s) = none := by
  rw [read_plain plain]
  split
  · rfl
  · split
    · rfl
    · unfold guess
      split
      · cases Binary64.parse? s.toList with
        | some x => rfl
        | none => exact oversized?_guessWhole _
      · exact oversized?_guessWhole _

theorem find?_sources (file : List (String × Json)) (before : List (String × String))
    {after : List (String × String)} (named : settingName? name = some l.key.toList)
    (last : ∀ e ∈ settings after, e.1 ≠ l.key) (s : String) :
    (Dict.ofList [file, settings (before ++ (name, s) :: after)].flatten).find? l.key =
      some (read s) := by
  have hlater : (settings after).reverse.find? (fun e => e.1 == l.key) = none := by
    rw [List.find?_eq_none]
    intro e he
    simpa using last e (List.mem_reverse.mp he)
  rw [settings_append, settings_label named, Dict.find?_ofList]
  simp [hlater]

/-- The settings but for a label. -/
def others (l : Label) (sources : List (List (String × Json))) : Except SettingsError RawSettings :=
  ofSources (sources.map (without l.key))

theorem load_of_find {sources : List (List (String × Json))} (machine : Except String String)
    (found : (Dict.ofList sources.flatten).find? l.key = some v) (small : oversized? v = none) :
    load sources machine =
      (others l sources).bind fun r => (l.put (textOrNumber? v) r).check machine := by
  rw [load, ofSources_of_find found small, ← others]
  cases others l sources <;> rfl

/-- A label from the environment. What becomes of a plain text is said by its form, and it
arrives unchanged exactly when it is no truth value and no number that is written otherwise.
The settings are those that there are without the label, with what has become of it put in.
What is used is what has arrived, or the name of the machine where no host name has. A text
that arrives unchanged is used as it is wherever any other would be, and makes no other
difference. -/
theorem load_label (l : Label) (file : List (String × Json)) (before : List (String × String))
    {after : List (String × String)} {name s : String}
    (named : settingName? name = some l.key.toList)
    (last : ∀ e ∈ settings after, e.1 ≠ l.key) (nonempty : s ≠ "")
    (plain : ∀ c ∈ s.toList, isPlain c = true) (machine : Except String String) :
    let sources := [file, settings (before ++ (name, s) :: after)]
    ∃ o, Arrives s o ∧ (o = some s ↔ Unaltered s) ∧
      load sources machine = (others l sources).bind (fun r => (l.put o r).check machine) ∧
      (∀ loaded, load sources machine = .ok loaded →
        l.resolved machine o = some (l.get loaded)) ∧
      (Unaltered s → (l = .server → isServer s = true) → ∀ r other loaded,
        others l sources = .ok r → (l.put (some other) r).check machine = .ok loaded →
          load sources machine = .ok (l.set s loaded)) := by
  intro sources
  have arrives := (arrives_iff plain nonempty).mpr rfl
  have found := find?_sources file before named last s
  have hload := load_of_find machine found (oversized?_read plain)
  refine ⟨_, arrives, arrives.eq_some_iff, hload, fun loaded h => ?_,
    fun unaltered scheme r other loaded hr h => ?_⟩
  · rw [hload] at h
    cases hothers : others l sources with
    | error e =>
        rw [hothers] at h
        cases h
    | ok r =>
        rw [hothers] at h
        exact get_of_check l h
  · rw [hload, hr, arrives.eq_some_iff.mpr unaltered]
    exact check_set l scheme h

/-- A token in the environment and another one in the file. -/
def withToken (s : String) : List (List (String × Json)) :=
  [[("token", .text "old")],
    settings [("WF_TOKEN", s), ("WF_SERVER", "https://metrics.example.com")]]

def tokenless : RawSettings := { standard with server := some "https://metrics.example.com" }

theorem last_withToken :
    ∀ e ∈ settings [("WF_SERVER", "https://metrics.example.com")], e.1 ≠ Label.token.key := by
  have hsettings : settings [("WF_SERVER", "https://metrics.example.com")] =
      [("server", .text "https://metrics.example.com")] := rfl
  rw [hsettings]
  simp [Label.key]

theorem others_withToken (s : String) : others .token (withToken s) = .ok tokenless := by
  have hwithout : (withToken s).map (without Label.token.key) =
      [[], [("server", .text "https://metrics.example.com")]] := by
    rw [withToken, settings_label (l := .token) rfl]
    rfl
  have hserver : ofSources [[], [("server", .text "https://metrics.example.com")]] =
      (ofSources [[], []]).map
        (Label.server.put (textOrNumber? (.text "https://metrics.example.com"))) :=
    ofSources_of_find (l := .server) rfl rfl
  rw [others, hwithout, hserver]
  rfl

theorem exists_check_tokenless :
    ∃ loaded, (Label.token.put (some "t") tokenless).check (.ok "relay") = .ok loaded := ⟨_, rfl⟩

/-- A version is no number, and replaces what stands in the file. -/
theorem load_label_version :
    "v1.50-rc+2" ≠ "" ∧ ∃ loaded, load (withToken "v1.50-rc+2") (.ok "relay") = .ok loaded ∧
      loaded.token = "v1.50-rc+2" := by
  have nonempty : "v1.50-rc+2" ≠ "" := by decide
  have letters : ∀ c ∈ "v1.50-rc+2".toList, c.isAlphanum = true ∨ c ∈ ['.', '-', '+'] := by
    simp
  have unaltered : Unaltered "v1.50-rc+2" := by
    refine ⟨by decide, fun _ x hx => ?_, fun i numeral => ?_⟩
    · cases hx
    · have hread := integer?_eq_some_iff.mpr numeral
      cases hread
  have named : settingName? "WF_TOKEN" = some Label.token.key.toList := rfl
  obtain ⟨o, -, -, -, -, hset⟩ := load_label .token [("token", .text "old")] [] named
    last_withToken nonempty (fun c hc => isPlain_of_isAlphanum (letters c hc)) (.ok "relay")
  obtain ⟨loaded, hloaded⟩ := exists_check_tokenless
  exact ⟨nonempty, _, hset unaltered nofun tokenless "t" loaded (others_withToken _) hloaded, rfl⟩

/-- Not every text of letters, digits and the like arrives unchanged: a number loses the zeros
in front of it. -/
theorem token_loses_zeros :
    (∃ loaded, load (withToken "007") (.ok "relay") = .ok loaded ∧ loaded.token = "7") ∧
    ¬ ∀ s : String, s ≠ "" →
      (∀ c ∈ s.toList, c.isAlphanum = true ∨ c ∈ ['.', '-', '+']) →
        ∃ loaded, load (withToken s) (.ok "relay") = .ok loaded ∧ loaded.token = s := by
  have named : settingName? "WF_TOKEN" = some Label.token.key.toList := rfl
  have found : (Dict.ofList (withToken "007").flatten).find? Label.token.key = some (.whole 7) :=
    find?_sources [("token", .text "old")] [] named last_withToken "007"
  have hload : load (withToken "007") (.ok "relay") =
      (Label.token.put (some "7") tokenless).check (.ok "relay") := by
    rw [load_of_find (.ok "relay") found rfl, others_withToken]
    rfl
  have seven : ∃ loaded, load (withToken "007") (.ok "relay") = .ok loaded ∧
      loaded.token = "7" := by
    obtain ⟨loaded, hloaded⟩ := exists_check_tokenless
    rw [hload]
    exact ⟨_, check_set .token nofun hloaded, rfl⟩
  refine ⟨seven, fun h => ?_⟩
  obtain ⟨loaded, hloaded, hsame⟩ := h "007" (by decide) (by simp)
  obtain ⟨_, hseven, htoken⟩ := seven
  obtain rfl := Except.ok.inj (hloaded.symm.trans hseven)
  rw [htoken] at hsame
  exact absurd hsame (by decide)

end Settings
end MetricsProxy
