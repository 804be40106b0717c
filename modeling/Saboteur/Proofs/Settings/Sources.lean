import Saboteur.Proofs.Bytes.Reading
import Saboteur.Proofs.Json.Fields
import Saboteur.Settings.Load
import Saboteur.Url.Idna

/-!
# Where a setting comes from

Every setting is the value of its flag, or else what the settings file gives for it, or else its
default. What a flag gives is checked by the reading of that flag, and what the file gives only by
the reading of its document: an interval of no seconds and an origin of any kind come through.
-/

namespace Saboteur.Settings

variable {α : Type} {files : FileTexts} {flags : Flags}

/-- What the settings file gives under a name. -/
def GivesInFile (files : FileTexts) (flags : Flags) (name : String) (j : Json) : Prop :=
  ∃ path text members, flags.get? .configFile = some path ∧ files path = .ok text ∧
    Toml.parse? text = some (.object members) ∧ (Literal.text name, j) ∈ members

/-- What a setting is without its flag. The file gives no name twice. -/
inductive FromFile (files : FileTexts) (flags : Flags) (name : String)
    (value : Json → Except JsonError α) (default : α) : α → Prop
  | given {j : Json} {a : α} : (∀ j', GivesInFile files flags name j' ↔ j' = j) →
    value j = .ok a → FromFile files flags name value default a
  | default : (∀ j, ¬ GivesInFile files flags name j) →
    FromFile files flags name value default default

/-- What a setting is with its flag before the file. -/
inductive Sourced (flags : Flags) (f : Flag) (value : String → Except LoadError α)
    (otherwise : α → Prop) : α → Prop
  | flag {s : String} {a : α} : flags.get? f = some s → value s = .ok a →
    Sourced flags f value otherwise a
  | otherwise {a : α} : flags.get? f = none → otherwise a → Sourced flags f value otherwise a

/-! ## The settings file -/

/-- What settings are made of without flags. -/
structure FileSettings [Url.Idna] (files : FileTexts) (flags : Flags) (s : Settings) : Prop where
  httpAddress : FromFile files flags "http_address" read default.httpAddress s.httpAddress
  httpPort : FromFile files flags "http_port" Json.readPort default.httpPort s.httpPort
  beaconNode : FromFile files flags "beacon_node" (Json.readOption read) default.beaconNode
    s.beaconNode
  executionNode : FromFile files flags "execution_node" (Json.readOption read)
    default.executionNode s.executionNode
  strategyFile : FromFile files flags "strategy_file" (Json.readOption Json.readText)
    default.strategyFile s.strategyFile
  maxValidatorIndex : FromFile files flags "max_validator_index" Json.readWord
    default.maxValidatorIndex s.maxValidatorIndex
  retentionEpochs : FromFile files flags "cache_retention_epochs" (Json.readOption Json.readWord)
    default.retentionEpochs s.retentionEpochs
  feedbackInterval : FromFile files flags "feedback_interval" Json.readWord
    default.feedbackInterval s.feedbackInterval
  allowOrigin : FromFile files flags "allow_origin" (Json.readOption Json.readText)
    default.allowOrigin s.allowOrigin

/-- Without a file every setting has its default. -/
theorem fileSettings_default [Url.Idna] (h : flags.get? .configFile = none) :
    FileSettings files flags default := by
  have hnone : ∀ name j, ¬ GivesInFile files flags name j := by
    rintro name j ⟨path, text, members, hpath, -⟩
    rw [h] at hpath
    cases hpath
  constructor <;> exact .default (hnone _)

section Document

variable {path text : String} {members : List (Literal × Json)}

/-- What a file gives is what is among the members of its document. -/
theorem givesInFile_iff (hpath : flags.get? .configFile = some path) (htext : files path = .ok text)
    (hparse : Toml.parse? text = some (.object members)) {name : String} {j : Json} :
    GivesInFile files flags name j ↔ (Literal.text name, j) ∈ members := by
  constructor
  · rintro ⟨path', text', members', hpath', htext', hparse', hmem⟩
    cases hpath.symm.trans hpath'
    cases htext.symm.trans htext'
    cases hparse.symm.trans hparse'
    exact hmem
  · exact fun hmem => ⟨path, text, members, hpath, htext, hparse, hmem⟩

/-- A field that is read with a default comes from the file or is that default. -/
theorem fromFile_of_defaulted (hpath : flags.get? .configFile = some path)
    (htext : files path = .ok text) (hparse : Toml.parse? text = some (.object members))
    {names : List String} {f : Json.Fields} (hf : Json.fields names (.object members) = .ok f)
    {name : String} (hname : name ∈ names) {value : Json → Except JsonError α} {default a : α}
    (h : f.defaulted name default value = .ok a) : FromFile files flags name value default a := by
  have hgives (j : Json) : f.entries.lookup name = some j ↔ GivesInFile files flags name j :=
    (Json.lookup_fields_object hf hname).trans (givesInFile_iff hpath htext hparse).symm
  rcases Json.Fields.defaulted_eq_ok_iff.1 h with ⟨j, hj, ha⟩ | ⟨hnone, rfl⟩
  · refine .given (fun j' => ?_) ha
    rw [← hgives, hj, Option.some_inj]
    exact eq_comm
  · refine .default fun j hj => ?_
    rw [(hgives j).2 hj] at hnone
    cases hnone

end Document

theorem exists_members_of_parse? {text : String} {j : Json} (h : Toml.parse? text = some j) :
    ∃ members, j = .object members := by
  unfold Toml.parse? at h
  obtain ⟨es, -, rfl⟩ := Option.map_eq_some_iff.1 h
  exact ⟨_, rfl⟩

/-- A file that is read gives every setting, or leaves it at its default. -/
theorem fileSettings_ofFile [Url.Idna] {path : String} (hpath : flags.get? .configFile = some path)
    {s : Settings} (h : ofFile files path = .ok s) : FileSettings files flags s := by
  simp only [ofFile, bind_eq_ok_iff, mapError_eq_ok_iff] at h
  obtain ⟨text, htext, h⟩ := h
  cases hparse : Toml.parse? text with
  | none =>
    rw [hparse] at h
    cases h
  | some j =>
    rw [hparse] at h
    obtain ⟨members, rfl⟩ := exists_members_of_parse? hparse
    replace h := mapError_eq_ok_iff.1 h
    simp only [read, bind_eq_ok_iff] at h
    obtain ⟨f, hf, _, h₁, _, h₂, _, h₃, _, h₄, _, h₅, _, h₆, _, h₇, _, h₈, _, h₉, h⟩ := h
    cases h
    -- every name that is asked for is among those that the reading collects
    have hgiven {α : Type} {name : String} {value : Json → Except JsonError α} {d a : α}
        (hname : name ∈ _) (h : f.defaulted name d value = .ok a) :=
      fromFile_of_defaulted hpath htext hparse hf hname h
    exact ⟨hgiven (by simp) h₁, hgiven (by simp) h₂, hgiven (by simp) h₃, hgiven (by simp) h₄,
      hgiven (by simp) h₅, hgiven (by simp) h₆, hgiven (by simp) h₇, hgiven (by simp) h₈,
      hgiven (by simp) h₉⟩

/-! ## Flags -/

theorem flag_eq_ok_iff {f : Flag} {value : String → Except LoadError α} {o : Option α} :
    flag flags f value = .ok o ↔ (flags.get? f = none ∧ o = none) ∨
      ∃ s a, flags.get? f = some s ∧ value s = .ok a ∧ o = some a := by
  unfold flag
  cases flags.get? f with
  | none => simp [eq_comm]
  | some s =>
    show (value s).map some = .ok o ↔ _
    rw [map_eq_ok_iff]
    simp [eq_comm]

/-- The value of a flag goes before a setting that always has one. -/
theorem sourced_getD {f : Flag} {value : String → Except LoadError α} {o : Option α}
    (h : flag flags f value = .ok o) {otherwise : α → Prop} {a : α} (ha : otherwise a) :
    Sourced flags f value otherwise (o.getD a) := by
  rcases flag_eq_ok_iff.1 h with ⟨hnone, rfl⟩ | ⟨s, b, hs, hb, rfl⟩
  · exact .otherwise hnone ha
  · exact .flag hs hb

/-- The value of a flag goes before a setting that may have none. -/
theorem sourced_or {f : Flag} {value : String → Except LoadError α} {o : Option α}
    (h : flag flags f value = .ok o) {otherwise : Option α → Prop} {a : Option α}
    (ha : otherwise a) :
    Sourced flags f (fun s => (value s).map some) otherwise (o.or a) := by
  rcases flag_eq_ok_iff.1 h with ⟨hnone, rfl⟩ | ⟨s, b, hs, hb, rfl⟩
  · exact .otherwise hnone ha
  · exact .flag hs (by rw [hb]; rfl)

/-- The flags behind the one for the node are read with the node that was found, or else with the
default one. -/
theorem chosen_eq_ok_iff [Url.Idna] {found : Option NodeAddress}
    {k : NodeAddress → Except LoadError Settings} {c : Settings} :
    (match found with
      | some a => pure a >>= k
      | none => defaultNode.mapError (.node .beaconNode) >>= k) = .ok c ↔
      ∃ node, (found = some node ∨ found = none ∧ defaultNode = .ok node) ∧ k node = .ok c := by
  cases found with
  | some a => simp [pure, Except.pure]
  | none => simp [mapError_eq_ok_iff]

/-- What loaded settings are made of. -/
structure LoadedFrom [Url.Idna] (files : FileTexts) (flags : Flags) (c : Settings) : Prop where
  httpAddress : Sourced flags .httpAddress (ipValue .httpAddress)
    (FromFile files flags "http_address" read default.httpAddress) c.httpAddress
  httpPort : Sourced flags .httpPort (naturalValue .httpPort 65535)
    (FromFile files flags "http_port" Json.readPort default.httpPort) c.httpPort
  /-- A node is never missing. -/
  beaconNode : ∃ node, c.beaconNode = some node ∧ ∃ found,
    Sourced flags .beaconNode (fun s => (nodeValue .beaconNode s).map some)
      (FromFile files flags "beacon_node" (Json.readOption read) default.beaconNode) found ∧
    (found = some node ∨ found = none ∧ defaultNode = .ok node)
  executionNode : Sourced flags .executionNode (fun s => (nodeValue .executionNode s).map some)
    (FromFile files flags "execution_node" (Json.readOption read) default.executionNode)
    c.executionNode
  strategyFile : Sourced flags .strategyFile (fun s => .ok (some s))
    (FromFile files flags "strategy_file" (Json.readOption Json.readText) default.strategyFile)
    c.strategyFile
  maxValidatorIndex : Sourced flags .maxValidatorIndex (wordValue .maxValidatorIndex)
    (FromFile files flags "max_validator_index" Json.readWord default.maxValidatorIndex)
    c.maxValidatorIndex
  retentionEpochs : Sourced flags .cacheRetentionEpochs
    (fun s => (wordValue .cacheRetentionEpochs s).map some)
    (FromFile files flags "cache_retention_epochs" (Json.readOption Json.readWord)
      default.retentionEpochs) c.retentionEpochs
  feedbackInterval : Sourced flags .feedbackInterval intervalValue
    (FromFile files flags "feedback_interval" Json.readWord default.feedbackInterval)
    c.feedbackInterval
  allowOrigin : Sourced flags .httpAllowOrigin (fun s => (originValue s).map some)
    (FromFile files flags "allow_origin" (Json.readOption Json.readText) default.allowOrigin)
    c.allowOrigin

/-- Flags go before what stands in the file. -/
theorem loadedFrom_withFlags [Url.Idna] {s c : Settings} (hs : FileSettings files flags s)
    (h : s.withFlags flags = .ok c) : LoadedFrom files flags c := by
  simp only [withFlags, bind_eq_ok_iff] at h
  obtain ⟨address, h₁, port, h₂, origin, h₃, beacon, h₄, h⟩ := h
  obtain ⟨node, hnode, h⟩ := chosen_eq_ok_iff.1 h
  simp only [bind_eq_ok_iff] at h
  obtain ⟨execution, h₅, strategy, h₆, index, h₇, retention, h₈, interval, h₉, h⟩ := h
  cases h
  exact {
    httpAddress := sourced_getD h₁ hs.httpAddress
    httpPort := sourced_getD h₂ hs.httpPort
    beaconNode := ⟨node, rfl, beacon.or s.beaconNode, sourced_or h₄ hs.beaconNode, hnode⟩
    executionNode := sourced_or h₅ hs.executionNode
    strategyFile := sourced_or h₆ hs.strategyFile
    maxValidatorIndex := sourced_getD h₇ hs.maxValidatorIndex
    retentionEpochs := sourced_or h₈ hs.retentionEpochs
    feedbackInterval := sourced_getD h₉ hs.feedbackInterval
    allowOrigin := sourced_or h₃ hs.allowOrigin }

/-- **Every loaded setting comes from its flag, or else from the settings file, or else from its
default.** -/
theorem loadedFrom_of_load [Url.Idna] {c : Settings} (h : load files flags = .ok c) :
    LoadedFrom files flags c := by
  unfold load at h
  cases hpath : flags.get? .configFile with
  | none =>
    rw [hpath] at h
    exact loadedFrom_withFlags (fileSettings_default hpath) h
  | some path =>
    rw [hpath] at h
    obtain ⟨seed, hseed, h⟩ := bind_eq_ok_iff.1 h
    exact loadedFrom_withFlags (fileSettings_ofFile hpath hseed) h

/-! ## What is not checked -/

/-- An origin that its flag takes. -/
def AcceptedOrigin (s : String) : Prop := s = "*" ∨ "http".toList <+: s.toList

instance : DecidablePred AcceptedOrigin := fun s =>
  inferInstanceAs (Decidable (s = "*" ∨ "http".toList <+: s.toList))

theorem acceptedOrigin_of_originValue {s t : String} (h : originValue s = .ok t) :
    AcceptedOrigin t := by
  unfold originValue at h
  split at h
  · rename_i hs
    cases h
    exact hs
  · cases h

theorem ne_zero_of_intervalValue {s : String} {n : UInt64} (h : intervalValue s = .ok n) :
    n ≠ 0 := by
  simp only [intervalValue, bind_eq_ok_iff] at h
  obtain ⟨m, -, h⟩ := h
  split at h
  · cases h
  · rename_i hm
    cases h
    exact hm

theorem readOption_readText_eq_ok_some_iff {j : Json} {s : String} :
    Json.readOption Json.readText j = .ok (some s) ↔ j = .text s := by
  unfold Json.readOption
  split
  · exact iff_of_false nofun nofun
  · rw [map_eq_ok_iff]
    unfold Json.readText
    split
    · simp [Json.text]
    · rename_i htext
      exact iff_of_false (by simp) (htext s)

/-- Only a file makes an interval zero. -/
theorem Sourced.interval_eq_zero_iff {n : UInt64}
    (h : Sourced flags .feedbackInterval intervalValue
      (FromFile files flags "feedback_interval" Json.readWord default.feedbackInterval) n) :
    n = 0 ↔ flags.get? .feedbackInterval = none ∧
      ∃ j, GivesInFile files flags "feedback_interval" j ∧ Json.readWord j = .ok 0 := by
  cases h with
  | flag hflag hvalue =>
    rw [hflag]
    exact iff_of_false (ne_zero_of_intervalValue hvalue) nofun
  | otherwise hflag hfile =>
    rw [and_iff_right hflag]
    cases hfile with
    | given hgives hvalue => simp only [hgives, exists_eq_left, hvalue, Except.ok.injEq]
    | default hnone => exact iff_of_false (by decide) fun ⟨j, hj, _⟩ => hnone j hj

/-- Only a file gives an origin that its flag would refuse. -/
theorem Sourced.origin_not_accepted_iff {o : Option String}
    (h : Sourced flags .httpAllowOrigin (fun s => (originValue s).map some)
      (FromFile files flags "allow_origin" (Json.readOption Json.readText) default.allowOrigin) o) :
    (∃ s, o = some s ∧ ¬ AcceptedOrigin s) ↔ flags.get? .httpAllowOrigin = none ∧
      ∃ s, GivesInFile files flags "allow_origin" (.text s) ∧ ¬ AcceptedOrigin s := by
  cases h with
  | flag hflag hvalue =>
    obtain ⟨s, hs, rfl⟩ := map_eq_ok_iff.1 hvalue
    rw [hflag]
    refine iff_of_false ?_ nofun
    rintro ⟨_, heq, hrefused⟩
    cases heq
    exact hrefused (acceptedOrigin_of_originValue hs)
  | otherwise hflag hfile =>
    rw [and_iff_right hflag]
    refine exists_congr fun s => and_congr_left fun _ => ?_
    cases hfile with
    | given hgives hvalue =>
      rw [hgives, eq_comm (a := Json.text s), ← readOption_readText_eq_ok_some_iff, hvalue,
        Except.ok.injEq]
    | default hnone => exact iff_of_false nofun (hnone _)

/-- **Loaded settings name a node. Their interval is zero exactly if no flag gives one and the file
gives zero, and their origin is one that the flag would refuse exactly if no flag gives one and the
file gives it.** -/
theorem out_of_range_iff_of_load [Url.Idna] {files : FileTexts} {flags : Flags} {c : Settings}
    (h : load files flags = .ok c) :
    (∃ node, c.beaconNode = some node) ∧
    (c.feedbackInterval = 0 ↔ flags.get? .feedbackInterval = none ∧
      ∃ j, GivesInFile files flags "feedback_interval" j ∧ Json.readWord j = .ok 0) ∧
    ((∃ s, c.allowOrigin = some s ∧ ¬ AcceptedOrigin s) ↔ flags.get? .httpAllowOrigin = none ∧
      ∃ s, GivesInFile files flags "allow_origin" (.text s) ∧ ¬ AcceptedOrigin s) := by
  have hfrom := loadedFrom_of_load h
  obtain ⟨node, hnode, -⟩ := hfrom.beaconNode
  exact ⟨⟨node, hnode⟩, hfrom.feedbackInterval.interval_eq_zero_iff,
    hfrom.allowOrigin.origin_not_accepted_iff⟩

/-- A settings file with two values that no flag could give. -/
def uncheckedFile : FileTexts :=
  FileTexts.none.add "settings.toml" "feedback_interval = 0\nallow_origin = \"example.com\"\n"

/-- The flags that name a settings file and nothing else. -/
def fileOnly : Flags := Table.empty.set .configFile "settings.toml"

theorem exists_load_uncheckedFile :
    ∃ c, load uncheckedFile fileOnly = .ok c ∧ c.feedbackInterval = 0 ∧
      c.allowOrigin = some "example.com" := by
  have hvalues : (load uncheckedFile fileOnly).toOption.map
      (fun c => (c.feedbackInterval, c.allowOrigin)) = some (0, some "example.com") := by
    decide +kernel
  cases hload : load uncheckedFile fileOnly with
  | error e =>
    rw [hload] at hvalues
    cases hvalues
  | ok c =>
    rw [hload] at hvalues
    exact ⟨c, rfl, Prod.ext_iff.1 (Option.some.inj hvalues)⟩

/-- What its flag would refuse comes through in a file. -/
theorem load_uncheckedFile :
    ∃ c, load uncheckedFile fileOnly = .ok c ∧ ¬ 1 ≤ c.feedbackInterval ∧
      ∃ s, c.allowOrigin = some s ∧ ¬ AcceptedOrigin s := by
  obtain ⟨c, hload, hinterval, horigin⟩ := exists_load_uncheckedFile
  refine ⟨c, hload, ?_, "example.com", horigin, by decide⟩
  rw [hinterval]
  decide

/-- What is out of range in the loaded settings is in the file. -/
theorem givesInFile_uncheckedFile :
    ∃ c, load uncheckedFile fileOnly = .ok c ∧
      (∃ j, GivesInFile uncheckedFile fileOnly "feedback_interval" j ∧ Json.readWord j = .ok 0) ∧
      ∃ s, GivesInFile uncheckedFile fileOnly "allow_origin" (.text s) ∧ ¬ AcceptedOrigin s := by
  obtain ⟨c, hload, hinterval, horigin⟩ := exists_load_uncheckedFile
  have hrange := out_of_range_iff_of_load hload
  refine ⟨c, hload, (hrange.2.1.1 hinterval).2, ?_⟩
  exact (hrange.2.2.1 ⟨"example.com", horigin, by decide⟩).2

end Saboteur.Settings
