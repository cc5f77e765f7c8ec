import TraceExplorer.Proofs.Config.Sources
import TraceExplorer.Proofs.Yaml.Texts

/-!
# Refusals of settings

A value that cannot be read as its setting is refused with an error that shows its text. So what has
no text is not refused in this way, and neither is an infinite number of workers: there loading
fails without a code.
-/

namespace TraceExplorer.Config

open Yaml.Value (textDepth)

def Setting.refusal (x : Setting) (text reason : String) : Failure :=
  .reported (.config .settingInvalid (some (x.name ++ "=" ++ text ++ reason)))

/-- How reading the value of a setting fails without a code. -/
inductive Setting.Escapes : Setting → Yaml.Value → Failure → Prop where
  | infinite {negative : Bool} :
      Escapes maxWorkers (.number (.real (.infinite negative))) (.arithmetic .overflow)
  /-- A number of workers is written only to be refused. -/
  | workers {v : Yaml.Value} {failure : Failure} (hsmall : ∀ n, integer? v = some n → n < 1)
      (htext : v.LacksText textDepth failure) : Escapes maxWorkers v failure
  | other {x : Setting} {v : Yaml.Value} {failure : Failure} (hother : x ≠ maxWorkers)
      (htext : v.LacksText textDepth failure) : Escapes x v failure

/-- The first setting that cannot be read fails without a code. -/
inductive Escapes (value? : Setting → Option Yaml.Value) : Failure → Prop where
  | of {before after : List Setting} {x : Setting} {v : Yaml.Value} {failure : Failure}
      (hall : Setting.all = before ++ x :: after)
      (hbefore : ∀ earlier ∈ before, ∃ setting, earlier.read (value? earlier) = .ok setting)
      (hvalue : value? x = some v) (hescapes : x.Escapes v failure) : Escapes value? failure

section

variable {x : Setting} {v : Yaml.Value} {failure : Failure} {fault : ConfigFault} {name : String}
  {n : Int}

/-! ## Reading one value -/

theorem textOf_eq_error_iff :
    textOf v = .error fault ↔
      ∃ failure, v.LacksText textDepth failure ∧ .other failure = fault := by
  rw [textOf, mapError_eq_error_iff]
  simp only [Yaml.Value.display_eq_error_iff]

theorem refusal_of_quoted {text : String} (htext : v.quoted = .ok text) (reason : String) :
    ConfigFault.refusal x.name v reason = x.refusal text reason := by
  rw [ConfigFault.refusal, htext]
  rfl

theorem refusal_of_lacksText (htext : v.LacksText textDepth failure) (reason : String) :
    ConfigFault.refusal name v reason = failure := by
  rw [ConfigFault.refusal, Yaml.Value.quoted_eq_error_iff.mpr htext]

theorem readBool_of_lacksText (htext : v.LacksText textDepth failure) :
    readBool name v = .error (.other failure) := by
  have htextOf : textOf v = .error (.other failure) := textOf_eq_error_iff.mpr ⟨_, htext, rfl⟩
  unfold readBool
  split
  · obtain h | ⟨_, h⟩ := htext.isCollection_or_whole <;> cases h
  · rw [htextOf]
    rfl

/-- A truth value that cannot be read has no text, or is refused. -/
theorem failure_of_readBool (hfault : readBool name v = .error fault) :
    v.LacksText textDepth fault.failure ∨ fault = .notABoolean name v := by
  unfold readBool at hfault
  split at hfault
  · cases hfault
  · obtain htext | ⟨text, -, hword⟩ := bind_eq_error_iff.mp hfault
    · obtain ⟨failure, hquoted, rfl⟩ := textOf_eq_error_iff.mp htext
      exact .inl hquoted
    · right
      dsimp only at hword
      split at hword
      · cases hword
      · split at hword
        · cases hword
        · exact (Except.error.inj hword).symm

theorem readInteger_of_finite (hfinite : ∀ negative, v ≠ .number (.real (.infinite negative))) :
    readInteger name v =
      match integer? v with
      | some n => .ok n
      | none => .error (.notAnInteger name v) := by
  unfold readInteger
  split
  · exact absurd rfl (hfinite _)
  · rename_i hn
    rw [hn]
  · rename_i hnone
    rw [hnone]

theorem readPositive_of_small (hfinite : ∀ negative, v ≠ .number (.real (.infinite negative)))
    (hsmall : ∀ n, integer? v = some n → n < 1) :
    ∃ fault reason, readPositive name v = .error fault ∧
      fault.failure = ConfigFault.refusal name v reason := by
  rw [readPositive, readInteger_of_finite hfinite]
  cases hinteger : integer? v with
  | none => exact ⟨_, _, rfl, rfl⟩
  | some n =>
      refine ⟨.belowOne name v, _, ?_, rfl⟩
      simp only [bind, Except.bind, if_pos (hsmall n hinteger)]
      rfl

theorem readPositive_of_le (hfinite : ∀ negative, v ≠ .number (.real (.infinite negative)))
    (hinteger : integer? v = some n) (hn : 1 ≤ n) : readPositive name v = .ok n := by
  rw [readPositive, readInteger_of_finite hfinite, hinteger]
  simp only [bind, Except.bind, if_neg (Int.not_lt.mpr hn)]
  rfl

theorem le_of_readPositive (hn : readPositive name v = .ok n) : 1 ≤ n := by
  obtain ⟨m, -, hm⟩ := bind_eq_ok_iff.mp hn
  split at hm
  · cases hm
  · rename_i hle
    obtain rfl := Except.ok.inj hm
    exact Int.not_lt.mp hle

theorem ne_infinite_of_lacksText (htext : v.LacksText textDepth failure) (negative : Bool) :
    v ≠ .number (.real (.infinite negative)) := by
  rintro rfl
  obtain h | ⟨_, h⟩ := htext.isCollection_or_whole <;> cases h

/-! ## Reading one setting -/

theorem Setting.Escapes.parse_eq (h : x.Escapes v failure) :
    ∃ fault, x.parse v = .error fault ∧ fault.failure = failure := by
  cases h with
  | infinite => exact ⟨_, rfl, rfl⟩
  | workers hsmall htext =>
      obtain ⟨fault, reason, hparse, hfailure⟩ :=
        readPositive_of_small (ne_infinite_of_lacksText htext) hsmall
      exact ⟨fault, hparse, hfailure.trans (refusal_of_lacksText htext reason)⟩
  | other hother htext =>
      have htextOf : textOf v = .error (.other failure) := textOf_eq_error_iff.mpr ⟨_, htext, rfl⟩
      cases x with
      | maxWorkers => exact absurd rfl hother
      | useUtc | schemaValidation => exact ⟨_, readBool_of_lacksText htext, rfl⟩
      | serviceName | logLevel =>
          simp only [Setting.parse, htextOf]
          exact ⟨_, rfl, rfl⟩

theorem failure_of_textOf {α : Type} {f : Text → α} (hfault : (textOf v).map f = .error fault) :
    v.LacksText textDepth fault.failure := by
  obtain ⟨failure, hquoted, rfl⟩ := textOf_eq_error_iff.mp (map_eq_error_iff.mp hfault)
  exact hquoted

/-- A value is refused by its text if it has one, and escapes if it has none. -/
theorem Setting.escapes_or_refused_of_refusal {reason : String}
    (hrefusal : fault.failure = ConfigFault.refusal x.name v reason)
    (hescapes : ∀ failure, v.LacksText textDepth failure → x.Escapes v failure) :
    x.Escapes v fault.failure ∨
      ∃ text reason, v.quoted = .ok text ∧ fault.failure = x.refusal text reason := by
  cases htext : v.quoted with
  | ok text => exact .inr ⟨text, reason, rfl, hrefusal.trans (refusal_of_quoted htext reason)⟩
  | error failure =>
      have hlacks := Yaml.Value.quoted_eq_error_iff.mp htext
      rw [hrefusal, refusal_of_lacksText hlacks]
      exact .inl (hescapes failure hlacks)

theorem Setting.escapes_or_refused_of_readBool (hother : x ≠ maxWorkers)
    (hfault : readBool x.name v = .error fault) :
    x.Escapes v fault.failure ∨
      ∃ text reason, v.quoted = .ok text ∧ fault.failure = x.refusal text reason := by
  obtain htext | rfl := failure_of_readBool hfault
  · exact .inl (.other hother htext)
  · exact escapes_or_refused_of_refusal rfl fun _ => .other hother

theorem Setting.escapes_or_refused_of_readPositive
    (hfault : readPositive maxWorkers.name v = .error fault) :
    maxWorkers.Escapes v fault.failure ∨
      ∃ text reason, v.quoted = .ok text ∧ fault.failure = maxWorkers.refusal text reason := by
  -- every other number is cut to an integer, and what is no number is refused
  by_cases hinfinite : ∃ negative, v = .number (.real (.infinite negative))
  · obtain ⟨negative, rfl⟩ := hinfinite
    obtain rfl := Except.error.inj hfault
    exact .inl .infinite
  · have hfinite := not_exists.mp hinfinite
    have hsmall (n : Int) (hn : integer? v = some n) : n < 1 := by
      by_contra hle
      cases (readPositive_of_le hfinite hn (Int.not_lt.mp hle)).symm.trans hfault
    obtain ⟨_, reason, hparse, hfailure⟩ := readPositive_of_small hfinite hsmall
    obtain rfl := Except.error.inj (hparse.symm.trans hfault)
    exact escapes_or_refused_of_refusal hfailure fun _ => .workers hsmall

theorem Setting.escapes_or_refused (hfault : x.parse v = .error fault) :
    x.Escapes v fault.failure ∨
      ∃ text reason, v.quoted = .ok text ∧ fault.failure = x.refusal text reason := by
  cases x with
  | useUtc | schemaValidation => exact escapes_or_refused_of_readBool nofun hfault
  | serviceName | logLevel => exact .inl (.other nofun (failure_of_textOf hfault))
  | maxWorkers => exact escapes_or_refused_of_readPositive hfault

theorem Setting.Escapes.failure_cases (h : x.Escapes v failure) :
    failure = .arithmetic .overflow ∨
      failure = .unusableValue "whole number with too many digits" ∨ failure = .tooDeep := by
  cases h with
  | infinite => exact .inl rfl
  | workers _ htext | other _ htext => exact .inr htext.eq_or_eq

theorem Setting.Escapes.read_eq (h : x.Escapes v failure) :
    ∃ fault, x.read (some v) = .error fault ∧ fault.failure = failure := by
  -- a value without a text is never one that counts as missing
  have hpresent : x.present (some v) = some v := by
    cases h with
    | infinite | workers => rfl
    | other _ htext =>
        cases x with
        | useUtc | maxWorkers | schemaValidation => rfl
        | serviceName | logLevel => exact Option.filter_eq_some_iff.mpr ⟨rfl, htext.isTruthy⟩
  rw [Setting.read, hpresent]
  exact h.parse_eq

theorem Setting.exists_of_read_eq_error {w : Option Yaml.Value} (hfault : x.read w = .error fault) :
    ∃ v, w = some v ∧ x.parse v = .error fault := by
  rw [Setting.read] at hfault
  split at hfault
  · rename_i v hpresent
    refine ⟨v, ?_, hfault⟩
    cases x with
    | useUtc | maxWorkers | schemaValidation => exact hpresent
    | serviceName | logLevel => exact (Option.filter_eq_some_iff.mp hpresent).1
  · cases hfault

/-! ## Reading all settings -/

variable {value? : Setting → Option Yaml.Value}

theorem firstFault?_eq_some_iff : firstFault? value? = some fault ↔
    ∃ before x after, Setting.all = before ++ x :: after ∧ x.read (value? x) = .error fault ∧
      ∀ earlier ∈ before, ∃ setting, earlier.read (value? earlier) = .ok setting := by
  simp only [firstFault?, List.findSome?_eq_some_iff, errorOf?_eq_some_iff, errorOf?_eq_none_iff]

theorem Escapes.firstFault?_eq (h : Escapes value? failure) :
    ∃ fault, firstFault? value? = some fault ∧ fault.failure = failure := by
  obtain @⟨before, after, x, v, _, hall, hbefore, hvalue, hescapes⟩ := h
  obtain ⟨fault, hread, hfailure⟩ := hescapes.read_eq
  refine ⟨fault, firstFault?_eq_some_iff.mpr ⟨before, x, after, hall, ?_, hbefore⟩, hfailure⟩
  rw [hvalue, hread]

theorem escapes_or_refused (hfault : firstFault? value? = some fault) :
    Escapes value? fault.failure ∨ ∃ x v text reason, value? x = some v ∧ v.quoted = .ok text ∧
      fault.failure = x.refusal text reason := by
  obtain ⟨before, x, after, hall, hread, hbefore⟩ := firstFault?_eq_some_iff.mp hfault
  obtain ⟨v, hvalue, hparse⟩ := Setting.exists_of_read_eq_error hread
  obtain hescapes | ⟨text, reason, htext, hrefusal⟩ := Setting.escapes_or_refused hparse
  · exact .inl ⟨hall, hbefore, hvalue, hescapes⟩
  · exact .inr ⟨x, v, text, reason, hvalue, htext, hrefusal⟩

theorem Escapes.failure_cases (h : Escapes value? failure) :
    failure = .arithmetic .overflow ∨
      failure = .unusableValue "whole number with too many digits" ∨ failure = .tooDeep := by
  obtain ⟨-, -, -, hescapes⟩ := h
  exact hescapes.failure_cases

theorem Escapes.ne_reported (h : Escapes value? failure) (error : TraceError) :
    failure ≠ .reported error := by
  obtain rfl | rfl | rfl := h.failure_cases <;> nofun

theorem le_maxWorkers {config : Config}
    (hread : Setting.maxWorkers.read (value? .maxWorkers) = .ok config.maxWorkers) :
    1 ≤ config.maxWorkers := by
  rw [Setting.read] at hread
  split at hread
  · exact le_of_readPositive hread
  · have hdefault : (1 : Int) = config.maxWorkers := Except.ok.inj hread
    exact Int.le_of_eq hdefault

/-! ## Loading -/

variable {h : Host} {sources : Sources} {envFile configFile : Option Host.Path}
  {contents : Contents}

theorem escapes_iff_load_eq (hread : sources.ReadAs h envFile configFile contents) :
    Escapes contents.value? failure ↔
      (load h sources).mapError ConfigFault.failure = .error failure ∧
        ∀ error, failure ≠ .reported error := by
  simp only [mapError_eq_error_iff, hread.load_eq_error_iff]
  constructor
  · exact fun hescapes => ⟨hescapes.firstFault?_eq, hescapes.ne_reported⟩
  · rintro ⟨⟨fault, hfault, rfl⟩, hcode⟩
    obtain hescapes | ⟨x, v, text, reason, -, -, hrefusal⟩ := escapes_or_refused hfault
    · exact hescapes
    · exact absurd hrefusal (hcode _)

/-- What does not escape is loaded, or refused. -/
theorem load_cases (hread : sources.ReadAs h envFile configFile contents) :
    (∃ config, load h sources = .ok config ∧ 1 ≤ config.maxWorkers) ∨
      (∃ x v text reason, contents.value? x = some v ∧ v.quoted = .ok text ∧
        (load h sources).mapError ConfigFault.failure = .error (x.refusal text reason)) ∨
      ∃ failure, Escapes contents.value? failure := by
  cases hload : load h sources with
  | ok config =>
      exact .inl ⟨config, rfl, le_maxWorkers ((hread.load_eq_ok_iff.mp hload).1 .maxWorkers)⟩
  | error fault =>
      obtain hescapes | ⟨x, v, text, reason, hvalue, htext, hrefusal⟩ :=
        escapes_or_refused (hread.load_eq_error_iff.mp hload)
      · exact .inr (.inr ⟨_, hescapes⟩)
      · exact .inr (.inl ⟨x, v, text, reason, hvalue, htext, congrArg _ hrefusal⟩)

end

/-- Of sources that are read, loading gives settings with at least one worker, or refuses a value
with an error that names the setting and shows the text of the value, unless the first value that
cannot be read escapes. Then loading fails without a code: arithmetic overflows, a whole number has
too many digits, or collections are too deep inside each other. -/
theorem load_refuses_or_escapes {h : Host} {sources : Sources}
    {envFile configFile : Option Host.Path} {contents : Contents}
    (hread : sources.ReadAs h envFile configFile contents) :
    ((∃ config, load h sources = .ok config ∧ 1 ≤ config.maxWorkers) ∨
        (∃ x v text reason, contents.value? x = some v ∧ v.quoted = .ok text ∧
          (load h sources).mapError ConfigFault.failure = .error (x.refusal text reason)) ↔
      ∀ failure, ¬ Escapes contents.value? failure) ∧
    (∀ failure, Escapes contents.value? failure ↔
      (load h sources).mapError ConfigFault.failure = .error failure ∧
        ∀ error, failure ≠ .reported error) ∧
    ∀ failure, Escapes contents.value? failure →
      failure = .arithmetic .overflow ∨
        failure = .unusableValue "whole number with too many digits" ∨ failure = .tooDeep := by
  refine ⟨⟨?_, fun hnone => ?_⟩, fun failure => escapes_iff_load_eq hread,
    fun failure => Escapes.failure_cases⟩
  · intro hload failure hescapes
    obtain ⟨hfailure, hcode⟩ := (escapes_iff_load_eq hread).mp hescapes
    obtain ⟨config, hload, -⟩ | ⟨x, v, text, reason, -, -, hload⟩ := hload
    · rw [hload] at hfailure
      cases hfailure
    · exact absurd (Except.error.inj (hfailure.symm.trans hload)) (hcode _)
  · obtain hok | hrefused | ⟨failure, hescapes⟩ := load_cases hread
    · exact .inl hok
    · exact .inr hrefused
    · exact absurd hescapes (hnone failure)

/-- How loading fails can be computed from the texts of the files. -/
theorem mapError_load_hostOfTexts {envText configText : String} {failure : Failure}
    (henv : '\r' ∉ envText.toList) (hconfig : '\r' ∉ configText.toList)
    (hfailure : ((entriesOf? configText).bind fun top => errorOf? ((ofSettings
      (Contents.merged ⟨[], Dotenv.read envText, top, []⟩ (bothFiles []).given) (some envPath)
      (some configPath)).mapError ConfigFault.failure)) = some failure) :
    (load (hostOfTexts [] envText configText) (bothFiles [])).mapError ConfigFault.failure =
      .error failure :=
  errorOf?_eq_some_iff.mp (load_hostOfTexts (fun loaded => errorOf?
    (loaded.mapError ConfigFault.failure)) henv hconfig List.nodup_nil hfailure)

/-- A word is refused as the number of workers, and an infinite number escapes. -/
theorem load_refuses_or_escapes_of_workers :
    (∃ contents, (bothFiles []).ReadAs (hostOfTexts [] "" "max_workers: many\n") (some envPath)
        (some configPath) contents ∧ ∀ failure, ¬ Escapes contents.value? failure) ∧
      ∃ contents, (bothFiles []).ReadAs (hostOfTexts [] "" "max_workers: .inf\n") (some envPath)
        (some configPath) contents ∧ Escapes contents.value? (.arithmetic .overflow) := by
  have hread {configText : String} {top : Yaml.TopMapping} (hreturn : '\r' ∉ configText.toList)
      (htop : entriesOf? configText = some top) :
      (bothFiles []).ReadAs (hostOfTexts [] "" configText) (some envPath) (some configPath)
        ⟨[], Dotenv.read "", top, []⟩ :=
    readAs_hostOfTexts (by decide) hreturn htop List.nodup_nil
  constructor
  · obtain ⟨top, htop⟩ : ∃ top, entriesOf? "max_workers: many\n" = some top :=
      Option.isSome_iff_exists.mp (by decide +kernel)
    have hload : (load (hostOfTexts [] "" "max_workers: many\n") (bothFiles [])).mapError
        ConfigFault.failure =
          .error (Setting.maxWorkers.refusal "'many'" " is not an integer") :=
      mapError_load_hostOfTexts (by decide) (by decide) (by decide +kernel)
    have hread := hread (by decide) htop
    refine ⟨_, hread, fun failure hescapes => ?_⟩
    obtain ⟨hfailure, hcode⟩ := ((load_refuses_or_escapes hread).2.1 failure).mp hescapes
    exact hcode _ (Except.error.inj (hfailure.symm.trans hload))
  · obtain ⟨top, htop⟩ : ∃ top, entriesOf? "max_workers: .inf\n" = some top :=
      Option.isSome_iff_exists.mp (by decide +kernel)
    have hload : (load (hostOfTexts [] "" "max_workers: .inf\n") (bothFiles [])).mapError
        ConfigFault.failure = .error (.arithmetic .overflow) :=
      mapError_load_hostOfTexts (by decide) (by decide) (by decide +kernel)
    have hread := hread (by decide) htop
    exact ⟨_, hread, ((load_refuses_or_escapes hread).2.1 _).mpr ⟨hload, nofun⟩⟩

/-- An infinite number of workers is no whole number, but it is not refused. -/
theorem load_overflows_of_infinite :
    (load (hostOfTexts [] "" "max_workers: .inf\n") (bothFiles [])).mapError
      ConfigFault.failure = .error (.arithmetic .overflow) :=
  mapError_load_hostOfTexts (by decide) (by decide) (by decide +kernel)

end TraceExplorer.Config
