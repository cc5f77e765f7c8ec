import TraceExplorer.Config.Basic
import TraceExplorer.Proofs.Host.Reading
import TraceExplorer.Proofs.KeyedList
import TraceExplorer.Proofs.Success

/-!
# Sources of settings

The sources are ranked: the command line, the YAML file, the settings file of lines, the variables
of the process. A setting is read from the value of the first source that gives it one, and what the
sources of lower rank say of it does not matter.
-/

namespace TraceExplorer.Config

/-! ## Settings -/

inductive Setting where
  | useUtc
  | serviceName
  | maxWorkers
  | schemaValidation
  | logLevel
  deriving DecidableEq, Repr

namespace Setting

/-- The settings in the order in which they are read. -/
def all : List Setting := [useUtc, serviceName, maxWorkers, schemaValidation, logLevel]

def name : Setting → String
  | useUtc => "use_utc"
  | serviceName => "service_name"
  | maxWorkers => "max_workers"
  | schemaValidation => "schema_validation"
  | logLevel => "log_level"

def variableName : Setting → String
  | useUtc => "TRACEVIEW_UTC"
  | serviceName => "TRACEVIEW_SERVICE_NAME"
  | maxWorkers => "TRACEVIEW_MAX_WORKERS"
  | schemaValidation => "TRACEVIEW_VALIDATE"
  | logLevel => "TRACEVIEW_LOG_LEVEL"

theorem mem_all (x : Setting) : x ∈ all := by cases x <;> decide

theorem nodup_names : (all.map name).Nodup := by decide

end Setting

theorem variableNames_eq : variableNames = Setting.all.map fun x => (x.variableName, x.name) := rfl

/-! ## Ranks -/

structure Contents where
  environment : List (String × Text)
  lines : List (String × String)
  document : Yaml.TopMapping
  overrides : Settings

namespace Contents

/-- What the sources say of a setting, from the highest rank to the lowest. -/
def ranked (c : Contents) (x : Setting) : List (Option Yaml.Value) :=
  [(c.overrides.lookup x.name).filter (!·.isNull),
    c.document.field? x.name,
    (c.lines.lookup x.variableName).map fun s => .text (.ofString s),
    (c.environment.lookup x.variableName).map .text]

def value? (c : Contents) (x : Setting) : Option Yaml.Value := (c.ranked x).findSome? id

end Contents

/-- What is said in the same way from the top down to the first value that is given. -/
def AgreesToValue (ranked ranked' : List (Option Yaml.Value)) : Prop :=
  ∃ upper lower lower', ranked = upper ++ lower ∧ ranked' = upper ++ lower' ∧
    ((∃ v, some v ∈ upper) ∨ lower = lower')

def linesOf (h : Host) : Option Host.Path → Except Failure (List (String × String))
  | some path => readEnvFile h path
  | none => .ok []

def documentOf (h : Host) : Option Host.Path → Except ConfigFault Yaml.TopMapping
  | some path => readYamlFile h path
  | none => .ok .empty

/-- The files of the sources are found and read. No name is overridden twice. -/
structure Sources.ReadAs (sources : Sources) (h : Host) (envFile configFile : Option Host.Path)
    (c : Contents) : Prop where
  environment : c.environment = h.environment
  envFilePath : envFilePath? h sources = .ok envFile
  lines : linesOf h envFile = .ok c.lines
  configFilePath : configFilePath? h sources = .ok configFile
  document : documentOf h configFile = .ok c.document
  overrides : c.overrides = sources.overrides
  distinct : (sources.overrides.map (·.1)).Nodup

section

variable {α : Type} {earlier later : List (String × α)} {name : String}

/-! ## Looking up -/

theorem setField_eq_upsert (entries : List (String × α)) (name : String) (v : α) :
    Json.setField entries name v = KeyedList.upsert (fun _ => v) name entries := by
  induction entries with
  | nil => rfl
  | cons entry rest ih =>
      obtain ⟨n, w⟩ := entry
      rw [Json.setField, KeyedList.upsert, ih]

theorem lookup_setField (entries : List (String × α)) (other : String) (v : α) :
    (Json.setField entries other v).lookup name =
      if name = other then some v else entries.lookup name := by
  rw [setField_eq_upsert, KeyedList.lookup_upsert]

/-- The last value that a later source gives wins. -/
theorem lookup_override_reverse (earlier later : List (String × α)) :
    (override earlier later).lookup name =
      (later.reverse.lookup name).or (earlier.lookup name) := by
  induction later generalizing earlier with
  | nil => rfl
  | cons entry rest ih =>
      obtain ⟨other, v⟩ := entry
      have hstep : override earlier ((other, v) :: rest) =
          override (Json.setField earlier other v) rest := rfl
      rw [hstep, ih, lookup_setField, List.reverse_cons, List.lookup_append, Option.or_assoc]
      congr 1
      by_cases h : name = other
      · simp [h]
      · simp [h, List.lookup_cons, beq_eq_false_iff_ne.mpr h]

theorem lookup_override (hdistinct : (later.map (·.1)).Nodup) :
    (override earlier later).lookup name = (later.lookup name).or (earlier.lookup name) := by
  rw [lookup_override_reverse, KeyedList.lookup_perm hdistinct (List.reverse_perm later).symm]

/-- Each name is listed once, where it is first given. -/
theorem names_override (settings : List (String × α)) :
    (override [] settings).map (·.1) = (settings.map (·.1)).eraseDups := by
  simp only [override, setField_eq_upsert]
  exact KeyedList.keys_foldl_upsert settings

/-- A settings file of lines gives each name once. -/
theorem nodup_read (text : String) : ((Dotenv.read text).map (·.1)).Nodup := by
  have hnames : (Dotenv.read text).map (·.1) = _ := names_override _
  rw [hnames]
  exact Positions.nodup_eraseDups _

theorem nodup_of_readEnvFile {h : Host} {path : Host.Path} {lines : List (String × String)}
    (hread : readEnvFile h path = .ok lines) : (lines.map (·.1)).Nodup := by
  rw [readEnvFile] at hread
  obtain ⟨isThere, -, hread⟩ := bind_eq_ok_iff.mp hread
  split at hread
  · obtain ⟨text, -, hlines⟩ := bind_eq_ok_iff.mp hread
    obtain rfl := Except.ok.inj hlines
    exact nodup_read text
  · obtain rfl := Except.ok.inj hread
    exact List.nodup_nil

theorem lookup_ofVariables (environment : List (String × Text)) (x : Setting) :
    (ofVariables environment).lookup x.name =
      (environment.lookup x.variableName).map .text := by
  have hlist : ofVariables environment = Setting.all.filterMap fun x =>
      ((environment.lookup x.variableName).map Yaml.Value.text).map (x.name, ·) := by
    rw [ofVariables, variableNames_eq, List.filterMap_map]
    simp only [Option.map_map]
    rfl
  rw [hlist]
  exact KeyedList.lookup_filterMap Setting.nodup_names (Setting.mem_all x)

theorem settingNames_eq : settingNames = Setting.all.map Setting.name := rfl

theorem ofDocument_eq (top : Yaml.TopMapping) :
    ofDocument top = Setting.all.filterMap fun x => (top.field? x.name).map (x.name, ·) := by
  rw [ofDocument, settingNames_eq, List.filterMap_map]
  rfl

theorem lookup_ofDocument (top : Yaml.TopMapping) (x : Setting) :
    (ofDocument top).lookup x.name = top.field? x.name := by
  rw [ofDocument_eq]
  exact KeyedList.lookup_filterMap Setting.nodup_names (Setting.mem_all x)

theorem nodup_ofDocument (top : Yaml.TopMapping) : ((ofDocument top).map (·.1)).Nodup := by
  rw [ofDocument_eq]
  exact KeyedList.nodup_filterMap Setting.nodup_names

theorem lookup_map {β : Type} (f : α → β) (entries : List (String × α)) :
    (entries.map fun (key, v) => (key, f v)).lookup name = (entries.lookup name).map f := by
  induction entries with
  | nil => rfl
  | cons entry rest ih =>
      rw [List.map_cons, List.lookup_cons, List.lookup_cons, ih]
      cases name == entry.1 <;> rfl

theorem Sources.lookup_given {sources : Sources} (name : String)
    (hdistinct : (sources.overrides.map (·.1)).Nodup) :
    sources.given.lookup name = (sources.overrides.lookup name).filter (!·.isNull) :=
  KeyedList.lookup_filter hdistinct (fun v => !v.isNull) name

theorem Sources.nodup_given {sources : Sources} (hdistinct : (sources.overrides.map (·.1)).Nodup) :
    (sources.given.map (·.1)).Nodup :=
  (List.filter_sublist.map _).nodup hdistinct

end

/-! ## Loading -/

abbrev Setting.Kind : Setting → Type
  | useUtc | schemaValidation => Bool
  | serviceName => Option Text
  | maxWorkers => Int
  | logLevel => Text

def setting (config : Config) : (x : Setting) → x.Kind
  | .useUtc => config.useUtc
  | .serviceName => config.serviceName
  | .maxWorkers => config.maxWorkers
  | .schemaValidation => config.schemaValidation
  | .logLevel => config.logLevel

/-- The value of a setting, if it counts as one. Where a text is wanted, what is null, empty, zero
or false does not. -/
def Setting.present (x : Setting) (v : Option Yaml.Value) : Option Yaml.Value :=
  match x with
  | serviceName | logLevel => v.filter (·.isTruthy)
  | _ => v

def Setting.parse : (x : Setting) → Yaml.Value → Except ConfigFault x.Kind
  | useUtc => readBool useUtc.name
  | serviceName => fun v => (textOf v).map some
  | maxWorkers => readPositive maxWorkers.name
  | schemaValidation => readBool schemaValidation.name
  | logLevel => fun v => (textOf v).map Text.upper

/-- Reads a setting from its value. A setting without one has its default. -/
def Setting.read (x : Setting) (v : Option Yaml.Value) : Except ConfigFault x.Kind :=
  match x.present v with
  | some v => x.parse v
  | none => .ok (setting {} x)

def firstFault? (value? : Setting → Option Yaml.Value) : Option ConfigFault :=
  Setting.all.findSome? fun x => errorOf? (x.read (value? x))

section

variable {h : Host} {sources : Sources} {envFile configFile : Option Host.Path}
  {contents : Contents} {settings : Settings} {config : Config}
  {value? : Setting → Option Yaml.Value}

theorem Contents.value?_eq (contents : Contents) (x : Setting) :
    contents.value? x = ((contents.overrides.lookup x.name).filter (!·.isNull)).or
      ((contents.document.field? x.name).or
        (((contents.lines.lookup x.variableName).map fun s => .text (.ofString s)).or
          ((contents.environment.lookup x.variableName).map .text))) := by
  simp only [value?, ranked, findSome?_cons_eq_or, List.findSome?_nil, Option.or_none, id]

def Contents.variables (contents : Contents) : List (String × Text) :=
  override contents.environment (contents.lines.map fun (name, value) => (name, .ofString value))

def Contents.merged (contents : Contents) (given : Settings) : Settings :=
  override (override (ofVariables contents.variables) (ofDocument contents.document)) given

theorem Sources.ReadAs.variablesOf_eq (hread : sources.ReadAs h envFile configFile contents) :
    variablesOf h envFile = .ok contents.variables := by
  have hlines := hread.lines
  rw [Contents.variables, hread.environment]
  cases envFile with
  | none =>
      rw [← Except.ok.inj hlines]
      rfl
  | some path =>
      rw [linesOf] at hlines
      rw [variablesOf, hlines]
      rfl

theorem Sources.ReadAs.nodup_lines (hread : sources.ReadAs h envFile configFile contents) :
    (contents.lines.map (·.1)).Nodup := by
  have hlines := hread.lines
  cases envFile with
  | none =>
      rw [← Except.ok.inj hlines]
      exact List.nodup_nil
  | some path => exact nodup_of_readEnvFile hlines

theorem Sources.ReadAs.load_eq (hread : sources.ReadAs h envFile configFile contents) :
    load h sources = ofSettings (contents.merged sources.given) envFile configFile := by
  have hdocument := hread.document
  rw [load, hread.envFilePath, hread.configFilePath]
  simp only [Except.mapError, bind, Except.bind, hread.variablesOf_eq]
  cases configFile with
  | none =>
      rw [Contents.merged, ← Except.ok.inj hdocument]
      rfl
  | some path =>
      rw [documentOf] at hdocument
      simp only [hdocument]
      rfl

/-- Merging keeps the value of the highest rank. -/
theorem Sources.ReadAs.lookup_merged (hread : sources.ReadAs h envFile configFile contents)
    (x : Setting) : (contents.merged sources.given).lookup x.name = contents.value? x := by
  -- the later of two updates wins, so the ranks stand in the reverse order of the updates
  have hlines : ((contents.lines.map fun (name, value) => (name, Text.ofString value)).map
      (·.1)).Nodup := by
    rw [List.map_map]
    exact hread.nodup_lines
  rw [Contents.merged, lookup_override (Sources.nodup_given hread.distinct),
    lookup_override (nodup_ofDocument _), lookup_ofVariables, Contents.variables,
    lookup_override hlines, lookup_map, lookup_ofDocument, Sources.lookup_given _ hread.distinct,
    Contents.value?_eq, hread.overrides, Option.map_or,
    Option.map_map]
  rfl

/-! ## Reading the values -/

theorem readText?_serviceName (settings : Settings) :
    readText? settings "service_name" =
      Setting.serviceName.read (settings.lookup "service_name") := by
  rw [readText?, Setting.read, Setting.present]
  cases (settings.lookup "service_name").filter (·.isTruthy) with
  | none => rfl
  | some v =>
      simp only [Option.mapM_some, Setting.parse]
      cases textOf v <;> rfl

theorem readText?_logLevel (settings : Settings) :
    (readText? settings "log_level").map (fun t => (t.map Text.upper).getD "WARNING") =
      Setting.logLevel.read (settings.lookup "log_level") := by
  rw [readText?, Setting.read, Setting.present]
  cases (settings.lookup "log_level").filter (·.isTruthy) with
  | none => rfl
  | some v =>
      simp only [Option.mapM_some, Setting.parse]
      cases textOf v <;> rfl

/-- The values are read one after the other. -/
theorem ofSettings_eq (hvalues : ∀ x : Setting, settings.lookup x.name = value? x) :
    ofSettings settings envFile configFile = do
      let useUtc ← Setting.useUtc.read (value? .useUtc)
      let serviceName ← Setting.serviceName.read (value? .serviceName)
      let maxWorkers ← Setting.maxWorkers.read (value? .maxWorkers)
      let schemaValidation ← Setting.schemaValidation.read (value? .schemaValidation)
      let logLevel ← Setting.logLevel.read (value? .logLevel)
      return {
        useUtc, serviceName, maxWorkers, schemaValidation, logLevel, envFile, configFile } := by
  simp only [← hvalues, Setting.name]
  rw [← readText?_serviceName, ← readText?_logLevel, ofSettings]
  refine bind_congr fun useUtc => bind_congr fun serviceName => bind_congr fun maxWorkers =>
    bind_congr fun schemaValidation => ?_
  cases readText? settings "log_level" <;> rfl

theorem ofSettings_eq_ok_iff (hvalues : ∀ x : Setting, settings.lookup x.name = value? x) :
    ofSettings settings envFile configFile = .ok config ↔
      (∀ x : Setting, x.read (value? x) = .ok (config.setting x)) ∧
        config.envFile = envFile ∧ config.configFile = configFile := by
  rw [ofSettings_eq hvalues]
  simp only [bind_eq_ok_iff]
  constructor
  · rintro ⟨useUtc, hutc, serviceName, hservice, maxWorkers, hworkers, schemaValidation, hschema,
      logLevel, hlevel, hconfig⟩
    obtain rfl := Except.ok.inj hconfig
    refine ⟨fun x => ?_, rfl, rfl⟩
    cases x <;> assumption
  · rintro ⟨h, rfl, rfl⟩
    exact ⟨_, h .useUtc, _, h .serviceName, _, h .maxWorkers, _, h .schemaValidation, _,
      h .logLevel, rfl⟩

/-- The first value that cannot be read decides how reading fails. -/
theorem errorOf?_ofSettings (hvalues : ∀ x : Setting, settings.lookup x.name = value? x) :
    errorOf? (ofSettings settings envFile configFile) = firstFault? value? := by
  simp only [ofSettings_eq hvalues, firstFault?, Setting.all, findSome?_cons_eq_or]
  exact errorOf?_bind fun _ => errorOf?_bind fun _ => errorOf?_bind fun _ =>
    errorOf?_bind fun _ => errorOf?_bind fun _ => rfl

theorem Sources.ReadAs.load_eq_ok_iff (hread : sources.ReadAs h envFile configFile contents) :
    load h sources = .ok config ↔
      (∀ x : Setting, x.read (contents.value? x) = .ok (config.setting x)) ∧
        config.envFile = envFile ∧ config.configFile = configFile := by
  rw [hread.load_eq]
  exact ofSettings_eq_ok_iff hread.lookup_merged

theorem Sources.ReadAs.load_eq_error_iff {fault : ConfigFault}
    (hread : sources.ReadAs h envFile configFile contents) :
    load h sources = .error fault ↔ firstFault? contents.value? = some fault := by
  rw [hread.load_eq, ← errorOf?_eq_some_iff, errorOf?_ofSettings hread.lookup_merged]

/-! ## Values that do not matter -/

theorem findSome?_eq_of_agreesToValue {ranked ranked' : List (Option Yaml.Value)}
    (hagree : AgreesToValue ranked ranked') : ranked.findSome? id = ranked'.findSome? id := by
  obtain ⟨upper, lower, lower', rfl, rfl, ⟨v, hv⟩ | rfl⟩ := hagree
  · have hsome : (upper.findSome? id).isSome := List.findSome?_isSome_iff.mpr ⟨_, hv, rfl⟩
    rw [List.findSome?_append, List.findSome?_append, Option.or_of_isSome hsome,
      Option.or_of_isSome hsome]
  · rfl

theorem ofSettings_congr {settings' : Settings} {envFile' configFile' : Option Host.Path}
    (hvalues : ∀ x : Setting, settings.lookup x.name = value? x)
    (hvalues' : ∀ x : Setting, settings'.lookup x.name = value? x) :
    ofSettings settings' envFile' configFile' =
      (ofSettings settings envFile configFile).map fun config =>
        { config with envFile := envFile', configFile := configFile' } := by
  cases hload : ofSettings settings envFile configFile with
  | ok config =>
      obtain ⟨hsettings, -, -⟩ := (ofSettings_eq_ok_iff hvalues).mp hload
      refine (ofSettings_eq_ok_iff hvalues').mpr ⟨fun x => ?_, rfl, rfl⟩
      rw [hsettings x]
      cases x <;> rfl
  | error fault =>
      rw [← errorOf?_eq_some_iff, errorOf?_ofSettings hvalues] at hload
      rw [Except.map, ← errorOf?_eq_some_iff, errorOf?_ofSettings hvalues', hload]

end

/-! ## Named files -/

def entriesOf? (text : String) : Option Yaml.TopMapping :=
  match Yaml.Document.ofText text with
  | .ok .nothing => some .empty
  | .ok (.mapping top) => some top
  | _ => none

section

variable {h : Host} {path : Host.Path} {text : String}

theorem readEnvFile_of_readText (htext : h.readText path = .ok text) :
    readEnvFile h path = .ok (Dotenv.read text) := by
  rw [readEnvFile, Host.pathExists_of_readText htext, htext]
  rfl

theorem readYamlFile_of_entriesOf? {top : Yaml.TopMapping} (htext : h.readText path = .ok text)
    (htop : entriesOf? text = some top) : readYamlFile h path = .ok top := by
  rw [readYamlFile, Host.pathExists_of_readText htext, htext]
  simp only [Except.mapError, bind, Except.bind]
  rw [entriesOf?] at htop
  split at htop
  · rename_i hnothing
    rw [hnothing]
    cases htop
    rfl
  · rename_i hmapping
    rw [hmapping]
    cases htop
    rfl
  · cases htop

theorem Sources.readAs_of_readText {sources : Sources} {envFile configFile : Host.Path}
    {envText configText : String} {top : Yaml.TopMapping}
    (henv : givenPath? sources.envFile = some envFile) (hlines : h.readText envFile = .ok envText)
    (hconfig : givenPath? sources.configFile = some configFile)
    (hyaml : h.readText configFile = .ok configText) (htop : entriesOf? configText = some top)
    (hdistinct : (sources.overrides.map (·.1)).Nodup) :
    sources.ReadAs h (some envFile) (some configFile)
      ⟨h.environment, Dotenv.read envText, top, sources.overrides⟩ where
  environment := rfl
  envFilePath := by
    rw [envFilePath?, henv]
    simp only [pure, Except.pure, bind, Except.bind, Host.pathExists_of_readText hlines, if_true]
  lines := readEnvFile_of_readText hlines
  configFilePath := by
    rw [configFilePath?, hconfig]
    rfl
  document := readYamlFile_of_entriesOf? hyaml htop
  overrides := rfl
  distinct := hdistinct

end

section

variable {environment : List (String × Text)} {envText configText : String} {overrides : Settings}
  {top : Yaml.TopMapping}

def envPath : Host.Path := ⟨"", [".env"]⟩

def configPath : Host.Path := ⟨"", ["traceview.yaml"]⟩

def hostOfTexts (environment : List (String × Text)) (envText configText : String) : Host :=
  { entries := [(envPath.names, .file envText.toUTF8), (configPath.names, .file configText.toUTF8)],
    environment }

def bothFiles (overrides : Settings) : Sources :=
  { envFile := some ".env", configFile := some "traceview.yaml", overrides }

theorem readAs_hostOfTexts (henv : '\r' ∉ envText.toList) (hconfig : '\r' ∉ configText.toList)
    (htop : entriesOf? configText = some top) (hdistinct : (overrides.map (·.1)).Nodup) :
    (bothFiles overrides).ReadAs (hostOfTexts environment envText configText) (some envPath)
      (some configPath) ⟨environment, Dotenv.read envText, top, overrides⟩ := by
  have hlines : (hostOfTexts environment envText configText).readText envPath = .ok envText :=
    Host.readText_of_toUTF8 (Host.lookup_of_entry (by decide) (by decide) (by decide) (by decide)
      rfl rfl) henv
  have hyaml : (hostOfTexts environment envText configText).readText configPath =
      .ok configText :=
    Host.readText_of_toUTF8 (Host.lookup_of_entry (by decide) (by decide) (by decide) (by decide)
      rfl rfl) hconfig
  have henvPath : givenPath? (some ".env") = some envPath := by decide +kernel
  have hconfigPath : givenPath? (some "traceview.yaml") = some configPath := by decide +kernel
  exact Sources.readAs_of_readText henvPath hlines hconfigPath hyaml htop hdistinct

/-- What loading gives can be computed from the texts of the files. -/
theorem load_hostOfTexts {α : Type} {result : α} (observe : Except ConfigFault Config → Option α)
    (henv : '\r' ∉ envText.toList) (hconfig : '\r' ∉ configText.toList)
    (hdistinct : (overrides.map (·.1)).Nodup)
    (hresult : ((entriesOf? configText).bind fun top => observe (ofSettings
      (Contents.merged ⟨environment, Dotenv.read envText, top, overrides⟩
        (bothFiles overrides).given) (some envPath) (some configPath))) = some result) :
    observe (load (hostOfTexts environment envText configText) (bothFiles overrides)) =
      some result := by
  obtain ⟨top, htop, hresult⟩ := Option.bind_eq_some_iff.mp hresult
  rwa [(readAs_hostOfTexts henv hconfig htop hdistinct).load_eq]

end

/-- Each setting is read from the value of the source of highest rank that gives it one, and has its
default without such a value. The first value that cannot be read in the order of the settings
decides how loading fails. So where two loads agree on each setting from the highest rank down to
the first value, they give the same settings, or fail in the same way, whatever the sources of lower
rank hold. -/
theorem load_by_rank {h : Host} {sources : Sources} {envFile configFile : Option Host.Path}
    {contents : Contents} (hread : sources.ReadAs h envFile configFile contents) :
    (∀ config, load h sources = .ok config ↔
        (∀ x : Setting, x.read (contents.value? x) = .ok (config.setting x)) ∧
          config.envFile = envFile ∧ config.configFile = configFile) ∧
      (∀ fault, load h sources = .error fault ↔ firstFault? contents.value? = some fault) ∧
      ∀ {h' : Host} {sources' : Sources} {envFile' configFile' : Option Host.Path}
        {contents' : Contents}, sources'.ReadAs h' envFile' configFile' contents' →
        (∀ x, AgreesToValue (contents.ranked x) (contents'.ranked x)) →
          load h' sources' = (load h sources).map fun config =>
            { config with envFile := envFile', configFile := configFile' } := by
  refine ⟨fun config => hread.load_eq_ok_iff, fun fault => hread.load_eq_error_iff, ?_⟩
  intro h' sources' envFile' configFile' contents' hread' hagree
  rw [hread.load_eq, hread'.load_eq]
  refine ofSettings_congr hread.lookup_merged fun x => ?_
  rw [hread'.lookup_merged]
  exact (findSome?_eq_of_agreesToValue (hagree x)).symm

/-- A variable of the process holds no number of workers, but the YAML file gives one. The YAML file
and the settings file of lines hold words that are no truth value, but the command line gives one.
-/
theorem load_by_rank_of_four_sources :
    let overrides : Settings := [("use_utc", .bool true), ("max_workers", .null)]
    let envText := "TRACEVIEW_UTC=maybe\nTRACEVIEW_LOG_LEVEL=debug\n"
    let configText := "max_workers: 4\nuse_utc: maybe\n"
    let quiet := [("TRACEVIEW_SERVICE_NAME", Text.ofString "shop")]
    let busy := ("TRACEVIEW_MAX_WORKERS", Text.ofString "many") :: quiet
    let config : Config :=
      { useUtc := true, serviceName := some "shop", maxWorkers := 4, logLevel := "DEBUG",
        envFile := some envPath, configFile := some configPath }
    ∃ contents contents',
      (bothFiles overrides).ReadAs (hostOfTexts busy envText configText) (some envPath)
        (some configPath) contents ∧
      (bothFiles overrides).ReadAs (hostOfTexts quiet envText configText) (some envPath)
        (some configPath) contents' ∧
      (∀ x, AgreesToValue (contents.ranked x) (contents'.ranked x)) ∧
      (∀ x : Setting, x.read (contents.value? x) = .ok (config.setting x)) ∧
      load (hostOfTexts quiet envText configText) (bothFiles overrides) = .ok config := by
  intro overrides envText configText quiet busy config
  obtain ⟨top, htop, v, hworkers⟩ : ∃ top, entriesOf? configText = some top ∧
      ∃ v, top.field? "max_workers" = some v := by
    have hsome : ((entriesOf? configText).bind (·.field? "max_workers")).isSome := by
      decide +kernel
    obtain ⟨v, hv⟩ := Option.isSome_iff_exists.mp hsome
    obtain ⟨top, htop, hv⟩ := Option.bind_eq_some_iff.mp hv
    exact ⟨top, htop, v, hv⟩
  have hread (environment : List (String × Text)) :
      (bothFiles overrides).ReadAs (hostOfTexts environment envText configText) (some envPath)
        (some configPath) ⟨environment, Dotenv.read envText, top, overrides⟩ :=
    readAs_hostOfTexts (by decide) (by decide) htop (by decide)
  have hagree (x : Setting) :
      AgreesToValue (Contents.ranked ⟨busy, Dotenv.read envText, top, overrides⟩ x)
        (Contents.ranked ⟨quiet, Dotenv.read envText, top, overrides⟩ x) := by
    cases x with
    | maxWorkers =>
        exact ⟨[none, top.field? "max_workers"], _, _, rfl, rfl, .inl ⟨v, by simp [hworkers]⟩⟩
    | useUtc | serviceName | schemaValidation | logLevel =>
        exact ⟨[], _, _, rfl, rfl, .inr rfl⟩
  have hload : load (hostOfTexts busy envText configText) (bothFiles overrides) = .ok config :=
    toOption_eq_some_iff.mp
      (load_hostOfTexts Except.toOption (by decide) (by decide) (by decide) (by decide +kernel))
  obtain ⟨hok, -, hmasked⟩ := load_by_rank (hread busy)
  refine ⟨_, _, hread busy, hread quiet, hagree, ((hok config).mp hload).1, ?_⟩
  rw [hmasked (hread quiet) hagree, hload]
  rfl

end TraceExplorer.Config
