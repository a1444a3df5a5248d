import LogTail.Proofs.Overlay
import LogTail.Settings.Search

/-!
# Settings in layers

The settings of a host have three layers: the defaults, what one file says, and the variables.
The file is the first that is there, in the order of the search. Whatever is wrong with it is
the answer, and no other file and no variable mends it. What the file system and the reader of
files answer is taken as it comes.
-/
namespace LogTail.Settings

open Yaml (Node)

/-! ### What a file says -/

/-- What a settings file says, field by field. -/
structure Said where
  budget : Option Nat := none
  refresh : Option Nat := none
  clearOnStop : Option Bool := none
  level : Option String := none
  format : Option String := none
  deriving DecidableEq, Repr

/-- The value at a key, read by `read`, if the key is there. -/
def valueAt? {α : Type} (entries : List (String × Node)) (key : String) (read : Node → Option α) :
    Option (Option α) :=
  match entries.lookup key with
  | none => some none
  | some n => (read n).map some

theorem field?_eq {α : Type} (entries : List (String × Node)) (key : String)
    (read : Node → Option α) (preset : α) :
    field? entries key read preset = (valueAt? entries key read).map (·.getD preset) := by
  unfold field? valueAt?
  cases entries.lookup key with
  | none => rfl
  | some n => cases h : read n <;> simp [h]

theorem valueAt?_map {α β : Type} (entries : List (String × Node)) (key : String)
    (read : Node → Option α) (f : α → β) :
    valueAt? entries key (fun n => (read n).map f) = (valueAt? entries key read).map (·.map f) := by
  unfold valueAt?
  cases entries.lookup key with
  | none => rfl
  | some n => cases h : read n <;> simp [h]

namespace Said

/-- What is said, and the defaults where nothing is. -/
def settings (said : Said) : Settings where
  budget := said.budget.getD ({} : Settings).budget
  refresh := said.refresh.getD ({} : Settings).refresh
  clearOnStop := said.clearOnStop.getD ({} : Settings).clearOnStop
  level := said.level.getD ({} : Settings).level
  format := said.format.getD ({} : Settings).format

/-- The level and the format, as far as the log's own mapping names them. -/
def names? (d : Yaml.Document) (n : Node) : Option (Option String × Option String) := do
  let entries ← entriesOf? d n
  if keysAmong ["level", "format"] entries then do
    let level ← valueAt? entries "level" textOf?
    let format ← valueAt? entries "format" textOf?
    some (level, format)
  else none

/-- What a document says. -/
def ofDocument? (d : Yaml.Document) : Option Said := do
  let root ← match d.root with
    | none => some (.absent [])
    | some n => d.resolve n
  let entries ← entriesOf? d root
  if keysAmong ["max_lines", "status_refresh_ms", "clear_on_stop", "logging"] entries then do
    let number (n : Node) := (symbol? "int" n).bind number?
    let budget ← valueAt? entries "max_lines" number
    let refresh ← valueAt? entries "status_refresh_ms" number
    let clearOnStop ← valueAt? entries "clear_on_stop" fun n => (symbol? "bool" n).bind truth?
    let names ← valueAt? entries "logging" (names? d)
    let (level, format) := names.getD (none, none)
    some { budget, refresh, clearOnStop, level, format }
  else none

theorem logging?_eq (d : Yaml.Document) (preset : Settings) (n : Node) :
    logging? d preset n = (names? d n).map fun (level, format) =>
      { preset with level := level.getD preset.level, format := format.getD preset.format } := by
  unfold logging? names?
  simp only [field?_eq]
  cases entriesOf? d n with
  | none => rfl
  | some entries =>
    simp only [Option.bind_eq_bind, Option.bind_some]
    split
    · cases valueAt? entries "level" textOf? <;> cases valueAt? entries "format" textOf? <;> rfl
    · rfl

/-- The log's own mapping is read last, into settings that have all else. -/
theorem settings_of_names (d : Yaml.Document) (entries : List (String × Node)) (said : Said) :
    let preset : Settings := { said.settings with level := "info", format := "console" }
    (valueAt? entries "logging" (logging? d preset)).map (·.getD preset) =
      (valueAt? entries "logging" (names? d)).bind fun names =>
        some (settings { said with
          level := (names.getD (none, none)).1, format := (names.getD (none, none)).2 }) := by
  intro preset
  rw [funext (logging?_eq d preset), valueAt?_map]
  rcases valueAt? entries "logging" (names? d) with - | (- | ⟨level, format⟩) <;> rfl

/-- The settings of a document are what it says, and the defaults where it says nothing. -/
theorem settings_ofDocument? (d : Yaml.Document) :
    Settings.ofDocument? d = (ofDocument? d).map settings := by
  have hlast (entries : List (String × Node)) (budget refresh : Option Nat)
      (clearOnStop : Option Bool) :=
    settings_of_names d entries { budget, refresh, clearOnStop }
  simp only [settings] at hlast
  unfold Settings.ofDocument? ofDocument?
  cases d.root <;>
    simp [field?_eq, Option.map_bind, Option.bind_map, Function.comp_def, hlast, apply_ite,
      settings]

/-- What a text says that is not blank. -/
def ofText? (text : String) : Option Said := (Yaml.Document.ofText? text).bind ofDocument?

end Said

/-! ### The search -/

/-- What a host learns from its surroundings when it looks for its settings. -/
structure Surroundings where
  /-- The variables that are set. -/
  lookup : String → Option String
  /-- The home directory that is on record for the user. -/
  record : Option String := none
  isFile : String → Bool
  read : String → Except FileTrouble String
  /-- What a text that is not blank says, if anything can be made of it. -/
  parse : String → Option Said

/-- Where there may be a settings file. -/
inductive Place where
  | configuration
  | home
  | start
  deriving DecidableEq, Repr

/-- The places in the order of the search. -/
def Place.all : List Place := [.configuration, .home, .start]

namespace Surroundings

variable {w w' : Surroundings} {said : Said} {s s' : Settings} {path : String}
  {fault : SettingsFault} {a : Except SettingsFault Settings}

/-- The home path: the variable counts first, also when it is empty, and the root last. -/
def home (w : Surroundings) : String := (w.lookup "HOME").getD (w.record.getD "/")

/-- The variables as a search reads them, where there always is a home path. -/
def environment (w : Surroundings) (name : String) : Option String :=
  if name = "HOME" then some w.home else w.lookup name

/-- A blank text says nothing. -/
def said? (w : Surroundings) (text : String) : Option Said :=
  if Text.isAllBlank text then some {} else w.parse text

/-- The settings that a file has by itself. -/
def load (w : Surroundings) (path : String) : Except SettingsFault Settings :=
  match w.read path with
  | .error trouble => .error (.unreadable path trouble)
  | .ok text => accept ((w.said? text).map Said.settings)

/-- The variables laid over settings. -/
def overridden (w : Surroundings) (s : Settings) : Except SettingsFault Settings :=
  match s.override w.environment with
  | (.ok (), s) => .ok s
  | (.error flaw, _) => .error (.invalid flaw)

/-- The settings of a host that starts in these surroundings. -/
def settings (w : Surroundings) : Except SettingsFault Settings :=
  match (candidates w.environment).find? w.isFile with
  | none => w.overridden {}
  | some path =>
    match w.load path with
    | .error fault => .error fault
    | .ok s => w.overridden s

/-- The same variables and user, with the files of a tree and the reader of YAML. -/
def onTree (w : Surroundings) (tree : FileTree) : Surroundings := { w with
  isFile := fun path => tree.isFile path
  read := fun path => tree.read path
  parse := Said.ofText? }

/-- What is no file, as a directory, is passed over. -/
theorem isFile_onTree (w : Surroundings) (tree : FileTree) (path : String) :
    (w.onTree tree).isFile path = true ↔ ∃ content, tree.resolve path = .ok (.file content) := by
  change tree.isFile path = true ↔ _
  unfold FileTree.isFile
  split
  · rename_i content found
    exact ⟨fun _ => ⟨content, found⟩, fun _ => rfl⟩
  · rename_i other
    refine ⟨nofun, fun ⟨content, found⟩ => ?_⟩
    exact absurd found (other content)

theorem settings_ofText? (w : Surroundings) (tree : FileTree) (text : String) :
    Settings.ofText? text = ((w.onTree tree).said? text).map Said.settings := by
  unfold Settings.ofText? said? onTree Said.ofText?
  split
  · rfl
  · rw [Option.map_bind]
    exact congrArg _ (funext Said.settings_ofDocument?)

theorem load_onTree (w : Surroundings) (tree : FileTree) (path : String) :
    Settings.load tree path = (w.onTree tree).load path := by
  unfold Settings.load Settings.ofText load
  rw [funext (w.settings_ofText? tree)]
  rfl

theorem find?_onTree (w : Surroundings) (tree : FileTree) : find? w.environment tree =
    (candidates (w.onTree tree).environment).find? (w.onTree tree).isFile := rfl

/-- On a tree this is what a host does. -/
theorem discover_eq (w : Surroundings) (tree : FileTree) :
    discover w.environment tree = (w.onTree tree).settings := by
  unfold discover settings
  rw [← find?_onTree]
  cases find? w.environment tree with
  | none => rfl
  | some path =>
    simp only [← w.load_onTree tree]
    cases Settings.load tree path <;> rfl

/-- The path of the settings file at a place, if there is such a place. -/
def path? (w : Surroundings) : Place → Option String
  | .configuration => (w.lookup "XDG_CONFIG_HOME").map fun path =>
    below (below path "livetail") "livetail.yaml"
  | .home => if w.home = "" then none else
    some (below (below w.home ".config/livetail") "livetail.yaml")
  | .start => some "./livetail.yaml"

theorem candidates_eq (w : Surroundings) :
    candidates w.environment = Place.all.filterMap w.path? := by
  have hconfiguration : w.environment "XDG_CONFIG_HOME" = w.lookup "XDG_CONFIG_HOME" :=
    if_neg (by decide)
  have hhome : w.environment "HOME" = some w.home := if_pos rfl
  have hstart : below "." "livetail.yaml" = "./livetail.yaml" := by decide
  by_cases hempty : w.home = "" <;> cases hset : w.lookup "XDG_CONFIG_HOME" <;>
    simp [candidates, Place.all, path?, hconfiguration, hhome, hset, hempty, hstart, fileName]

/-- There is a file with this path at one of the places, and none at the places before it. -/
def First (w : Surroundings) (path : String) : Prop :=
  ∃ before place later, Place.all = before ++ place :: later ∧ w.path? place = some path ∧
    w.isFile path = true ∧
    ∀ earlier ∈ before, ∀ other, w.path? earlier = some other → w.isFile other = false

theorem find?_iff : (candidates w.environment).find? w.isFile = some path ↔ w.First path := by
  rw [candidates_eq, List.find?_filterMap, Option.bind_eq_some_iff]
  constructor
  · rintro ⟨place, hfind, hpath⟩
    obtain ⟨hfile, before, later, hall, hbefore⟩ := List.find?_eq_some_iff_append.mp hfind
    refine ⟨before, place, later, hall, hpath, by simpa [hpath] using hfile, ?_⟩
    intro earlier hearlier other hother
    simpa [hother] using hbefore earlier hearlier
  · rintro ⟨before, place, later, hall, hpath, hfile, hbefore⟩
    refine ⟨place, List.find?_eq_some_iff_append.mpr ⟨by simpa [hpath] using hfile, before, later,
      hall, ?_⟩, hpath⟩
    intro earlier hearlier
    cases hother : w.path? earlier with
    | none => rfl
    | some other => simp [hbefore earlier hearlier other hother]

theorem find?_eq_none : (candidates w.environment).find? w.isFile = none ↔
    ∀ place path, w.path? place = some path → w.isFile path = false := by
  rw [candidates_eq, List.find?_eq_none]
  constructor
  · intro h place path hpath
    have hplace : place ∈ Place.all := by cases place <;> decide
    exact eq_false_of_ne_true (h path (List.mem_filterMap.mpr ⟨place, hplace, hpath⟩))
  · intro h path hmem
    obtain ⟨place, -, hpath⟩ := List.mem_filterMap.mp hmem
    exact ne_true_of_eq_false (h place path hpath)

/-! ### The file -/

/-- What is wrong with a file by itself. -/
inductive Spoilt (w : Surroundings) (path : String) : SettingsFault → Prop where
  | unreadable {trouble : FileTrouble} (h : w.read path = .error trouble) :
      Spoilt w path (.unreadable path trouble)
  | malformed {text : String} (h : w.read path = .ok text) (nothing : w.said? text = none) :
      Spoilt w path .malformed
  | invalid {text : String} {said : Said} {flaw : Flaw} (h : w.read path = .ok text)
      (told : w.said? text = some said) (flawed : said.settings.check = .error flaw) :
      Spoilt w path (.invalid flaw)

/-- The file can be read, and what it says passes the check. -/
def Sound (w : Surroundings) (path : String) (said : Said) : Prop :=
  ∃ text, w.read path = .ok text ∧ w.said? text = some said ∧ said.settings.check = .ok ()

theorem Spoilt.load (h : w.Spoilt path fault) : w.load path = .error fault := by
  cases h with
  | unreadable h => simp only [Surroundings.load, h]
  | malformed h nothing => simp only [Surroundings.load, h, nothing, Option.map_none, accept]
  | invalid h told flawed =>
    simp only [Surroundings.load, h, told, Option.map_some, accept, flawed]

theorem Sound.load (h : w.Sound path said) : w.load path = .ok said.settings := by
  obtain ⟨text, h, told, sound⟩ := h
  simp only [Surroundings.load, h, told, Option.map_some, accept, sound]

theorem spoilt_or_sound (w : Surroundings) (path : String) :
    (∃ fault, w.Spoilt path fault) ∨ ∃ said, w.Sound path said := by
  cases h : w.read path with
  | error trouble => exact .inl ⟨_, .unreadable h⟩
  | ok text =>
    cases told : w.said? text with
    | none => exact .inl ⟨_, .malformed h told⟩
    | some said =>
      cases checked : said.settings.check with
      | error flaw => exact .inl ⟨_, .invalid h told checked⟩
      | ok => exact .inr ⟨said, text, h, told, checked⟩

/-- It makes no difference to a spoilt file what else there is. -/
theorem Spoilt.elsewhere (h : w.Spoilt path fault) (read : w'.read path = w.read path)
    (parse : w'.parse = w.parse) : w'.Spoilt path fault := by
  have hsaid : w'.said? = w.said? := by
    funext text
    rw [said?, said?, parse]
  cases h with
  | unreadable h => exact .unreadable (read.trans h)
  | malformed h nothing => exact .malformed (read.trans h) (by rw [hsaid, nothing])
  | invalid h told flawed => exact .invalid (read.trans h) (by rw [hsaid, told]) flawed

/-! ### The layers -/

/-- Each field has the value of its variable if it has one that is set, else what the file says,
else the default. -/
structure Layered (w : Surroundings) (said : Said) (s : Settings) : Prop where
  budget : match w.lookup "LIVETAIL_MAX_LINES" with
    | none => s.budget = said.budget.getD 10000
    | some input => readBudget input = .ok s.budget
  level : s.level = (w.lookup "LIVETAIL_LOG_LEVEL").getD (said.level.getD "info")
  format : s.format = (w.lookup "LIVETAIL_LOG_FORMAT").getD (said.format.getD "console")
  refresh : s.refresh = said.refresh.getD 500
  clearOnStop : s.clearOnStop = said.clearOnStop.getD false

/-- What comes of the variables over what a file says. -/
inductive Overlaid (w : Surroundings) (said : Said) : Except SettingsFault Settings → Prop where
  | settled {s : Settings} (layers : w.Layered said s) (sound : s.check = .ok ()) :
      Overlaid w said (.ok s)
  | flawed {s : Settings} {flaw : Flaw} (layers : w.Layered said s) (h : s.check = .error flaw) :
      Overlaid w said (.error (.invalid flaw))
  /-- The variable of the budget is no budget. -/
  | refused {input : String} {flaw : Flaw} (set : w.lookup "LIVETAIL_MAX_LINES" = some input)
      (h : readBudget input = .error flaw) : Overlaid w said (.error (.invalid flaw))

theorem environment_other {name : String} (h : name ≠ "HOME") :
    w.environment name = w.lookup name :=
  if_neg h

theorem Layered.unique (h : w.Layered said s) (h' : w.Layered said s') : s = s' := by
  have hbudget : s.budget = s'.budget := by
    have hs := h.budget
    have hs' := h'.budget
    split at hs
    · rename_i unset
      simp only [unset] at hs'
      exact hs.trans hs'.symm
    · rename_i set
      simp only [set] at hs'
      exact Except.ok.inj (hs.symm.trans hs')
  obtain ⟨budget, refresh, clearOnStop, level, format⟩ := s
  obtain ⟨budget', refresh', clearOnStop', level', format'⟩ := s'
  simp only [Settings.mk.injEq]
  exact ⟨hbudget, h.refresh.trans h'.refresh.symm, h.clearOnStop.trans h'.clearOnStop.symm,
    h.level.trans h'.level.symm, h.format.trans h'.format.symm⟩

theorem overlaid_overridden (w : Surroundings) (said : Said) :
    w.Overlaid said (w.overridden said.settings) := by
  have hbudget : w.environment budgetVariable = w.lookup "LIVETAIL_MAX_LINES" :=
    environment_other (by decide)
  have hlevel : w.environment levelVariable = w.lookup "LIVETAIL_LOG_LEVEL" :=
    environment_other (by decide)
  have hformat : w.environment formatVariable = w.lookup "LIVETAIL_LOG_FORMAT" :=
    environment_other (by decide)
  by_cases readable : ReadableBudget w.environment
  · obtain ⟨o, hread, olevel, oformat, obudget⟩ := readable.read
    have layers : w.Layered said (o.laidOn said.settings) := {
      budget := hbudget ▸ obudget said.settings
      level := by rw [← hlevel, ← olevel]; rfl
      format := by rw [← hformat, ← oformat]; rfl
      refresh := rfl
      clearOnStop := rfl }
    rw [overridden, Overlay.override_of_ok hread]
    cases checked : (o.laidOn said.settings).check with
    | ok => exact .settled layers checked
    | error flaw => exact .flawed layers checked
  · obtain ⟨input, set, unreadable⟩ : ∃ input, w.environment budgetVariable = some input ∧
        ¬ ∃ n, readBudget input = .ok n := by
      simpa only [ReadableBudget, Classical.not_forall, exists_prop] using readable
    cases refused : readBudget input with
    | ok n => exact absurd ⟨n, refused⟩ unreadable
    | error flaw =>
      have hread : Overlay.read w.environment = .error flaw := by
        simp only [Overlay.read, set, refused]
      rw [overridden, Overlay.override_of_error hread]
      exact .refused (hbudget ▸ set) refused

/-- A budget that is refused is in no layer. -/
theorem Layered.not_refused {input : String} {flaw : Flaw} (layers : w.Layered said s)
    (set : w.lookup "LIVETAIL_MAX_LINES" = some input) : readBudget input ≠ .error flaw := by
  intro refused
  have hbudget := layers.budget
  simp only [set, refused] at hbudget
  cases hbudget

/-- Where there are settings in layers, their check decides. -/
theorem Overlaid.eq_accept (h : w.Overlaid said a) (layers : w.Layered said s) :
    a = accept (some s) := by
  cases h with
  | settled layers' sound =>
    rw [layers.unique layers']
    simp only [accept, sound]
  | flawed layers' flawed =>
    rw [layers.unique layers']
    simp only [accept, flawed]
  | refused set refused => exact absurd refused (layers.not_refused set)

theorem Overlaid.unique {a' : Except SettingsFault Settings} (h : w.Overlaid said a)
    (h' : w.Overlaid said a') : a = a' := by
  have hlayers {s : Settings} (layers : w.Layered said s) : a = a' :=
    (h.eq_accept layers).trans (h'.eq_accept layers).symm
  cases h with
  | settled layers => exact hlayers layers
  | flawed layers => exact hlayers layers
  | refused set refused =>
    cases h' with
    | settled layers' => exact hlayers layers'
    | flawed layers' => exact hlayers layers'
    | refused set' refused' =>
      obtain rfl := Option.some.inj (set.symm.trans set')
      obtain rfl := Except.error.inj (refused.symm.trans refused')
      rfl

/-! ### What comes of it -/

/-- How a search for settings ends. -/
inductive Outcome (w : Surroundings) : Except SettingsFault Settings → Prop where
  /-- The first file is spoilt, and that is all that counts. -/
  | spoilt {path : String} {fault : SettingsFault} (first : w.First path)
      (h : w.Spoilt path fault) : Outcome w (.error fault)
  | file {path : String} {said : Said} {a : Except SettingsFault Settings} (first : w.First path)
      (sound : w.Sound path said) (h : w.Overlaid said a) : Outcome w a
  /-- There is no file anywhere. -/
  | defaults {a : Except SettingsFault Settings}
      (none : ∀ place path, w.path? place = some path → w.isFile path = false)
      (h : w.Overlaid {} a) : Outcome w a

theorem outcome_settings (w : Surroundings) : w.Outcome w.settings := by
  unfold settings
  cases hfind : (candidates w.environment).find? w.isFile with
  | none => exact .defaults (find?_eq_none.mp hfind) (w.overlaid_overridden {})
  | some path =>
    have first := find?_iff.mp hfind
    rcases w.spoilt_or_sound path with ⟨fault, spoilt⟩ | ⟨said, sound⟩
    · simp only [spoilt.load]
      exact .spoilt first spoilt
    · simp only [sound.load]
      exact .file first sound (w.overlaid_overridden said)

theorem Outcome.eq (h : w.Outcome a) : w.settings = a := by
  cases h with
  | spoilt first spoilt => simp only [settings, find?_iff.mpr first, spoilt.load]
  | @file path said a first sound overlaid =>
    simp only [settings, find?_iff.mpr first, sound.load]
    exact (w.overlaid_overridden said).unique overlaid
  | defaults none overlaid =>
    simp only [settings, find?_eq_none.mpr none]
    exact (w.overlaid_overridden {}).unique overlaid

/-- A host takes the first file there is of the three that its search considers: in the directory
for configuration if that is set, below the home path if that is not empty, and where it is
started. If this file cannot be read, says nothing that can be made out, or does not pass the
check, then that is the answer, in these surroundings and in all others where it comes first and
reads the same: no other file counts, and no variable. Otherwise, and if there is no file,
the answer has three layers, of which the variables are the uppermost and the defaults the
lowest. On a tree of files, with the reader of YAML, this is what a host does. -/
theorem first_file_decides (w : Surroundings) :
    (∀ a, w.settings = a ↔ w.Outcome a) ∧
    (∀ path fault, w.Spoilt path fault → ∀ w' : Surroundings, w'.First path →
      w'.read path = w.read path → w'.parse = w.parse → w'.settings = .error fault) ∧
    ∀ tree : FileTree, discover w.environment tree = (w.onTree tree).settings ∧
      ∀ path, (find? w.environment tree = some path ↔ (w.onTree tree).First path) ∧
        ((w.onTree tree).isFile path = true ↔
          ∃ content, tree.resolve path = .ok (.file content)) := by
  refine ⟨fun a => ⟨fun h => h ▸ w.outcome_settings, Outcome.eq⟩, ?_, fun tree => ?_⟩
  · intro path fault spoilt w' first read parse
    exact (Outcome.spoilt first (spoilt.elsewhere read parse)).eq
  · refine ⟨w.discover_eq tree, fun path => ⟨?_, w.isFile_onTree tree path⟩⟩
    rw [find?_onTree]
    exact find?_iff

/-- A file below the home directory asks for too small a budget. Neither the variable that asks
for a better one nor the good file after it is of any use, and it is all the same without them.
Without any file the variable is laid over the defaults. -/
theorem small_budget_decides :
    let path := "/home/me/.config/livetail/livetail.yaml"
    let w : Surroundings := {
      lookup := fun name => if name = "XDG_CONFIG_HOME" then some "/etc/xdg"
        else if name = "LIVETAIL_MAX_LINES" then some "2000" else none
      record := some "/home/me"
      isFile := fun p => p == path || p == "./livetail.yaml"
      read := fun p => .ok (if p = path then "max_lines: 5\n" else "max_lines: 3000\n")
      parse := Said.ofText? }
    let w' : Surroundings := { w with lookup := fun _ => none, isFile := fun p => p == path }
    let w'' : Surroundings := { w with isFile := fun _ => false }
    w.First path ∧ w.Spoilt path (.invalid (.budget 5)) ∧
      w.settings = .error (.invalid (.budget 5)) ∧ w'.settings = .error (.invalid (.budget 5)) ∧
      w''.settings = .ok { budget := 2000 } := by
  intro path w w' w''
  have first : w.First path :=
    ⟨[.configuration], .home, [.start], rfl, by decide, by decide, by decide⟩
  have first' : w'.First path :=
    ⟨[.configuration], .home, [.start], rfl, by decide, by decide, by decide⟩
  have told : w.said? "max_lines: 5\n" = some { budget := some 5 } := by decide +kernel
  have spoilt : w.Spoilt path (.invalid (.budget 5)) := .invalid rfl told rfl
  have budget : readBudget "2000" = .ok 2000 := rfl
  have layers : w''.Layered {} { budget := 2000 } := ⟨budget, rfl, rfl, rfl, rfl⟩
  obtain ⟨ends, elsewhere, -⟩ := first_file_decides w
  exact ⟨first, spoilt, (ends _).mpr (.spoilt first spoilt),
    elsewhere path _ spoilt w' first' rfl rfl,
    ((first_file_decides w'').1 _).mpr (.defaults (fun _ _ _ => rfl) (.settled layers rfl))⟩

end Surroundings

end LogTail.Settings
