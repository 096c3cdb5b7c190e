import FeedOutline.Proofs.Log.Setup

/-!
What a setup that fails leaves behind. Until the logger gets its level nothing has changed. From then on
the old handlers are gone, and those of the new ones that were made stay.
-/
namespace FeedOutline.Log

open Data (Mapping)
open Disk (FileTree)

/-- The level that a setup gives the logger, which is the first that it changes. -/
def SetupSource.level (source : SetupSource) (files : FileTree) : Except SetupError Level := do
  topLevel (settingsOf (← explicitSettings files source))

/-- Whether a setup comes so far as to change the logger. -/
def Call.begins (c : Call) : Bool :=
  (c.source.level c.files).toOption.isSome

/-- The handlers that are there when a setup that has begun fails. -/
inductive Made (settings : Mapping) (files : FileTree) : SetupError → List Handler → Prop
  | noConsole {e} (h : consoleHandler settings = .error e) : Made settings files e []
  | noPlan {console e} (hconsole : consoleHandler settings = .ok console)
    (hplan : filePlan settings = .error e) : Made settings files e console.toList
  | noFile {console plan e} (hconsole : consoleHandler settings = .ok console)
    (hplan : filePlan settings = .ok (some plan)) (hfile : (fileHandler plan files).2 = .error e) :
    Made settings files e console.toList
  /-- Only the format cannot be shown. -/
  | all {l} (hwanted : wanted files.here settings = .ok l)
    (hformat : (entry settings "format" .null).isShowable = false) : Made settings files .tooLong l.handlers

variable {source : SetupSource} {settings : Mapping} {files : FileTree} {old : Logger} {level : Level}
  {e : SetupError} {c : Call}

theorem level_of_wanted {here : List String} {l : Logger} (h : wanted here settings = .ok l) :
    topLevel settings = .ok l.level ∧ l.propagates = false := by
  obtain ⟨level, hlevel, h⟩ := bind_eq_ok.1 h
  obtain ⟨console, -, h⟩ := bind_eq_ok.1 h
  obtain ⟨file, -, h⟩ := bind_eq_ok.1 h
  cases h
  exact ⟨hlevel, rfl⟩

theorem setup_of_level_error (h : source.level files = .error e) (old : Logger) :
    setup source files old = ⟨old, files, .error e⟩ := by
  rcases bind_eq_error.1 h with h | ⟨explicit, hexplicit, hlevel⟩
  · rw [setup, h]
  · have hconfigure : configure (settingsOf explicit) files old = ⟨old, files, .error e⟩ := by
      rw [configure, hlevel]
    rw [setup_eq hexplicit, hconfigure]
    rfl

theorem made_of_configure (hlevel : topLevel settings = .ok level)
    (h : (configure settings files old).result = .error e) :
    ∃ handlers, Made settings files e handlers ∧
      (configure settings files old).logger = ⟨level, false, handlers⟩ := by
  unfold configure at h ⊢
  rw [hlevel] at h ⊢
  dsimp only at h ⊢
  split at h
  · next hconsole =>
    cases h
    exact ⟨_, .noConsole hconsole, rfl⟩
  · next console hconsole =>
    split at h
    · next hplan =>
      cases h
      exact ⟨_, .noPlan hconsole hplan, rfl⟩
    · cases h
    · next plan hplan =>
      split at h
      · next hfile =>
        cases h
        exact ⟨_, .noFile hconsole hplan (by rw [hfile]), rfl⟩
      · cases h

theorem failure_of_setup {explicit : Mapping} (hexplicit : explicitSettings files source = .ok explicit)
    (h : (setup source files old).result = .error e) :
    let made := configure (settingsOf explicit) files old
    (setup source files old).logger = made.logger ∧ (made.result = .error e ∨
      made.result = .ok () ∧ (entry (settingsOf explicit) "format" .null).isShowable = false ∧ e = .tooLong) := by
  intro made
  rw [setup_eq hexplicit] at h ⊢
  split at h
  · next hshown =>
    rw [if_pos hshown]
    cases h
    refine ⟨rfl, .inr ?_⟩
    cases hresult : made.result with
    | error e => simp [made, hresult, Except.toOption] at hshown
    | ok u => exact ⟨rfl, by simpa [made, hresult, Except.toOption] using hshown, rfl⟩
  · next hshown =>
    rw [if_neg hshown]
    exact ⟨rfl, .inl h⟩

theorem made_of_setup {explicit : Mapping} (hexplicit : explicitSettings files source = .ok explicit)
    (hlevel : topLevel (settingsOf explicit) = .ok level) (h : (setup source files old).result = .error e) :
    ∃ handlers, Made (settingsOf explicit) files e handlers ∧
      (setup source files old).logger = ⟨level, false, handlers⟩ := by
  obtain ⟨hsame, hresult | ⟨hresult, hformat, rfl⟩⟩ := failure_of_setup hexplicit h
  · rw [hsame]
    exact made_of_configure hlevel hresult
  · have hwanted := wanted_of_configure hresult
    obtain ⟨hlevel', hpropagates⟩ := level_of_wanted hwanted
    obtain rfl := Except.ok.inj (hlevel'.symm.trans hlevel)
    refine ⟨_, .all hwanted hformat, ?_⟩
    rw [hsame, ← hpropagates]

/-! Runs. -/

theorem outcome_of_not_begins (h : c.begins = false) (l : Logger) : (c.outcome l).logger = l := by
  cases hlevel : c.source.level c.files with
  | error e => rw [Call.outcome, setup_of_level_error hlevel]
  | ok level => simp [Call.begins, hlevel, Except.toOption] at h

/-- Setups that fail before they begin play no part in a run. -/
theorem after_filter_begins (l : Logger) (calls : List Call) :
    l.after (calls.filter Call.begins) = l.after calls := by
  induction calls generalizing l with
  | nil => rfl
  | cons c calls ih =>
    cases hbegins : c.begins with
    | true =>
      rw [List.filter_cons_of_pos hbegins]
      exact ih _
    | false =>
      rw [List.filter_cons_of_neg (by simp [hbegins]), ih]
      exact congrArg (Logger.after · calls) (outcome_of_not_begins hbegins l).symm

/-- After any others a setup that fails either leaves everything as it was, as if it had not been tried in the
run, or it had begun: then the logger has the new level, keeps its records to itself, and has those handlers
alone that were made before the failure. -/
theorem setup_fails (l : Logger) (before : List Call) (call : Call) (e : SetupError)
    (h : (call.outcome (l.after before)).result = .error e) :
    (call.begins = false → call.outcome (l.after before) = ⟨l.after before, call.files, .error e⟩ ∧
      ∀ later, l.after (before ++ call :: later) = l.after (before ++ later)) ∧
    (call.begins = true → ∃ explicit level handlers,
      explicitSettings call.files call.source = .ok explicit ∧ topLevel (settingsOf explicit) = .ok level ∧
      Made (settingsOf explicit) call.files e handlers ∧
      (call.outcome (l.after before)).logger = ⟨level, false, handlers⟩) := by
  constructor
  · intro hbegins
    constructor
    · cases hlevel : call.source.level call.files with
      | error e' =>
        have houtcome := setup_of_level_error hlevel (l.after before)
        obtain rfl : e' = e := Except.error.inj ((congrArg (·.result) houtcome).symm.trans h)
        exact houtcome
      | ok level => simp [Call.begins, hlevel, Except.toOption] at hbegins
    · intro later
      rw [← after_filter_begins, ← after_filter_begins l (before ++ later), List.filter_append,
        List.filter_cons_of_neg (by simp [hbegins]), List.filter_append]
  · intro hbegins
    cases hlevel : call.source.level call.files with
    | error e' => simp [Call.begins, hlevel, Except.toOption] at hbegins
    | ok level =>
      obtain ⟨explicit, hexplicit, htop⟩ := bind_eq_ok.1 hlevel
      obtain ⟨handlers, hmade, hlogger⟩ := made_of_setup hexplicit htop h
      exact ⟨explicit, level, handlers, hexplicit, htop, hmade, hlogger⟩

theorem setup_fails_of_files :
    let first : Call := ⟨{ overrides := .map [(.text "level", .text "DEBUG")] }, {}⟩
    let missing : Call := ⟨{ configPath := "c.yaml" }, {}⟩
    let broken : Call := ⟨{ overrides := .map [(.text "handlers", .map [(.text "file", .map
      [(.text "enabled", .bool true), (.text "path", .text "")])])] }, {}⟩
    let l := Logger.after {} [first]
    (missing.outcome l).result = .error (.notFound "c.yaml") ∧
      missing.outcome l = ⟨l, {}, .error (.notFound "c.yaml")⟩ ∧
      (broken.outcome l).result = .error (.unwritable .isDirectory) ∧
      (∃ explicit level handlers, explicitSettings {} broken.source = .ok explicit ∧
        topLevel (settingsOf explicit) = .ok level ∧
        Made (settingsOf explicit) {} (.unwritable .isDirectory) handlers ∧
        (broken.outcome l).logger = ⟨level, false, handlers⟩) ∧
      l.level = 10 ∧ (broken.outcome l).logger.level = 20 := by
  intro first missing broken l
  have hmissing : (missing.outcome l).result = .error (.notFound "c.yaml") := by decide +kernel
  have hbroken : (broken.outcome l).result = .error (.unwritable .isDirectory) := by decide +kernel
  have hunchanged := ((setup_fails {} [first] missing _ hmissing).1 (by decide +kernel)).1
  have hmade := (setup_fails {} [first] broken _ hbroken).2 (by decide +kernel)
  exact ⟨hmissing, hunchanged, hbroken, hmade, by decide +kernel, by decide +kernel⟩

/-- The console of the second setup is a number. When that is found the level is already that of errors, and the
console of the first setup is gone. -/
theorem console_lost_in_failure :
    let first : Call := ⟨{}, {}⟩
    let broken : Call := ⟨{ overrides := .map [(.text "level", .text "ERROR"),
      (.text "handlers", .map [(.text "console", .int 5)])] }, {}⟩
    let l := Logger.after {} [first]
    let logger := (broken.outcome l).logger
    (broken.outcome l).result = .error .wrongKind ∧ l.level = 20 ∧ l.handlers.length = 1 ∧
      logger.level = 40 ∧ logger.handlers.length = 0 := by
  decide +kernel

end FeedOutline.Log
