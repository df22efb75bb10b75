import MergeTrial.Proofs.CommandLine.Startup
import MergeTrial.Proofs.Settings.RoundTrip

/-! The command that writes the default settings. Like every command it first reads the settings
that are there and opens the log that they ask for; so it replaces them only if it can do that. -/

namespace MergeTrial.CommandLine
open MergeTrial.CommandLine.Action
variable {m : Type → Type} [Monad m] [LawfulMonad m] {surroundings : Surroundings m}
  {s s' : Machine} {t : Transcript} {config : String} {logDir : Option String} {force : Bool}
  {location : Location} {content : Bytes} {mode : Nat}

def defaultText : Bytes := Bytes.ofString Settings.default.write

def Answer.initialized (config : String) : Answer :=
  ⟨0, "Default settings written to " ++ config ++ "\n", "", none⟩

section Reading
variable (h : s.resolve (Bytes.ofString config) = .ok ⟨location, some (.file content mode)⟩)
include h

theorem settingsAt_eq_ok_iff {settings : Settings} : settingsAt s config = .ok settings ↔
    Right.read.isIn mode = true ∧ ∃ text, content = Bytes.ofString text ∧
      Settings.read? text = some settings := by
  have htext := Machine.readText_of_resolve h
  rw [settingsAt, Machine.node?_of_resolve h, htext]
  simp only
  cases hread : (Node.file content mode).text with
  | error cause =>
    have hnot : ¬(Right.read.isIn mode = true ∧ ∃ text, content = Bytes.ofString text ∧
        Settings.read? text = some settings) := by
      rintro ⟨hmode, text, hcontent, -⟩
      rw [Machine.text_file_eq_ok_iff.2 ⟨hmode, hcontent⟩] at hread
      cases hread
    simp [hnot]
  | ok text =>
    obtain ⟨hmode, rfl⟩ := Machine.text_file_eq_ok_iff.1 hread
    have hsame : ∀ {other}, Bytes.ofString text = Bytes.ofString other ∧ Settings.read? other =
        some settings ↔ other = text ∧ Settings.read? text = some settings := by
      intro other
      rw [Bytes.ofString_inj]
      rw [eq_comm]
      exact and_congr_right fun heq => by rw [heq]
    simp only [hmode, true_and, hsame, exists_eq_left]
    cases Settings.read? text <;> simp

end Reading

section Writing

theorem ends_writeDefaults_exists (h : (s.node? (Bytes.ofString config)).isSome = true) :
    Ends (writeDefaults config false : Action m Unit) t s (.error (.settingsExist config)) t s := by
  refine (ends_node? _).bind ?_
  rw [h]
  exact (ends_throw _).bind_error

variable (hfree : ((s.node? (Bytes.ofString config)).isSome && !force) = false)
include hfree

theorem ends_writeDefaults (h : FileAction.Does
      (Machine.saveFile (Bytes.ofString config) Settings.default.write) s (.ok ()) s') :
    Ends (writeDefaults config force : Action m Unit) t s (.ok ())
      { t with output := t.output ++ ("Default settings written to " ++ config ++ "\n") } s' := by
  refine (ends_node? _).bind ?_
  rw [hfree]
  exact (ends_onFiles h).bind (ends_say _)

theorem ends_writeDefaults_error {cause : FileFault} (h : FileAction.Does
      (Machine.saveFile (Bytes.ofString config) Settings.default.write) s (.error cause) s') :
    Ends (writeDefaults config force : Action m Unit) t s (.error (.file cause)) t s' := by
  refine (ends_node? _).bind ?_
  rw [hfree]
  exact (ends_onFiles_error h).bind_error

end Writing

/-- With what there is for settings, and with the log that they or the command line ask for, the
program gets as far as its command. -/
def Starts (s : Machine) (config : String) (logDir : Option String) : Prop :=
  ∃ settings, settingsAt s config = .ok settings ∧
    ∀ dir ∈ logDir.or settings.log.dir, LogOpens s dir

theorem starts_iff
    (h : s.resolve (Bytes.ofString config) = .ok ⟨location, some (.file content mode)⟩) :
    Starts s config logDir ↔ Right.read.isIn mode = true ∧
      ∃ text settings, content = Bytes.ofString text ∧ Settings.read? text = some settings ∧
        ∀ dir ∈ logDir.or settings.log.dir, LogOpens s dir := by
  simp only [Starts, settingsAt_eq_ok_iff h]
  constructor
  · rintro ⟨settings, ⟨hread, text, hcontent, hsettings⟩, hlog⟩
    exact ⟨hread, text, settings, hcontent, hsettings, hlog⟩
  · rintro ⟨hread, text, settings, hcontent, hsettings, hlog⟩
    exact ⟨settings, ⟨hread, text, hcontent, hsettings⟩, hlog⟩

section Existing
variable (h : s.resolve (Bytes.ofString config) = .ok ⟨location, some (.file content mode)⟩)
  (hcwd : s.HasCwd)
include h hcwd

theorem exists_ends_writeDefaults (force : Bool) (t : Transcript) : ∃ result t' after,
    Ends (writeDefaults config force : Action m Unit) t s result t' after ∧ t'.events = t.events ∧
      ((force = true ∧ Right.write.isIn mode = true ∧ result = .ok () ∧
          t'.output = t.output ++ ("Default settings written to " ++ config ++ "\n") ∧
          after.resolve (Bytes.ofString config) =
            .ok ⟨location, some (.file defaultText mode)⟩) ∨
        ¬(force = true ∧ Right.write.isIn mode = true) ∧ (∃ fault, result = .error fault) ∧
          after = s) := by
  have hsome : (s.node? (Bytes.ofString config)).isSome = true := by
    rw [Machine.node?_of_resolve h]
    rfl
  cases force with
  | false =>
    refine ⟨_, t, s, ends_writeDefaults_exists hsome, rfl, Or.inr ⟨nofun, ⟨_, rfl⟩, rfl⟩⟩
  | true =>
    have hfree : ((s.node? (Bytes.ofString config)).isSome && !true) = false := Bool.and_false _
    cases hwrite : Right.write.isIn mode with
    | false =>
      have hdenied := Machine.does_saveFile_denied h hwrite hcwd Settings.default.write
      exact ⟨_, t, s, ends_writeDefaults_error hfree hdenied, rfl, Or.inr ⟨nofun, ⟨_, rfl⟩, rfl⟩⟩
    | true =>
      have hopens : s.Opens (Bytes.ofString config) (.file location content mode) :=
        .existing h hwrite
      exact ⟨_, _, _, ends_writeDefaults hfree (hopens.does_saveFile hcwd _), rfl,
        Or.inl ⟨rfl, rfl, rfl, rfl, hopens.resolve_put⟩⟩

theorem exists_ends_init (surroundings : Surroundings m) (logDir : Option String) (force : Bool) :
    ∃ result t after,
    Ends (conduct surroundings ⟨config, logDir, .init force⟩ : Action m Unit) .empty s result t
      after ∧
      ((force = true ∧ Right.write.isIn mode = true ∧ Starts s config logDir ∧ result = .ok () ∧
          t.output = "Default settings written to " ++ config ++ "\n" ∧ t.log = "" ∧
          after.resolve (Bytes.ofString config) = .ok ⟨location, some (.file defaultText mode)⟩) ∨
        ¬(force = true ∧ Right.write.isIn mode = true ∧ Starts s config logDir) ∧
          (∃ fault, result = .error fault) ∧ s.Grows after) := by
  cases hsettings : settingsAt s config with
  | error fault =>
    refine ⟨_, _, s, ends_conduct_of_settings hsettings, Or.inr ⟨?_, ⟨fault, rfl⟩, .refl s⟩⟩
    rintro ⟨-, -, settings, hsome, -⟩
    exact nomatch hsettings.symm.trans hsome
  | ok settings =>
    obtain ⟨opening, opened, hlog, hgrows, hopens⟩ :=
      exists_ends_openLogs (m := m) (logDir.or settings.log.dir) .empty s
    cases opening with
    | error fault =>
      refine ⟨_, _, opened, ends_conduct_of_log hsettings hlog, Or.inr ⟨?_, ⟨fault, rfl⟩, hgrows⟩⟩
      rintro ⟨-, -, _, hsome, hall⟩
      obtain rfl := Except.ok.inj (hsettings.symm.trans hsome)
      exact nomatch hopens.2 hall
    | ok file =>
      have hstarts : Starts s config logDir := ⟨settings, hsettings, hopens.1 ⟨file, rfl⟩⟩
      obtain ⟨result, t', written, hends, hevents, hcases⟩ := exists_ends_writeDefaults (m := m)
        (Machine.resolve_file_of_grows h hgrows) (hcwd.of_ways hgrows.keeps.ways hgrows.cwd) force
        .empty
      let request : Request := ⟨config, logDir, .init force⟩
      have hread : settingsAt s request.config = .ok settings := hsettings
      obtain ⟨after, hconduct, hlast, -⟩ :=
        exists_ends_conduct hread surroundings hlog hends hevents
      refine ⟨_, _, after, hconduct, ?_⟩
      rcases hcases with ⟨hforce, hwrite, hresult, houtput, hfile⟩ | ⟨hnot, hfails, rfl⟩
      · exact Or.inl ⟨hforce, hwrite, hstarts, hresult, houtput, rfl,
          Machine.resolve_file_of_grows hfile hlast⟩
      · exact Or.inr ⟨fun hall => hnot ⟨hall.1, hall.2.1⟩, hfails, hgrows.trans hlast⟩

end Existing

theorem ends_init_new (surroundings : Surroundings m)
    (h : s.resolve (Bytes.ofString config) = .ok ⟨location, none⟩)
    (hchange : s.mayChange location = true) (hcwd : s.HasCwd) :
    Ends (conduct surroundings ⟨config, none, .init force⟩ : Action m Unit) .empty s (.ok ())
      ⟨"Default settings written to " ++ config ++ "\n", [], ""⟩
      (s.put location (some (.file defaultText (s.granted 0o666)))) := by
  let request : Request := ⟨config, none, .init force⟩
  have hnode := Machine.node?_of_missing h
  have hread : settingsAt s request.config = .ok .default := by
    rw [settingsAt, hnode]
  have hlog : Ends ((request.logDir.or Settings.default.log.dir).mapM openLog :
      Action m (Option Path)) .empty s (.ok none) .empty s := ends_pure none
  have hopens : s.Opens (Bytes.ofString config) (.file location [] (s.granted 0o666)) :=
    .new h hchange
  have hfree : ((s.node? (Bytes.ofString config)).isSome && !force) = false := by
    rw [hnode]
    rfl
  obtain ⟨after, hconduct, -, hsame⟩ := exists_ends_conduct hread surroundings hlog
    (ends_writeDefaults hfree (hopens.does_saveFile hcwd _)) rfl
  exact hsame rfl ▸ hconduct

/-- What the command comes to where no file is, or a file. A file is overwritten only if it may be
read and written, holds settings, and the log that they ask for can be opened. -/
theorem init_outcome (surroundings : Surroundings m) {args : List String}
    (hargs : Request.ofArgs? args = some ⟨config, logDir, .init force⟩) (hcwd : s.HasCwd) :
    Settings.read? Settings.default.write = some .default ∧
    (logDir = none → ∀ location, s.resolve (Bytes.ofString config) = .ok ⟨location, none⟩ →
      s.mayChange location = true → (answer surroundings args).run s =
        pure (.initialized config,
          s.put location (some (.file defaultText (s.granted 0o666))))) ∧
    ∀ location content mode,
      s.resolve (Bytes.ofString config) = .ok ⟨location, some (.file content mode)⟩ →
      ∃ a after, (answer surroundings args).run s = pure (a, after) ∧
        (a.code = 0 ↔ force = true ∧ Right.write.isIn mode = true ∧ Right.read.isIn mode = true ∧
          ∃ text settings, content = Bytes.ofString text ∧ Settings.read? text = some settings ∧
            ∀ dir ∈ logDir.or settings.log.dir, LogOpens s dir) ∧
        (a.code = 0 → a = .initialized config ∧ after.resolve (Bytes.ofString config) =
          .ok ⟨location, some (.file defaultText mode)⟩) ∧
        (a.code ≠ 0 → s.Grows after ∧ after.resolve (Bytes.ofString config) =
          .ok ⟨location, some (.file content mode)⟩) := by
  refine ⟨Settings.read?_write Settings.inRange_default, ?_, ?_⟩
  · rintro rfl location h hchange
    exact answer_of_ends hargs (ends_init_new surroundings h hchange hcwd)
  · intro location content mode h
    obtain ⟨result, t, after, hends, hcases⟩ :=
      exists_ends_init h hcwd surroundings logDir force
    refine ⟨_, after, answer_of_ends hargs hends, ?_⟩
    rw [← starts_iff h]
    rcases hcases with ⟨hforce, hwrite, hstarts, rfl, houtput, hlog, hfile⟩ | ⟨hnot, hfails, hgrows⟩
    · have hanswer : Answer.ofOutcome t (.ok ()) = .initialized config := by
        rw [Answer.ofOutcome, houtput, hlog]
        rfl
      rw [hanswer]
      exact ⟨iff_of_true rfl ⟨hforce, hwrite, hstarts⟩, fun _ => ⟨rfl, hfile⟩,
        fun hne => absurd rfl hne⟩
    · obtain ⟨fault, rfl⟩ := hfails
      have hcode : (Answer.ofOutcome t (.error fault)).code ≠ 0 := codeOf_ne_zero fault
      exact ⟨iff_of_false hcode hnot, fun hzero => absurd hzero hcode,
        fun _ => ⟨hgrows, Machine.resolve_file_of_grows h hgrows⟩⟩

def machineWith (settings : String) : Machine where
  root := .dir 0o755 [(Bytes.ofString "mergebench.json", .file (Bytes.ofString settings) 0o644)]
  cwd := []
  searchPath := none
  mask := 0o022
  strays := []

def quietSurroundings : Surroundings Id := ⟨fun _ => pure (.exited 0 [] []), none, ⟨0, 0⟩, ""⟩

theorem emptySettings_overwritten : ∃ a after,
    (answer quietSurroundings ["init", "--force"]).run (machineWith "\x7b\x7d") =
      pure (a, after) ∧ a = .initialized "mergebench.json" ∧
      after.resolve (Bytes.ofString "mergebench.json") =
        .ok ⟨[Bytes.ofString "mergebench.json"], some (.file defaultText 0o644)⟩ := by
  have hargs : Request.ofArgs? ["init", "--force"] =
      some ⟨"mergebench.json", none, .init true⟩ := by decide +kernel
  have hread : Settings.read? "\x7b\x7d" = some .default := by decide +kernel
  have hcwd : (machineWith "\x7b\x7d").HasCwd := ⟨_, _, rfl⟩
  obtain ⟨-, -, hexisting⟩ := init_outcome quietSurroundings hargs hcwd
  obtain ⟨a, after, hrun, hcode, hdone, -⟩ := hexisting _ _ _ rfl
  exact ⟨a, after, hrun, hdone (hcode.2 ⟨rfl, rfl, rfl, _, _, rfl, hread, nofun⟩)⟩

theorem brokenSettings_not_overwritten :
    ¬∀ s location content mode, Machine.HasCwd s →
      s.resolve (Bytes.ofString "mergebench.json") =
        .ok ⟨location, some (.file content mode)⟩ →
      Right.read.isIn mode = true → Right.write.isIn mode = true → s.mayChange location = true →
      ((answer quietSurroundings ["init", "--force"]).run s).1.code = 0 := by
  intro h
  have hargs : Request.ofArgs? ["init", "--force"] =
      some ⟨"mergebench.json", none, .init true⟩ := by decide +kernel
  have hsettings : settingsAt (machineWith "\x7b") "mergebench.json" =
      .error .malformedSettings := by decide +kernel
  have hends : Ends (conduct quietSurroundings ⟨"mergebench.json", none, .init true⟩) .empty
      (machineWith "\x7b") (.error .malformedSettings) .empty (machineWith "\x7b") :=
    ends_conduct_of_settings hsettings
  have hzero := h (machineWith "\x7b") _ _ _ ⟨_, _, rfl⟩ rfl rfl rfl rfl
  rw [answer_of_ends hargs hends] at hzero
  exact nomatch hzero

end MergeTrial.CommandLine
