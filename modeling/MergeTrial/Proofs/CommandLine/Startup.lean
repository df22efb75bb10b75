import MergeTrial.CommandLine.Answer
import MergeTrial.Proofs.CommandLine.Steps
import MergeTrial.Proofs.FileTree.Saving

/-! What all commands have in common: they read the settings, open the log, and add to it what they
logged at their end. As long as nothing is logged, no file changes by that. -/

namespace MergeTrial.CommandLine
open MergeTrial.CommandLine.Action
variable {m : Type → Type} [Monad m] [LawfulMonad m] {s s' : Machine} {t : Transcript}
  {path dir : String}

/-- The settings that a command works with, if it gets that far. -/
def settingsAt (s : Machine) (path : String) : Outcome Settings :=
  match s.node? (Bytes.ofString path) with
  | none => .ok .default
  | some _ =>
    match s.readText (Bytes.ofString path) with
    | .error cause => .error (.file cause)
    | .ok text =>
      match Settings.read? text with
      | some settings => .ok settings
      | none => .error .malformedSettings

theorem ends_settingsOrDefault (path : String) (t : Transcript) (s : Machine) :
    Ends (settingsOrDefault path : Action m Settings) t s (settingsAt s path) t s := by
  refine (ends_node? _).bind ?_
  rw [settingsAt]
  cases s.node? (Bytes.ofString path) with
  | none => exact ends_pure _
  | some node =>
    refine (ends_readText _).bind ?_
    cases s.readText (Bytes.ofString path) with
    | error cause => exact ends_throw _
    | ok text =>
      cases hread : Settings.read? text with
      | none => simpa only [hread] using ends_throw _
      | some settings => simpa only [hread] using ends_pure _

def logPath (dir : String) : Path := Path.join (Bytes.ofString dir) (Bytes.ofString logFile)

def LogOpens (s : Machine) (dir : String) : Prop := ∃ made after,
  FileAction.Does (Machine.makeDirs (Bytes.ofString dir)) s (.ok ()) made ∧
    FileAction.Does (Machine.appendFile (logPath dir) []) made (.ok ()) after

inductive OpeningLog (s : Machine) (dir : String) : Outcome Path → Machine → Prop
  | noDirectory {cause made}
      (hmake : FileAction.Does (Machine.makeDirs (Bytes.ofString dir)) s (.error cause) made) :
      OpeningLog s dir (.error (.file cause)) made
  | noFile {cause made after}
      (hmake : FileAction.Does (Machine.makeDirs (Bytes.ofString dir)) s (.ok ()) made)
      (happend : FileAction.Does (Machine.appendFile (logPath dir) []) made (.error cause) after) :
      OpeningLog s dir (.error (.breakdown ("failed to open the log: " ++ cause.message))) after
  | opened {made after}
      (hmake : FileAction.Does (Machine.makeDirs (Bytes.ofString dir)) s (.ok ()) made)
      (happend : FileAction.Does (Machine.appendFile (logPath dir) []) made (.ok ()) after) :
      OpeningLog s dir (.ok (logPath dir)) after

theorem exists_openingLog (s : Machine) (dir : String) :
    ∃ result after, OpeningLog s dir result after := by
  obtain ⟨result, made, hmake⟩ : ∃ result after,
      FileAction.Does (Machine.makeDirs (Bytes.ofString dir)) s result after := ⟨_, _, rfl⟩
  cases result with
  | error cause => exact ⟨_, made, .noDirectory hmake⟩
  | ok =>
    obtain ⟨result, after, happend⟩ : ∃ result after,
        FileAction.Does (Machine.appendFile (logPath dir) []) made result after := ⟨_, _, rfl⟩
    cases result with
    | error cause => exact ⟨_, after, .noFile hmake happend⟩
    | ok => exact ⟨_, after, .opened hmake happend⟩

namespace OpeningLog
variable {result : Outcome Path} {after : Machine} (h : OpeningLog s dir result after)
include h

theorem ends (t : Transcript) : Ends (openLog dir : Action m Path) t s result t after := by
  cases h with
  | noDirectory hmake => exact (ends_onFiles_error hmake).bind_error
  | noFile hmake happend =>
    exact (ends_onFiles hmake).bind ((ends_files happend).bind (ends_throw _))
  | opened hmake happend =>
    exact (ends_onFiles hmake).bind ((ends_files happend).bind (ends_pure _))

theorem grows : s.Grows after := by
  cases h with
  | noDirectory hmake => exact Machine.grows_of_makeDirs hmake
  | noFile hmake happend | opened hmake happend =>
    exact (Machine.grows_of_makeDirs hmake).trans (Machine.grows_of_appendFile_nil happend)

theorem exists_ok_iff : (∃ file, result = .ok file) ↔ LogOpens s dir := by
  cases h with
  | noDirectory hmake =>
    refine ⟨nofun, ?_⟩
    rintro ⟨_, _, hmake', -⟩
    exact nomatch (hmake.unique hmake').1
  | noFile hmake happend =>
    refine ⟨nofun, ?_⟩
    rintro ⟨_, _, hmake', happend'⟩
    obtain ⟨-, rfl⟩ := hmake.unique hmake'
    exact nomatch (happend.unique happend').1
  | opened hmake happend => exact ⟨fun _ => ⟨_, _, hmake, happend⟩, fun _ => ⟨_, rfl⟩⟩

end OpeningLog

theorem exists_ends_openLogs (dir : Option String) (t : Transcript) (s : Machine) :
    ∃ result after, Ends (dir.mapM openLog : Action m (Option Path)) t s result t after ∧
      s.Grows after ∧ ((∃ file, result = .ok file) ↔ ∀ d ∈ dir, LogOpens s d) := by
  cases dir with
  | none => exact ⟨_, s, ends_pure none, .refl s, fun _ => nofun, fun _ => ⟨none, rfl⟩⟩
  | some dir =>
    obtain ⟨result, after, hopening⟩ := exists_openingLog s dir
    have hends := hopening.ends (m := m) t
    rw [Option.mapM_some, map_eq_pure_bind]
    cases result with
    | error fault =>
      refine ⟨_, after, hends.bind_error, hopening.grows, nofun, fun hall => ?_⟩
      exact nomatch hopening.exists_ok_iff.2 (hall dir rfl)
    | ok file =>
      refine ⟨_, after, hends.bind (ends_pure _), hopening.grows, fun _ d hd => ?_,
        fun _ => ⟨_, rfl⟩⟩
      exact Option.some.inj hd ▸ hopening.exists_ok_iff.1 ⟨file, rfl⟩

theorem exists_writesLog (filter : Log.Filter) (file : Option Path) (t : Transcript)
    (s : Machine) : ∃ after, (file = none → after = s) ∧
      (∀ path ∈ file, ∃ result, FileAction.Does (Machine.appendFile path
        (Bytes.ofString (Log.render filter t.events))) s result after) ∧
      ∀ {m : Type → Type} [Monad m] [LawfulMonad m], Ends (writeLog filter file : Action m Unit) t s
        (.ok ()) { t with log := Log.render filter t.events } after := by
  cases file with
  | none =>
    refine ⟨s, fun _ => rfl, nofun, ?_⟩
    exact ends_get.bind ((ends_modify _).bind (ends_pure ()))
  | some path =>
    obtain ⟨result, after, happend⟩ : ∃ result after, FileAction.Does (Machine.appendFile path
        (Bytes.ofString (Log.render filter t.events))) s result after := ⟨_, _, rfl⟩
    refine ⟨after, nofun, fun other hother => ?_, ?_⟩
    · exact Option.some.inj hother ▸ ⟨result, happend⟩
    · exact ends_get.bind ((ends_modify _).bind ((ends_files happend).bind (ends_pure ())))

theorem exists_ends_writeLog (h : t.events = []) (filter : Log.Filter) (file : Option Path)
    (s : Machine) : ∃ after, Ends (writeLog filter file : Action m Unit) t s (.ok ())
      { t with log := "" } after ∧ s.Grows after ∧ (file = none → after = s) := by
  have hnone : Log.render filter t.events = "" := by
    rw [h]
    rfl
  obtain ⟨after, hsame, happends, hends⟩ := exists_writesLog filter file t s
  rw [hnone] at happends hends
  refine ⟨after, hends, ?_, hsame⟩
  cases file with
  | none => exact hsame rfl ▸ .refl s
  | some path =>
    obtain ⟨result, happend⟩ := happends path rfl
    exact Machine.grows_of_appendFile_nil happend

section Conducting
variable {surroundings : Surroundings m} {request : Request} {settings : Settings}
  {file : Option Path} {opened : Machine} {fault : Fault}

theorem ends_conduct_of_settings (h : settingsAt s request.config = .error fault) :
    Ends (conduct surroundings request) t s (.error fault) t s :=
  Ends.bind_error (h ▸ ends_settingsOrDefault request.config t s)

variable (h : settingsAt s request.config = .ok settings)
include h

theorem ends_conduct_of_log
    (hlog : Ends ((request.logDir.or settings.log.dir).mapM openLog : Action m (Option Path)) t s
      (.error fault) t opened) : Ends (conduct surroundings request) t s (.error fault) t opened :=
  Ends.bind (h ▸ ends_settingsOrDefault request.config t s) hlog.bind_error

theorem exists_ends_conduct (surroundings : Surroundings m) {result : Outcome Unit}
    (hlog : Ends ((request.logDir.or settings.log.dir).mapM openLog : Action m (Option Path))
      .empty s (.ok file) .empty opened)
    (hperform : Ends (request.command.perform surroundings request.config settings) .empty opened
      result t s') (hevents : t.events = []) : ∃ after,
      Ends (conduct surroundings request) .empty s result { t with log := "" } after ∧
        s'.Grows after ∧ (file = none → after = s') := by
  obtain ⟨after, hwrite, hafter⟩ := exists_ends_writeLog (m := m) hevents
    (Log.Filter.choose surroundings.filter settings.log.filter) file s'
  refine ⟨after, ?_, hafter⟩
  have hread := h ▸ ends_settingsOrDefault (m := m) request.config .empty s
  refine hread.bind (hlog.bind (hperform.lift.bind (hwrite.bind ?_)))
  cases result with
  | ok => exact ends_pure ()
  | error fault => exact ends_throw fault

end Conducting

theorem answer_of_ends {surroundings : Surroundings m} {args : List String} {request : Request}
    {result : Outcome Unit} (hargs : Request.ofArgs? args = some request)
    (h : Ends (conduct surroundings request) .empty s result t s') :
    (answer surroundings args).run s = pure (.ofOutcome t result, s') := by
  rw [answer, hargs]
  have hrun : ((conduct surroundings request).run.run .empty).run s = pure ((result, t), s') := h
  simp only [StateT.run_bind, hrun, pure_bind]
  rfl

theorem codeOf_ne_zero (fault : Fault) : Answer.codeOf fault ≠ 0 := by
  cases fault <;> exact nofun

end MergeTrial.CommandLine
