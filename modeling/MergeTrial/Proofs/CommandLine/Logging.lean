import MergeTrial.Proofs.CommandLine.Startup
import MergeTrial.Proofs.FileTree.Sparing

/-! Opening the log and adding to it, as one thing that is done to the machine whatever the monad
is. Nothing is touched but the log file and the directories that are made for it. -/

namespace MergeTrial.CommandLine
open MergeTrial.CommandLine.Action
variable {s made between after opened : Machine} {t : Transcript} {dir : String}
  {dirs : Option String} {location : Location} {fault : Fault}

inductive ComesLate : Fault → Prop
  | breakdown (text : String) : ComesLate (.breakdown text)
  | file (cause : FileFault) : ComesLate (.file cause)

inductive OfLog (s after : Machine) (dir : String) (location : Location) : Prop
  | file (h : after.IsFileAt (logPath dir) location)
  | dir (h : Machine.MadeOnWay s after (s.startOf (Bytes.ofString dir))
      (Path.segments (Bytes.ofString dir)) location)

theorem OfLog.later (h : OfLog s between dir location)
    (hways : between.root.KeepsWays after.root) (hcwd : after.cwd = between.cwd) :
    OfLog s after dir location := by
  cases h with
  | file h => exact .file (h.later hways hcwd)
  | dir h => exact .dir (h.later hways)

def SparesAllButLog (s after : Machine) (dirs : Option String) : Prop :=
  s.Spares after fun location => ∃ dir ∈ dirs, OfLog s after dir location

def OpensLog (s opened : Machine) : Option String → Prop
  | none => opened = s
  | some dir => ∃ made, FileAction.Does (Machine.makeDirs (Bytes.ofString dir)) s (.ok ()) made ∧
      FileAction.Does (Machine.appendFile (logPath dir) []) made (.ok ()) opened

theorem sparesAllButLog_of_makeDirs {result : Except FileFault Unit} (hcwd : s.HasCwd)
    (h : FileAction.Does (Machine.makeDirs (Bytes.ofString dir)) s result made) :
    SparesAllButLog s made (some dir) :=
  (Machine.spares_of_makeDirs hcwd h).mono fun _ hmade => ⟨dir, rfl, .dir hmade⟩

theorem SparesAllButLog.append {more : Bytes} {result : Except FileFault Unit}
    (h : SparesAllButLog s between (some dir))
    (happend : FileAction.Does (Machine.appendFile (logPath dir) more) between result after) :
    SparesAllButLog s after (some dir) := by
  have hfile := Machine.spares_of_rewrite happend
  refine Machine.Spares.trans (h.mono ?_) (hfile.mono fun _ hfile => ⟨dir, rfl, .file hfile⟩)
  rintro location ⟨d, hd, hlog⟩
  exact ⟨d, hd, hlog.later hfile.ways hfile.cwd⟩

theorem OpeningLog.spares {result : Outcome Path} (h : OpeningLog s dir result after)
    (hcwd : s.HasCwd) : SparesAllButLog s after (some dir) := by
  cases h with
  | noDirectory hmake => exact sparesAllButLog_of_makeDirs hcwd hmake
  | noFile hmake happend | opened hmake happend =>
    exact (sparesAllButLog_of_makeDirs hcwd hmake).append happend

theorem OpensLog.opening (h : OpensLog s opened (some dir)) :
    OpeningLog s dir (.ok (logPath dir)) opened := by
  obtain ⟨made, hmake, happend⟩ := h
  exact .opened hmake happend

theorem sparesAllButLog_of_opensLog (hcwd : s.HasCwd) (h : OpensLog s opened dirs) :
    SparesAllButLog s opened dirs := by
  cases dirs with
  | none => exact h ▸ Machine.Spares.refl s _
  | some dir => exact h.opening.spares hcwd

theorem OpensLog.ends {m : Type → Type} [Monad m] [LawfulMonad m] (h : OpensLog s opened dirs)
    (t : Transcript) : Ends (dirs.mapM openLog : Action m (Option Path)) t s
      (.ok (dirs.map logPath)) t opened := by
  cases dirs with
  | none => exact h ▸ ends_pure none
  | some dir =>
    rw [Option.mapM_some]
    exact (h.opening.ends t).bind (ends_pure _)

theorem exists_writeLog (dirs : Option String) (filter : Log.Filter) (t : Transcript)
    (opened : Machine) : ∃ after, (dirs = none → after = opened) ∧
      (∀ s, SparesAllButLog s opened dirs → SparesAllButLog s after dirs) ∧
      ∀ {m : Type → Type} [Monad m] [LawfulMonad m],
        Ends (writeLog filter (dirs.map logPath) : Action m Unit) t opened (.ok ())
          { t with log := Log.render filter t.events } after := by
  obtain ⟨after, hsame, happends, hends⟩ := exists_writesLog filter (dirs.map logPath) t opened
  refine ⟨after, fun hnone => hsame (hnone ▸ rfl), fun s hspares => ?_, hends⟩
  cases dirs with
  | none => exact hsame rfl ▸ hspares
  | some dir =>
    obtain ⟨result, happend⟩ := happends (logPath dir) rfl
    exact hspares.append happend

end MergeTrial.CommandLine
