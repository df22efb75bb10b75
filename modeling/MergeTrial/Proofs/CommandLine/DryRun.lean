import MergeTrial.Proofs.CommandLine.Init
import MergeTrial.Proofs.CommandLine.Running
import MergeTrial.Proofs.Corpus.Overwriting
import MergeTrial.Proofs.Settings.RoundTrip
import MergeTrial.Proofs.Text.Column

/-! Runs that only read: dry runs, and runs that are refused for their settings, their corpus or
their choice of strategies. They start no process, and leave everything but the log as it is. A dry
run lists the pairs that a real run records. -/

namespace MergeTrial.CommandLine
open MergeTrial.CommandLine.Action RunRequest
variable {m : Type → Type} [Monad m] [LawfulMonad m] {s s' opened after : Machine}
  {t : Transcript} {config : String} {logDir dirs : Option String} {request : RunRequest}
  {settings : Settings} {corpus : Corpus} {specs : List ToolSpec} {fault : Fault}

/-- A run of the strategies cannot be: there are no settings to be had, or no corpus, or strategies
are named that are not configured. -/
inductive Refused (s : Machine) (config : String) (logDir : Option String) (request : RunRequest) :
    Fault → Prop
  | settings {fault : Fault} (read : settingsAt s config = .error fault) :
      Refused s config logDir request fault
  | corpus {settings : Settings} {opened : Machine} {fault : Fault}
      (read : settingsAt s config = .ok settings)
      (log : OpensLog s opened (logDir.or settings.log.dir))
      (load : request.corpusAt opened = .error fault) : Refused s config logDir request fault
  | strategies {settings : Settings} {opened : Machine} {corpus : Corpus} {names : List String}
      (read : settingsAt s config = .ok settings)
      (log : OpensLog s opened (logDir.or settings.log.dir))
      (load : request.corpusAt opened = .ok corpus)
      (select : settings.select request.only = .error names) :
      Refused s config logDir request (.unknownStrategies names)

def logDirAt (s : Machine) (config : String) (logDir : Option String) : Option String :=
  (settingsAt s config).toOption.bind fun settings => logDir.or settings.log.dir

theorem logDirAt_of_settings (h : settingsAt s config = .ok settings) :
    logDirAt s config logDir = logDir.or settings.log.dir := by
  rw [logDirAt, h]
  rfl

/-- Nothing but the log has changed, and nothing at all if there is none. -/
structure LeavesAll (s : Machine) (dirs : Option String) (after : Machine) : Prop where
  spares : SparesAllButLog s after dirs
  same : dirs = none → after = s

def pairText (pair : String × String) : String :=
  "  " ++ Text.atLeft 40 pair.1 ++ " " ++ pair.2

def planText (corpus : Corpus) (specs : List ToolSpec) : String :=
  String.join (List.map (· ++ "\n")
    (("Would run " ++ toString (namesOf specs).length ++ " strategies over "
      ++ toString corpus.size ++ " scenarios:") :: (pairsOf corpus specs).map pairText))

theorem planLine_eq : planLine = pairText := by
  funext pair
  rw [planLine, pairText, Text.padEnd_eq]

theorem ends_sayLines {α : Type} (line : α → String) (xs : List α) (t : Transcript) (s : Machine) :
    Ends (xs.forM fun x => sayLine (line x) : Action m Unit) t s (.ok ())
      { t with output := t.output ++ Text.unlines (xs.map line) } s := by
  induction xs generalizing t with
  | nil =>
    rw [List.map_nil, Text.unlines, List.map_nil, String.join_nil, String.append_empty]
    exact ends_pure ()
  | cons x rest ih =>
    have hline := ih { t with output := t.output ++ (line x ++ "\n") }
    rw [String.append_assoc] at hline
    rw [List.map_cons, Text.unlines, List.map_cons, String.join_cons]
    exact (ends_say _).bind hline

theorem ends_printPlan {tools : List Tool} (h : tools.map (·.spec.name) = namesOf specs) :
    Ends (printPlan corpus tools : Action m Unit) t s (.ok ())
      { t with output := t.output ++ planText corpus specs } s := by
  unfold printPlan planText
  rw [h, List.map_cons, String.join_cons, ← String.append_assoc, planLine_eq]
  exact (ends_say _).bind (ends_sayLines pairText _ _ s)

namespace RunRequest
variable {surroundings : Surroundings m}

theorem ends_perform_corpus_error (h : request.corpusAt s = .error fault) :
    Ends (request.perform surroundings settings) t s (.error fault) t s :=
  (ends_loadCorpus_error h).bind_error

theorem ends_perform_strategies_error {names : List String}
    (hload : request.corpusAt s = .ok corpus)
    (hselect : settings.select request.only = .error names) :
    Ends (request.perform surroundings settings) t s (.error (.unknownStrategies names))
      { t with events := t.events ++ [Events.loaded corpus.size] } s := by
  let adjusted : Settings := { settings with pass := request.adjust settings.pass }
  have hselect' : adjusted.select request.only = .error names := hselect
  exact (ends_loadCorpus hload).bind (ends_selectTools_error hselect').bind_error

theorem ends_perform_dry (hdry : request.dryRun = true) (hload : request.corpusAt s = .ok corpus)
    (hselect : settings.select request.only = .ok specs) :
    Ends (request.perform surroundings settings) t s (.ok ())
      { t with
        output := t.output ++ planText corpus specs
        events := t.events ++ [Events.loaded corpus.size]
          ++ Events.repeated (Tool.ofSettings (request.adjust settings.pass) specs) } s := by
  let adjusted : Settings := { settings with pass := request.adjust settings.pass }
  have hselect' : adjusted.select request.only = .ok specs := hselect
  refine (ends_loadCorpus hload).bind ((ends_selectTools hselect').bind ?_)
  rw [hdry]
  exact ends_printPlan (map_name_distinct _ specs)

end RunRequest

/-- The call comes to this answer whatever is around it, as far as that does not choose what is
logged: it starts no process. It leaves all but the log as it is. -/
structure OnlyReads (s : Machine) (args : List String) (filter : Option String)
    (dirs : Option String) (a : Answer) (after : Machine) : Prop where
  leaves : LeavesAll s dirs after
  run : ∀ {m : Type → Type} [Monad m] [LawfulMonad m] (surroundings : Surroundings m),
    surroundings.filter = filter → (answer surroundings args).run s = pure (a, after)

theorem OnlyReads.unique {args : List String} {filter : Option String} {a a' : Answer}
    {after' : Machine} (h : OnlyReads s args filter dirs a after)
    (h' : OnlyReads s args filter dirs a' after') : a = a' ∧ after = after' := by
  let surroundings : Surroundings Id := { quietSurroundings with filter := filter }
  have hsame : (a, after) = (a', after') :=
    (h.run surroundings rfl).symm.trans (h'.run surroundings rfl)
  exact Prod.mk.inj hsame

section Calling
variable {args : List String}
  (hargs : Request.ofArgs? args = some ⟨config, logDir, .run request⟩) (hcwd : s.HasCwd)
include hargs hcwd

theorem exists_onlyReads (hread : settingsAt s config = .ok settings)
    (hlog : OpensLog s opened (logDir.or settings.log.dir)) (filter : Option String)
    {result : Outcome Unit} (hperform : ∀ {m : Type → Type} [Monad m] [LawfulMonad m]
      (surroundings : Surroundings m),
        Ends (request.perform surroundings settings) .empty opened result t opened) :
    ∃ log after, OnlyReads s args filter (logDirAt s config logDir)
      (.ofOutcome { t with log := log } result) after := by
  obtain ⟨after, hsame, hspares, hwrite⟩ := exists_writeLog (logDir.or settings.log.dir)
    (Log.Filter.choose filter settings.log.filter) t opened
  refine ⟨Log.render (Log.Filter.choose filter settings.log.filter) t.events, after,
    ⟨?_, fun hnone => ?_⟩, fun surroundings hfilter => answer_of_ends hargs ?_⟩
  · rw [logDirAt_of_settings hread]
    exact hspares s (sparesAllButLog_of_opensLog hcwd hlog)
  · rw [logDirAt_of_settings hread] at hnone
    rw [hnone] at hlog
    exact (hsame hnone).trans hlog
  · subst hfilter
    refine Ends.bind (hread ▸ ends_settingsOrDefault config .empty s) ?_
    refine (hlog.ends .empty).bind ((hperform surroundings).lift.bind (hwrite.bind ?_))
    cases result with
    | ok => exact ends_pure ()
    | error fault => exact ends_throw fault

theorem Refused.exists_onlyReads (h : Refused s config logDir request fault)
    (filter : Option String) : ∃ log after, OnlyReads s args filter (logDirAt s config logDir)
      ⟨Answer.codeOf fault, "", log, some fault⟩ after := by
  cases h with
  | settings read =>
    refine ⟨"", s, ⟨.refl s _, fun _ => rfl⟩, fun surroundings _ => ?_⟩
    exact answer_of_ends hargs (ends_conduct_of_settings read)
  | corpus read log load =>
    exact CommandLine.exists_onlyReads hargs hcwd read log filter fun _ =>
      ends_perform_corpus_error load
  | strategies read log load select =>
    exact CommandLine.exists_onlyReads hargs hcwd read log filter fun _ =>
      ends_perform_strategies_error load select

theorem Reads.exists_onlyReads
    (h : Reads s config logDir request settings opened corpus specs)
    (hdry : request.dryRun = true) (filter : Option String) :
    ∃ log after, OnlyReads s args filter (logDirAt s config logDir)
      ⟨0, planText corpus specs, log, none⟩ after := by
  have hreads := CommandLine.exists_onlyReads hargs hcwd h.read h.log filter
    fun _ => ends_perform_dry hdry h.load h.select
  rwa [show Transcript.empty.output ++ planText corpus specs = planText corpus specs from
    String.empty_append] at hreads

end Calling

end MergeTrial.CommandLine
