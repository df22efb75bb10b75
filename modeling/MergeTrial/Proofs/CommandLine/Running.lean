import MergeTrial.Proofs.CommandLine.Logging
import MergeTrial.Proofs.Pass.Effectful

/-! What a run of the strategies records. Tools may do anything to the machine and to what is around
it; still, once tools are looked for, the run reports an evaluation of all pairs, in the order of
the plan, or it fails by a breakdown or at a file. -/

namespace MergeTrial

namespace Evaluation

end Evaluation

namespace Pass.Trial
variable {t : Trial} {s : State}

end Pass.Trial

namespace Tool
variable {m : Type → Type} [Monad m] [LawfulMonad m]

end Tool

namespace CommandLine
variable {m : Type → Type} [Monad m] [LawfulMonad m]

namespace Action
variable {α β : Type} {first : Action m α} {next : α → Action m β} {t t' : Transcript}
  {s s' : Machine} {value : α} {result : Outcome α}

/-- From there, the action comes to such results only, and prints and logs only so. -/
def Satisfies (action : Action m α) (t : Transcript) (s : Machine)
    (post : Outcome α → Transcript → Prop) : Prop :=
  SatisfiesM (fun done => post done.1.1 done.1.2) ((action.run.run t).run s)

theorem Satisfies.bind {mid : Outcome α → Transcript → Prop} {post : Outcome β → Transcript → Prop}
    (h : Satisfies first t s mid)
    (hnext : ∀ value t' s', mid (.ok value) t' → Satisfies (next value) t' s' post)
    (herror : ∀ fault t', mid (.error fault) t' → post (.error fault) t') :
    Satisfies (first >>= next) t s post := by
  unfold Satisfies
  rw [ExceptT.run_bind, StateT.run_bind, StateT.run_bind]
  refine SatisfiesM.bind h ?_
  rintro ⟨⟨result, t'⟩, s'⟩ hmid
  cases result with
  | ok value => exact hnext value t' s' hmid
  | error fault => exact .pure (herror fault t' hmid)

theorem Satisfies.lift {post : Outcome α → Transcript → Prop} (h : Satisfies first t s post) :
    Satisfies (ExceptT.lift first.run : Action m (Outcome α)) t s fun kept t' =>
      ∃ result, kept = .ok result ∧ post result t' := by
  unfold Satisfies at *
  rw [ExceptT.run_lift, StateT.run_map, StateT.run_map]
  exact h.map fun hpost => ⟨_, rfl, hpost⟩

end Action

namespace Action
variable {α β : Type} {p : α → Prop} {q : β → Prop}

def Works (action : Action m α) (p : α → Prop) : Prop :=
  ∀ t s, Satisfies action t s fun result t' => t'.output = t.output ∧
    match result with
    | .ok value => p value
    | .error fault => ComesLate fault

theorem Works.bind {first : Action m α} {next : α → Action m β} (h : Works first p)
    (hnext : ∀ value, p value → Works (next value) q) : Works (first >>= next) q := by
  intro t s
  refine (h t s).bind ?_ fun _ _ hmid => hmid
  rintro value t' s' ⟨hsame, hvalue⟩
  have hdone := hnext value hvalue t' s'
  rwa [hsame] at hdone

end Action

open MergeTrial.CommandLine.Action

namespace RunRequest
variable {surroundings : Surroundings m} {settings : PassSettings} {tools : List Tool}
  {corpus : Corpus}

end RunRequest

namespace RunRequest
variable {request : RunRequest} {settings : Settings} {specs : List ToolSpec} {corpus : Corpus}
  {t : Transcript} {s : Machine} {fault : Fault}

def corpusAt (request : RunRequest) (s : Machine) : Outcome Corpus :=
  Corpus.load (Bytes.ofString request.corpus) (s.node? (Bytes.ofString request.corpus))

theorem ends_loadCorpus_error (h : request.corpusAt s = .error fault) :
    Ends (request.loadCorpus : Action m Corpus) t s (.error fault) t s := by
  refine (ends_node? _).bind ?_
  rw [show Corpus.load _ _ = .error fault from h]
  exact (ends_throw _).bind_error

theorem ends_loadCorpus (h : request.corpusAt s = .ok corpus) :
    Ends (request.loadCorpus : Action m Corpus) t s (.ok corpus)
      { t with events := t.events ++ [Events.loaded corpus.size] } s := by
  refine (ends_node? _).bind ?_
  rw [show Corpus.load _ _ = .ok corpus from h]
  exact (ends_pure corpus).bind ((ends_modify _).bind (ends_pure corpus))

omit [LawfulMonad m] in
theorem ends_selectTools_error {names : List String}
    (h : settings.select request.only = .error names) :
    Ends (request.selectTools settings : Action m (List Tool)) t s
      (.error (.unknownStrategies names)) t s := by
  unfold selectTools
  rw [h]
  exact ends_throw _

theorem ends_selectTools (h : settings.select request.only = .ok specs) :
    Ends (request.selectTools settings : Action m (List Tool)) t s
      (.ok (Tool.distinct (Tool.ofSettings settings.pass specs)))
      { t with events := t.events ++ Events.repeated (Tool.ofSettings settings.pass specs) } s := by
  unfold selectTools
  rw [h]
  exact (ends_modify _).bind (ends_pure _)

def namesOf (specs : List ToolSpec) : List String := Pass.distinct id (specs.map (·.name))

theorem map_name_distinct (settings : PassSettings) (specs : List ToolSpec) :
    (Tool.distinct (Tool.ofSettings settings specs)).map (·.spec.name) = namesOf specs := by
  rw [Tool.distinct, Pass.distinct, Pass.map_distinctAfter, Tool.ofSettings, List.map_map]
  rfl

def pairsOf (corpus : Corpus) (specs : List ToolSpec) : List (String × String) :=
  Pass.plan corpus.names (namesOf specs)

end RunRequest

section Conducting
open RunRequest
variable {surroundings : Surroundings m} {s opened : Machine} {config : String}
  {logDir : Option String} {request : RunRequest} {settings : Settings} {specs : List ToolSpec}
  {corpus : Corpus}

/-- A run of the strategies reads its settings, opens its log, and reads the corpus; and the
strategies that it is to run are configured. -/
structure Reads (s : Machine) (config : String) (logDir : Option String) (request : RunRequest)
    (settings : Settings) (opened : Machine) (corpus : Corpus) (specs : List ToolSpec) : Prop where
  read : settingsAt s config = .ok settings
  log : OpensLog s opened (logDir.or settings.log.dir)
  load : request.corpusAt opened = .ok corpus
  select : settings.select request.only = .ok specs

end Conducting

end CommandLine
end MergeTrial
