import MergeTrial.Proofs.Tool.Launching
import MergeTrial.Proofs.Tool.Scratch

/-! Calls of a tool, step by step: up to its end, whichever that is, a call owns the scratch
directory that it has made, and then there is none. -/

namespace MergeTrial

namespace Staging

/-- How far a call has come. -/
inductive Stage where
  | rooting
  | making (parent : Path)
  | writing (scratch : Scratch) (left : List (String × String))
  | running (scratch : Scratch)
  | ended

def Stage.scratch? : Stage → Option Scratch
  | .writing scratch _ | .running scratch => some scratch
  | _ => none

structure Call where
  stage : Stage
  machine : Machine

def Call.dropped (c : Call) : Machine :=
  match c.stage.scratch? with
  | some scratch => removed scratch c.machine
  | none => c.machine

/-- The moves of a call. A tool that cannot be started, times out or exits ends it in the same way;
it may be cut off at any time. -/
inductive Move (root : Option Path) (scenario : Scenario) : Call → Call → Prop
  | roots {m after parent} (h : FileAction.Does (prepareRoot root) m (.ok parent) after) :
      Move root scenario ⟨.rooting, m⟩ ⟨.making parent, after⟩
  | hasNoRoot {m after fault} (h : FileAction.Does (prepareRoot root) m (.error fault) after) :
      Move root scenario ⟨.rooting, m⟩ ⟨.ended, after⟩
  | makes {m after parent scratch}
      (h : FileAction.Does (makeScratch parent) m (.ok scratch) after) :
      Move root scenario ⟨.making parent, m⟩ ⟨.writing scratch (inputs scenario), after⟩
  | makesNone {m after parent fault}
      (h : FileAction.Does (makeScratch parent) m (.error fault) after) :
      Move root scenario ⟨.making parent, m⟩ ⟨.ended, after⟩
  | writes {m after scratch input left}
      (h : FileAction.Does (Machine.writeFile (filePath scratch scenario input.1)
        (Bytes.ofString input.2)) m (.ok ()) after) :
      Move root scenario ⟨.writing scratch (input :: left), m⟩ ⟨.writing scratch left, after⟩
  | failsToWrite {m after scratch input left fault}
      (h : FileAction.Does (Machine.writeFile (filePath scratch scenario input.1)
        (Bytes.ofString input.2)) m (.error fault) after) :
      Move root scenario ⟨.writing scratch (input :: left), m⟩ ⟨.ended, removed scratch after⟩
  | launches {m scratch} : Move root scenario ⟨.writing scratch [], m⟩ ⟨.running scratch, m⟩
  | ends {m scratch} : Move root scenario ⟨.running scratch, m⟩ ⟨.ended, removed scratch m⟩
  | cutOff (c : Call) : Move root scenario c ⟨.ended, c.dropped⟩

/-- What a call comes to by its moves, and by what its tool does meanwhile: anything that leaves the
names in every directory distinct. -/
inductive Leads (root : Option Path) (scenario : Scenario) (start : Call) : Call → Prop
  | here : Leads root scenario start start
  | move {c c' : Call} (h : Leads root scenario start c) (hmove : Move root scenario c c') :
      Leads root scenario start c'
  | tool {scratch m after} (h : Leads root scenario start ⟨.running scratch, m⟩)
      (hdistinct : after.root.NamesDistinct) : Leads root scenario start ⟨.running scratch, after⟩

/-- What holds at each stage of a call that began on this machine. -/
inductive Call.Sound (scenario : Scenario) (before : Machine) : Call → Prop
  | rooting : Sound scenario before ⟨.rooting, before⟩
  | making {m parent} (h : before.Grows m) : Sound scenario before ⟨.making parent, m⟩
  | writing {m scratch written left} (hinputs : inputs scenario = written ++ left)
      (h : Holds scenario before m scratch written) :
      Sound scenario before ⟨.writing scratch left, m⟩
  | running {m scratch} (hdistinct : m.root.NamesDistinct) (hlocation : scratch.location ≠ []) :
      Sound scenario before ⟨.running scratch, m⟩
  | ended {m} : Sound scenario before ⟨.ended, m⟩

variable {root : Option Path} {scenario : Scenario} {before m after : Machine} {scratch : Scratch}

theorem Call.dropped_of_some {c : Call} (h : c.stage.scratch? = some scratch) :
    c.dropped = removed scratch c.machine := by
  rw [dropped, h]

theorem Call.dropped_of_none {c : Call} (h : c.stage.scratch? = none) : c.dropped = c.machine := by
  rw [dropped, h]

theorem grows_of_prepareRoot {result : Except FileFault Path}
    (h : FileAction.Does (prepareRoot root) m result after) : m.Grows after := by
  cases root with
  | none =>
    obtain ⟨-, rfl⟩ := FileAction.does_pure_iff.1 h
    exact .refl after
  | some root =>
    rcases FileAction.does_bind_iff.1 h with ⟨_, between, hdirs, h⟩ | ⟨_, hdirs, -⟩
    · obtain ⟨-, rfl⟩ := FileAction.does_pure_iff.1 h
      exact Machine.grows_of_makeDirs hdirs
    · exact Machine.grows_of_makeDirs hdirs

theorem Call.Sound.move (hbefore : before.root.NamesDistinct) {c c' : Call}
    (h : c.Sound scenario before) (hmove : Move root scenario c c') : c'.Sound scenario before := by
  cases hmove with
  | roots hroots =>
    cases h
    exact .making (grows_of_prepareRoot hroots)
  | makes hmakes =>
    cases h with
    | making hgrows =>
      have hholds := holds_of_makeScratch_ok scenario hgrows hmakes
      exact .writing (List.nil_append _).symm hholds
  | writes hwrites =>
    cases h with
    | writing hinputs hholds =>
      have hnext := (hholds.write_ok hinputs hwrites).2
      exact .writing (hinputs.trans (List.append_cons ..)) hnext
  | launches =>
    cases h with
    | writing _ hholds => exact .running (hholds.grows.distinct hbefore) hholds.location_ne_nil
  | hasNoRoot | makesNone | failsToWrite | ends | cutOff => exact .ended

theorem Leads.sound (hbefore : before.root.NamesDistinct) {start c : Call}
    (hstart : start.Sound scenario before) (h : Leads root scenario start c) :
    c.Sound scenario before := by
  induction h with
  | here => exact hstart
  | move _ hmove ih => exact ih.move hbefore hmove
  | tool _ hdistinct ih =>
    cases ih with
    | running _ hlocation => exact .running hdistinct hlocation

theorem Call.Sound.owned (hbefore : before.root.NamesDistinct) {c : Call}
    (h : c.Sound scenario before) (howned : c.stage.scratch? = some scratch) :
    c.machine.root.NamesDistinct ∧ scratch.location ≠ [] := by
  cases h with
  | writing _ hholds =>
    obtain rfl := Option.some.inj howned
    exact ⟨hholds.grows.distinct hbefore, hholds.location_ne_nil⟩
  | running hdistinct hlocation =>
    obtain rfl := Option.some.inj howned
    exact ⟨hdistinct, hlocation⟩
  | rooting | making | ended => exact nomatch howned

def Gone (scratch : Scratch) (m : Machine) : Prop :=
  (m.root.at? scratch.location).any (·.isDir) = false

theorem Call.Sound.keeps_or_removes (hbefore : before.root.NamesDistinct) {c c' : Call}
    (h : c.Sound scenario before) (hmove : Move root scenario c c')
    (howned : c.stage.scratch? = some scratch) :
    c'.stage.scratch? = some scratch ∨ c'.stage = .ended ∧ Gone scratch c'.machine := by
  obtain ⟨hdistinct, hlocation⟩ := h.owned hbefore howned
  have hgone : Gone scratch (removed scratch c.machine) := not_isDir_removed hdistinct hlocation
  cases hmove with
  | roots | hasNoRoot | makes | makesNone => exact nomatch howned
  | writes | launches => exact Or.inl howned
  | failsToWrite hfails =>
    cases h with
    | writing hinputs hholds =>
      obtain rfl := hholds.write_error hinputs hfails
      obtain rfl := Option.some.inj howned
      exact Or.inr ⟨rfl, hgone⟩
  | ends =>
    obtain rfl := Option.some.inj howned
    exact Or.inr ⟨rfl, hgone⟩
  | cutOff => exact Or.inr ⟨rfl, (dropped_of_some howned).symm ▸ hgone⟩

theorem Leads.keeps_or_removes (hbefore : before.root.NamesDistinct) {start c : Call}
    (hstart : start.Sound scenario before) (howned : start.stage.scratch? = some scratch)
    (h : Leads root scenario start c) :
    c.stage.scratch? = some scratch ∨ c.stage = .ended ∧ Gone scratch c.machine := by
  induction h with
  | here => exact Or.inl howned
  | move hleads hmove ih =>
    rcases ih with howned | ⟨hover, hgone⟩
    · exact (hleads.sound hbefore hstart).keeps_or_removes hbefore hmove howned
    · cases hmove with
      | cutOff =>
        have hdropped := Call.dropped_of_none (congrArg Stage.scratch? hover)
        exact Or.inr ⟨rfl, hdropped.symm ▸ hgone⟩
      | _ => exact nomatch hover
  | tool _ _ ih => exact ih.imp_right fun h => nomatch h.1

theorem Call.Sound.frame {c c' : Call} (h : c.Sound scenario before)
    (hmove : Move root scenario c c') {location : Location} {node : Node}
    (hnode : c.machine.root.at? location = some node)
    (houtside : ∀ scratch ∈ c.stage.scratch?, ¬scratch.location <+: location) :
    ∃ kept, c'.machine.root.at? location = some kept ∧ kept.bare = node.bare := by
  have hremoved : ∀ {scratch}, c.stage.scratch? = some scratch →
      ∃ kept, (removed scratch c.machine).root.at? location = some kept ∧ kept.bare = node.bare :=
    fun howned => Node.exists_of_map_bare_eq (map_bare_removed (houtside _ howned)) hnode
  cases hmove with
  | roots hroots => exact (grows_of_prepareRoot hroots).keeps location node hnode
  | hasNoRoot hroots => exact (grows_of_prepareRoot hroots).keeps location node hnode
  | makes hmakes =>
    have hholds := holds_of_makeScratch_ok scenario (.refl _) hmakes
    exact hholds.grows.keeps location node hnode
  | makesNone hmakes =>
    obtain rfl := eq_of_makeScratch_error hmakes
    exact ⟨node, hnode, rfl⟩
  | writes hwrites =>
    cases h with
    | writing hinputs hholds =>
      exact (hholds.write_ok hinputs hwrites).1.keeps location node hnode
  | failsToWrite hfails =>
    cases h with
    | writing hinputs hholds =>
      obtain rfl := hholds.write_error hinputs hfails
      exact hremoved rfl
  | launches => exact ⟨node, hnode, rfl⟩
  | ends => exact hremoved rfl
  | cutOff =>
    cases howned : c.stage.scratch? with
    | none => exact ⟨node, (dropped_of_none howned).symm ▸ hnode, rfl⟩
    | some scratch =>
      rw [dropped_of_some howned]
      exact hremoved howned

section Runs
variable {result : Except FileFault Unit} {start : Call}

theorem Leads.writes {left : List (String × String)}
    (h : Leads root scenario start ⟨.writing scratch left, m⟩)
    (hwrites : FileAction.Does (forM left fun input =>
      Machine.writeFile (filePath scratch scenario input.1) (Bytes.ofString input.2))
      m result after) :
    (∃ fault, result = .error fault ∧
      Leads root scenario start ⟨.ended, removed scratch after⟩) ∨
    result = .ok () ∧ Leads root scenario start ⟨.writing scratch [], after⟩ := by
  induction left generalizing m with
  | nil =>
    obtain ⟨hresult, rfl⟩ := FileAction.does_pure_iff.1 hwrites
    exact Or.inr ⟨hresult, h⟩
  | cons input left ih =>
    rw [List.forM_cons] at hwrites
    rcases FileAction.does_bind_iff.1 hwrites with
      ⟨_, between, hfirst, hrest⟩ | ⟨fault, hfirst, hresult⟩
    · exact ih (h.move (.writes hfirst)) hrest
    · exact Or.inl ⟨fault, hresult, h.move (.failsToWrite hfirst)⟩

theorem leads_to_scratch {result : Except FileFault Scratch}
    (h : FileAction.Does ((prepareRoot root).bind makeScratch) before result after) :
    (∃ fault, result = .error fault ∧ Leads root scenario ⟨.rooting, before⟩ ⟨.ended, after⟩) ∨
    ∃ scratch, result = .ok scratch ∧
      Leads root scenario ⟨.rooting, before⟩ ⟨.writing scratch (inputs scenario), after⟩ := by
  rcases FileAction.does_bind_iff.1 h with
    ⟨parent, between, hroots, hmakes⟩ | ⟨fault, hroots, hresult⟩
  · have hmaking : Leads root scenario ⟨.rooting, before⟩ ⟨.making parent, between⟩ :=
      .move .here (.roots hroots)
    cases result with
    | error fault => exact Or.inl ⟨fault, rfl, hmaking.move (.makesNone hmakes)⟩
    | ok scratch => exact Or.inr ⟨scratch, rfl, hmaking.move (.makes hmakes)⟩
  · exact Or.inl ⟨fault, hresult, .move .here (.hasNoRoot hroots)⟩

theorem leads_to_staged {made : Except FileFault Scratch}
    (h : staged root scenario before = (made, after)) :
    (∃ fault, made = .error fault ∧ Leads root scenario ⟨.rooting, before⟩ ⟨.ended, after⟩) ∨
    ∃ scratch, made = .ok scratch ∧
      Leads root scenario ⟨.rooting, before⟩ ⟨.writing scratch [], after⟩ := by
  obtain ⟨made, between, hmade⟩ : ∃ made between,
      FileAction.Does ((prepareRoot root).bind makeScratch) before made between := ⟨_, _, rfl⟩
  rw [staged, show ((prepareRoot root).bind makeScratch).run.run before = _ from hmade] at h
  have hleads : (∃ fault, made = .error fault ∧
      Leads root scenario ⟨.rooting, before⟩ ⟨.ended, between⟩) ∨ _ := leads_to_scratch hmade
  rcases hleads with ⟨fault, rfl, hover⟩ | ⟨scratch, rfl, hscratch⟩
  · obtain ⟨rfl, rfl⟩ := Prod.mk.inj h
    exact Or.inl ⟨fault, rfl, hover⟩
  obtain ⟨written, full, hwrites⟩ : ∃ written full,
      FileAction.Does (writeInputs scratch scenario) between written full := ⟨_, _, rfl⟩
  simp only [show (writeInputs scratch scenario).run.run between = _ from hwrites] at h
  rw [writeInputs_eq] at hwrites
  rcases hscratch.writes hwrites with ⟨fault, rfl, hover⟩ | ⟨rfl, hstaged⟩
  · obtain ⟨rfl, rfl⟩ := Prod.mk.inj h
    exact Or.inl ⟨fault, rfl, hover⟩
  · obtain ⟨rfl, rfl⟩ := Prod.mk.inj h
    exact Or.inr ⟨scratch, rfl, hstaged⟩

end Runs

/-- All is ready for the tool: the scratch directory was not there before the call, and holds the
three inputs in three files, to which their paths lead. -/
structure Ready (scenario : Scenario) (before m : Machine) (scratch : Scratch) : Prop where
  fresh : before.root.at? scratch.location = none
  contents : m.root.at? scratch.location = some (.dir (before.granted 0o700)
    [(nameOf scenario "base", fileOf before scenario.ancestor),
     (nameOf scenario "left", fileOf before scenario.left),
     (nameOf scenario "right", fileOf before scenario.right)])
  distinct : [nameOf scenario "base", nameOf scenario "left", nameOf scenario "right"].Nodup
  base : m.resolve (scratch.path.join (nameOf scenario "base")) =
    .ok ⟨scratch.location ++ [nameOf scenario "base"], some (fileOf before scenario.ancestor)⟩
  left : m.resolve (scratch.path.join (nameOf scenario "left")) =
    .ok ⟨scratch.location ++ [nameOf scenario "left"], some (fileOf before scenario.left)⟩
  right : m.resolve (scratch.path.join (nameOf scenario "right")) =
    .ok ⟨scratch.location ++ [nameOf scenario "right"], some (fileOf before scenario.right)⟩

theorem Call.Sound.ready (h : Call.Sound scenario before ⟨.writing scratch [], m⟩) :
    Ready scenario before m scratch := by
  cases h with
  | writing hinputs hholds =>
    rw [List.append_nil] at hinputs
    subst hinputs
    have hnames : (inputs scenario).Pairwise fun one other =>
        nameOf scenario one.1 ≠ nameOf scenario other.1 :=
      (inputs_plain scenario).2.imp fun hne heq => hne (congrArg List.head? heq)
    constructor
    case fresh => exact hholds.fresh
    case contents => exact hholds.contents
    case distinct => exact List.pairwise_map.2 hnames
    case base => exact hholds.leads ("base", scenario.ancestor) (by simp [inputs])
    case left => exact hholds.leads ("left", scenario.left) (by simp [inputs])
    case right => exact hholds.leads ("right", scenario.right) (by simp [inputs])

end Staging

def Launcher.KeepsNames (launch : Launcher Id) : Prop :=
  ∀ process m, m.root.NamesDistinct → ((launch process).run m).2.root.NamesDistinct

namespace Tool
variable {launch : Launcher Id} {first before : Machine}

theorem resolve_spec (hlaunch : launch.KeepsNames) (tool : Tool)
    (hfirst : first.root.NamesDistinct) : ∃ d before, (tool.resolve launch).run first =
      ((d.found, { tool with discovery := some d }), before) ∧ before.root.NamesDistinct := by
  obtain ⟨spec, timeout, scratchRoot, discovery⟩ := tool
  cases discovery with
  | some d => exact ⟨d, first, rfl, hfirst⟩
  | none =>
    refine ⟨((spec.discover launch).run first).1, ((spec.discover launch).run first).2, rfl, ?_⟩
    rw [ToolSpec.machine_of_discover]
    split
    · exact hlaunch _ first hfirst
    · exact hfirst

theorem runResolved_spec (hlaunch : launch.KeepsNames) (tool : Tool) (r : Resolved)
    (scenario : Scenario) (hbefore : before.root.NamesDistinct) :
    let ran := (tool.runResolved launch r scenario).run before
    let Leads := Staging.Leads tool.scratchRoot scenario
    (∃ fault : FileFault, ran.1 = .failed ("failed to stage inputs: " ++ fault.message) ∧
      Leads ⟨.rooting, before⟩ ⟨.ended, ran.2⟩) ∨
    ∃ scratch staged, Leads ⟨.rooting, before⟩ ⟨.writing scratch [], staged⟩ ∧
      Leads ⟨.writing scratch [], staged⟩ ⟨.ended, ran.2⟩ ∧
      let ended := (launch (tool.process r (Staging.shown scratch scenario))).run staged
      ran.1 = tool.spec.outcome r.program tool.timeout ended.1 ∧
        ran.2 = Staging.removed scratch ended.2 := by
  intro ran Leads
  obtain ⟨made, staged, hstaged⟩ : ∃ made staged,
      Staging.staged tool.scratchRoot scenario before = (made, staged) := ⟨_, _, rfl⟩
  have hran : ran = (tool.runResolved launch r scenario).run before := rfl
  rw [runResolved_eq, StateT.run_map, Staging.run_within_eq, hstaged] at hran
  rw [hran]
  rcases Staging.leads_to_staged hstaged with ⟨fault, rfl, hover⟩ | ⟨scratch, rfl, hready⟩
  · exact Or.inl ⟨fault, rfl, hover⟩
  · simp only [Staging.paths_eq]
    refine Or.inr ⟨scratch, staged, hready, ?_, rfl, rfl⟩
    have hdistinct : staged.root.NamesDistinct :=
      ((hready.sound hbefore .rooting).owned hbefore rfl).1
    exact ((Staging.Leads.here.move .launches).tool (hlaunch _ staged hdistinct)).move .ends

/-- However a run ends, no scratch directory is left of it. The tool is started, if at all, with a
fresh directory that holds its inputs; it may do anything there and elsewhere, and nothing but the
tool changes what was outside of that directory. -/
theorem run_leaves_no_scratch (tool : Tool) (launch : Launcher Id) (scenario : Scenario)
    (first : Machine) (hlaunch : launch.KeepsNames) (hfirst : first.root.NamesDistinct) :
    let ((found, _), before) := (tool.resolve launch).run first
    let ran := (tool.run launch scenario).run first
    let Leads := Staging.Leads tool.scratchRoot scenario
    let start : Staging.Call := ⟨.rooting, before⟩
    (match found with
      | none => ran.1.1 = .skipped (tool.spec.name ++ " could not be located") ∧ ran.2 = before
      | some r =>
        (∃ fault : FileFault, ran.1.1 = .failed ("failed to stage inputs: " ++ fault.message) ∧
          Leads start ⟨.ended, ran.2⟩) ∨
        ∃ scratch staged, Leads start ⟨.writing scratch [], staged⟩ ∧
          Leads ⟨.writing scratch [], staged⟩ ⟨.ended, ran.2⟩ ∧
          let ended := (launch (tool.process r (Staging.shown scratch scenario))).run staged
          ran.1.1 = tool.spec.outcome r.program tool.timeout ended.1 ∧
            ran.2 = Staging.removed scratch ended.2) ∧
    (∀ scratch staged, Leads start ⟨.writing scratch [], staged⟩ →
      Staging.Ready scenario before staged scratch) ∧
    (∀ c scratch after, Leads start c → c.stage.scratch? = some scratch →
      Leads c ⟨.ended, after⟩ → Staging.Gone scratch after) ∧
    ∀ c c' location node, Leads start c → Staging.Move tool.scratchRoot scenario c c' →
      c.machine.root.at? location = some node →
      (∀ scratch ∈ c.stage.scratch?, ¬scratch.location <+: location) →
      ∃ kept, c'.machine.root.at? location = some kept ∧ kept.bare = node.bare := by
  obtain ⟨d, before, hresolve, hbefore⟩ := resolve_spec hlaunch tool hfirst
  rw [hresolve]
  refine ⟨?_, ?_, ?_, ?_⟩
  · have hrun : (tool.run launch scenario).run first = match d.found with
        | none => ((.skipped (tool.spec.name ++ " could not be located"),
            { tool with discovery := some d }), before)
        | some r =>
          let ran := (runResolved launch { tool with discovery := some d } r scenario).run before
          ((ran.1, { tool with discovery := some d }), ran.2) := by
      unfold resolve at hresolve
      unfold run runWith
      rw [StateT.run_bind, hresolve]
      cases d.found <;> rfl
    rw [hrun]
    cases d.found with
    | none => exact ⟨rfl, rfl⟩
    | some r => exact runResolved_spec hlaunch { tool with discovery := some d } r scenario hbefore
  · exact fun scratch m h => (h.sound hbefore .rooting).ready
  · intro c scratch after hc howned hafter
    rcases hafter.keeps_or_removes hbefore (hc.sound hbefore .rooting) howned with h | h
    · exact nomatch h
    · exact h.2
  · exact fun c c' location node hc hmove => (hc.sound hbefore .rooting).frame hmove

def erasing : Launcher Id := fun _ => do
  modify fun m => m.put (["tmp", "mergebench-000000", "base.swift"].map Bytes.ofString) none
  return .exited 0 [] []

def scratchMachine : Machine where
  root := .dir 0o755 [(Bytes.ofString "tmp", .dir 0o777 [])]
  cwd := []
  searchPath := none
  mask := 0o022
  strays := []

theorem erasing_leaves_no_scratch :
    let tool : Tool := ⟨.simple "t" [["/bin/t"]], 100, none,
      some ⟨none, some ⟨Bytes.ofString "/bin/t", []⟩⟩⟩
    let scenario : Scenario := ⟨"S1", .conflict, "a", "b", "c", none, some "swift"⟩
    ∃ scratch staged, Staging.Ready scenario scratchMachine staged scratch ∧
      staged.root.at? scratch.location = some (.dir 0o700
        [(Bytes.ofString "base.swift", .file (Bytes.ofString "a") 0o644),
         (Bytes.ofString "left.swift", .file (Bytes.ofString "b") 0o644),
         (Bytes.ofString "right.swift", .file (Bytes.ofString "c") 0o644)]) ∧
      Staging.Gone scratch ((tool.run erasing scenario).run scratchMachine).2 := by
  intro tool scenario
  have hlaunch : erasing.KeepsNames :=
    fun _ _ h => h.put (fun _ (hnew : _ ∈ none) => nomatch hnew) _
  have hempty : ∀ mode, (Node.dir mode []).NamesDistinct :=
    fun _ => Node.namesDistinct_of_entries_eq_nil rfl
  have hfirst : scratchMachine.root.NamesDistinct :=
    (hempty 0o755).put (fun _ hnew => Option.some.inj hnew ▸ hempty 0o777) [Bytes.ofString "tmp"]
  obtain ⟨hran, hready, hgone, -⟩ :=
    run_leaves_no_scratch tool erasing scenario scratchMachine hlaunch hfirst
  rcases hran with ⟨fault, hfault, -⟩ | ⟨scratch, staged, hstaged, hover, -⟩
  · have hstatus : ((tool.run erasing scenario).run scratchMachine).1.1.status = .success := by
      decide +kernel
    exact nomatch hstatus.symm.trans (congrArg Output.status hfault)
  · have hfiles := hready scratch staged hstaged
    exact ⟨scratch, staged, hfiles, hfiles.contents,
      hgone ⟨.writing scratch [], staged⟩ scratch _ hstaged rfl hover⟩

end Tool
end MergeTrial
