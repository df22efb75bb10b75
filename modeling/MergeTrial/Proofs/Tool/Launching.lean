import Mathlib.Tactic.ByContra
import MergeTrial.Proofs.FileTree.Walking
import MergeTrial.Proofs.Tool.Discovery
import MergeTrial.Shell.Launch

/-! What a run starts. Discovery looks at a path from the current directory; the process is started
from the same path, but in the working directory. Both lead to the same file if the path is absolute
or the working directory is the current one. Otherwise they need not. -/

namespace MergeTrial

namespace Path
variable {path parent child : Path}

theorem slash_mem_of_isExplicit (h : path.isExplicit = true) : slash ∈ path := by
  by_contra hnone
  rcases Bool.or_eq_true_iff.1 h with habsolute | hsteps
  · exact hnone (slash_mem_of_isAbsolute habsolute)
  · have hsegments : segments path = [path] := splitOn_of_not_mem hnone
    have hcount : stepCount path ≤ 1 := by
      rw [stepCount, hsegments]
      by_cases hdot : path = [dot]
      · subst hdot
        decide
      · have hfirst : (some path == some [dot]) = false := by simpa using hdot
        rw [List.head?_cons, hfirst]
        exact List.length_filter_le _ [path]
    exact absurd (of_decide_eq_true hsteps) (Nat.not_lt.2 hcount)

theorem slash_mem_join (h : slash ∈ child) : slash ∈ parent.join child := by
  unfold join
  split
  · exact h
  · split
    · exact List.mem_append_right _ h
    · exact List.mem_append_right _ (List.mem_cons_of_mem _ h)

theorem join_eq_self_of_not_mem (h : slash ∉ parent.join child) : parent.join child = child := by
  unfold join at h ⊢
  split at h
  · next hself => rw [if_pos hself]
  · split at h
    · next hlast =>
      exact absurd (List.mem_append_left _ (List.mem_of_getLast? (eq_of_beq hlast))) h
    · exact absurd (List.mem_append_right _ List.mem_cons_self) h

end Path

theorem Node.resolve_of_isAbsolute {path : Path} (h : path.isAbsolute = true) (root : Node)
    (here there : Location) : root.resolve here path = root.resolve there path := by
  unfold resolve resolveWith
  rw [if_pos h, if_pos h]

namespace Machine
variable {m moved : Machine} {program path : Path} {workingDir : Option Path} {l : Launch}

/-- The place of the file that a process is started from, on a machine with these files. -/
def startPlace (m : Machine) (l : Launch) : Except FileFault Node.Place := do
  let (moved, path) ← m.target l
  moved.resolve path

theorem no_nul_of_resolve {place : Node.Place} (h : m.resolve path = .ok place) :
    path.contains 0 = false :=
  (Node.resolve_eq_ok_iff.1 h).1.2.1

theorem exists_of_hasExecutable (h : m.hasExecutable path = true) : ∃ place node,
    m.resolve path = .ok place ∧ place.node = some node ∧ node.isExecutable = true := by
  obtain ⟨node, hnode, hexecutable⟩ := (Option.any_eq_true ..).1 h
  have hopen : m.open? path = .ok node := by
    unfold node? at hnode
    cases hopen : m.open? path with
    | error => rw [hopen] at hnode; exact nomatch hnode
    | ok found => rw [hopen] at hnode; exact congrArg _ (Option.some.inj hnode)
  obtain ⟨place, hplace, hopen⟩ := Outcome.bind_eq_ok.1 hopen
  refine ⟨place, node, hplace, ?_, hexecutable⟩
  split at hopen
  · next found hfound => exact hfound.trans (congrArg _ (Except.ok.inj hopen))
  · exact nomatch hopen

theorem enter_eq_ok (h : m.enter workingDir = .ok moved) :
    moved = { m with cwd := moved.cwd } ∧ ∀ dir ∈ workingDir, dir.contains 0 = false := by
  cases workingDir with
  | none =>
    obtain rfl := Except.ok.inj h
    exact ⟨rfl, nofun⟩
  | some dir =>
    obtain ⟨place, hplace, h⟩ := Outcome.bind_eq_ok.1 h
    refine ⟨?_, fun _ hdir => Option.some.inj hdir ▸ no_nul_of_resolve hplace⟩
    split at h
    · split at h
      · exact Except.ok.inj h ▸ rfl
      · exact nomatch h
    · exact nomatch h
    · exact nomatch h

theorem startPlace_eq (hargs : ∀ arg ∈ l.args, arg.contains 0 = false)
    (hprogram : l.program.contains 0 = false) (henter : m.enter l.workingDir = .ok moved) :
    m.startPlace l = (moved.programFile l.program).bind moved.resolve := by
  have hnul : ¬(l.program :: l.workingDir.toList ++ l.args).any (·.contains 0) = true := by
    simp only [List.any_eq_true, List.mem_cons, List.mem_append, Option.mem_toList]
    rintro ⟨text, (rfl | htext) | htext, h⟩
    · rw [hprogram] at h; exact nomatch h
    · rw [(enter_eq_ok henter).2 text htext] at h; exact nomatch h
    · rw [hargs text htext] at h; exact nomatch h
  rw [startPlace, target, if_neg hnul]
  simp only [henter]
  cases hfile : moved.programFile l.program <;> simp [bind, Except.bind, hfile, pure, Except.pure]

theorem locate_of_explicit (h : program.isExplicit = true) : m.locate program workingDir =
    let full := (workingDir.map fun dir => dir.join program).getD program
    if m.hasExecutable full then some full else none := by
  unfold locate
  rw [if_pos h]
  cases workingDir <;> rfl

theorem locate_of_not_explicit (h : program.isExplicit = false) : m.locate program workingDir =
    (m.searchDirs.map fun dir => dir.join program).find? m.hasExecutable := by
  unfold locate
  rw [h]
  rfl

theorem startPlace_of_enter_eq_error {fault : FileFault} (h : m.enter l.workingDir = .error fault) :
    ∃ cause, m.startPlace l = .error cause := by
  unfold startPlace target
  split
  · exact ⟨_, rfl⟩
  · rw [h]
    exact ⟨_, rfl⟩

theorem hasExecutable_of_locate (h : m.locate program workingDir = some path) :
    m.hasExecutable path = true := by
  cases hexplicit : program.isExplicit with
  | true =>
    rw [locate_of_explicit hexplicit] at h
    obtain ⟨hthere, hpath⟩ := Option.ite_none_right_eq_some.1 h
    exact Option.some.inj hpath ▸ hthere
  | false =>
    rw [locate_of_not_explicit hexplicit] at h
    exact List.find?_some h

theorem eq_join_of_locate (hexplicit : program.isExplicit = true)
    (h : m.locate program workingDir = some path) :
    path = (workingDir.map fun dir => dir.join program).getD program := by
  rw [locate_of_explicit hexplicit] at h
  exact (Option.some.inj (Option.ite_none_right_eq_some.1 h).2).symm

theorem programDirs_eq_of_mem {dir : Path} (h : dir ∈ m.searchDirs) :
    m.programDirs = m.searchDirs := by
  refine if_pos ?_
  unfold searchDirs at h
  split at h
  · next hvalue => rw [hvalue]; rfl
  · exact absurd h List.not_mem_nil

theorem programFile_of_locate (h : m.locate program workingDir = some path) :
    m.programFile path = .ok path := by
  by_cases hslash : Path.slash ∈ path
  · exact if_pos (List.contains_iff_mem.2 hslash)
  · have hbare : program.isExplicit = false := by
      refine Bool.eq_false_iff.2 fun hexplicit => hslash ?_
      have hprogram := Path.slash_mem_of_isExplicit hexplicit
      rw [eq_join_of_locate hexplicit h]
      cases workingDir with
      | none => exact hprogram
      | some dir => exact Path.slash_mem_join hprogram
    rw [locate_of_not_explicit hbare] at h
    obtain ⟨dir, hdir, hpath⟩ := List.mem_map.1 (List.mem_of_find?_eq_some h)
    have hself : path = program :=
      hpath ▸ Path.join_eq_self_of_not_mem (hpath.symm ▸ hslash)
    subst hself
    rw [programFile, if_neg (fun hmem => hslash (List.contains_iff_mem.1 hmem)),
      programDirs_eq_of_mem hdir]
    simp only [h]

section
variable (hlocate : m.locate program workingDir = some l.program)
  (hargs : ∀ arg ∈ l.args, arg.contains 0 = false) (henter : m.enter l.workingDir = .ok moved)
include hlocate hargs henter

theorem startPlace_eq_bind : m.startPlace l = (moved.programFile l.program).bind moved.resolve := by
  obtain ⟨place, -, hplace, -⟩ := exists_of_hasExecutable (hasExecutable_of_locate hlocate)
  exact startPlace_eq hargs (no_nul_of_resolve hplace) henter

theorem startPlace_of_slash (hslash : Path.slash ∈ l.program) :
    m.startPlace l = m.root.resolve moved.cwd l.program := by
  rw [startPlace_eq_bind hlocate hargs henter, programFile,
    if_pos (List.contains_iff_mem.2 hslash), (enter_eq_ok henter).1]
  rfl

theorem startPlace_of_isAbsolute (habsolute : Path.isAbsolute l.program = true) :
    m.startPlace l = m.resolve l.program := by
  rw [startPlace_of_slash hlocate hargs henter (Path.slash_mem_of_isAbsolute habsolute)]
  exact Node.resolve_of_isAbsolute habsolute ..

theorem startPlace_of_cwd_eq (hcwd : moved.cwd = m.cwd) : m.startPlace l = m.resolve l.program := by
  obtain rfl : moved = m := by rw [(enter_eq_ok henter).1, hcwd]
  rw [startPlace_eq_bind hlocate hargs henter, programFile_of_locate hlocate]
  rfl

end

end Machine

def Deed.launch? : Deed → Option Launch
  | .launch l => some l
  | .walk => none

namespace Tool
variable {m : Type → Type} [Monad m] [LawfulMonad m] {tool : Tool} {d : Discovery Resolved}
  {r : Resolved}

theorem run_of_found (launch : Launcher m) (hd : tool.discovery = some d) (hr : d.found = some r)
    (scenario : Scenario) : tool.run launch scenario =
      (fun ended => (tool.outputOf r ended, tool)) <$>
        Staging.within tool.scratchRoot scenario fun paths => launch (tool.process r paths) := by
  unfold run runWith resolveWith
  rw [hd]
  simp only [pure_bind, hr, runResolved_eq, ← map_eq_pure_bind, Functor.map_map]

/-- The processes that a run starts. -/
def started (launch : Launcher Id) (tool : Tool) (scenario : Scenario) (machine : Machine) :
    List Launch :=
  (((tool.run launch.noting scenario).run machine).run []).2.filterMap Deed.launch?

theorem started_of_found (launch : Launcher Id) (hd : tool.discovery = some d)
    (hr : d.found = some r) (scenario : Scenario) (machine : Machine) :
    (∃ paths, tool.started launch scenario machine = [tool.process r paths]) ∨
      tool.started launch scenario machine = [] ∧ ∃ fault : FileFault,
        ((tool.run launch scenario).run machine).1.1 =
          .failed ("failed to stage inputs: " ++ fault.message) := by
  have hstarted : tool.started launch scenario machine =
      (((Staging.within tool.scratchRoot scenario fun paths =>
        launch.noting (tool.process r paths)).run machine).run []).2.filterMap Deed.launch? := by
    rw [started, run_of_found launch.noting hd hr]
    rfl
  rw [hstarted, run_of_found launch hd hr, StateT.run_map, Staging.run_within_eq,
    Staging.run_within_eq]
  obtain ⟨made, between⟩ := Staging.staged tool.scratchRoot scenario machine
  cases made with
  | error fault => exact Or.inr ⟨rfl, fault, rfl⟩
  | ok scratch => exact Or.inl ⟨Staging.paths scratch scenario, rfl⟩

end Tool

/-- A run starts one process unless staging fails, and that from the path that discovery found. If
this is an absolute path, as are those made from an absolute candidate, working directory or search
path, or if the working directory is the current one, the process is started from the very file that
was checked; otherwise from what the path leads to in the working directory, if that can be entered
at all. -/
theorem run_starts_found_path (spec : ToolSpec) (m : Machine) (r : Resolved)
    (h : spec.findCandidate m = some r) :
    m.hasExecutable r.program = true ∧
    (∀ launch timeout scratchRoot built scenario machine,
      let tool : Tool := ⟨spec, timeout, scratchRoot, some ⟨built, some r⟩⟩
      (∃ args, tool.started launch scenario machine =
        [⟨r.program, args, spec.workingPath, timeout⟩]) ∨
      tool.started launch scenario machine = [] ∧ ∃ fault : FileFault,
        ((tool.run launch scenario).run machine).1.1 =
          .failed ("failed to stage inputs: " ++ fault.message)) ∧
    (∀ args timeout fault, m.enter spec.workingPath = .error fault →
      ∃ cause, m.startPlace ⟨r.program, args, spec.workingPath, timeout⟩ = .error cause) ∧
    (∀ args timeout moved, (∀ arg ∈ args, arg.contains 0 = false) →
      m.enter spec.workingPath = .ok moved →
      (r.program.isAbsolute = true ∨ moved.cwd = m.cwd →
        m.startPlace ⟨r.program, args, spec.workingPath, timeout⟩ = m.resolve r.program) ∧
      (Path.slash ∈ r.program →
        m.startPlace ⟨r.program, args, spec.workingPath, timeout⟩ =
          m.root.resolve moved.cwd r.program)) ∧
    ∃ program, program :: r.args ∈ spec.candidates ∧
      if Path.isExplicit (Bytes.ofString program) then
        r.program.isAbsolute =
          (Path.isAbsolute (Bytes.ofString program) || spec.workingPath.any Path.isAbsolute)
      else ∃ dir ∈ m.searchDirs, r.program = dir.join (Bytes.ofString program) ∧
        r.program.isAbsolute = dir.isAbsolute := by
  obtain ⟨before, program, after, hcandidates, hlocate, -⟩ :=
    ToolSpec.findCandidate_eq_some_iff.1 h
  refine ⟨Machine.hasExecutable_of_locate hlocate, fun launch timeout scratchRoot built scenario
    machine => ?_, fun args timeout fault hfault => Machine.startPlace_of_enter_eq_error hfault,
    fun args timeout moved hargs henter => ⟨?_, fun hslash => ?_⟩, program, ?_, ?_⟩
  · intro tool
    have hdiscovery : tool.discovery = some ⟨built, some r⟩ := rfl
    rcases Tool.started_of_found launch hdiscovery rfl scenario machine with ⟨paths, hpaths⟩ | hnone
    · exact Or.inl ⟨_, hpaths⟩
    · exact Or.inr hnone
  · rintro (habsolute | hcwd)
    · exact Machine.startPlace_of_isAbsolute hlocate hargs henter habsolute
    · exact Machine.startPlace_of_cwd_eq hlocate hargs henter hcwd
  · exact Machine.startPlace_of_slash (l := ⟨_, _, _, _⟩) hlocate hargs henter hslash
  · exact hcandidates ▸ List.mem_append_right _ List.mem_cons_self
  · split
    · next hexplicit =>
      rw [Machine.eq_join_of_locate hexplicit hlocate]
      cases spec.workingPath with
      | none => exact (Bool.or_false _).symm
      | some dir => exact Path.isAbsolute_join ..
    · next hbare =>
      rw [Machine.locate_of_not_explicit (Bool.eq_false_iff.2 hbare)] at hlocate
      obtain ⟨dir, hdir, hpath⟩ := List.mem_map.1 (List.mem_of_find?_eq_some hlocate)
      refine ⟨dir, hdir, hpath.symm, ?_⟩
      have hrelative : Path.isAbsolute (Bytes.ofString program) = false :=
        Bool.eq_false_iff.2 fun habsolute => hbare (Bool.or_eq_true_iff.2 (Or.inl habsolute))
      rw [← hpath, Path.isAbsolute_join, hrelative, Bool.false_or]

def relativeTool (workingDir : String) : ToolSpec :=
  { ToolSpec.simple "t" [["bin/tool"]] with workingDir := some workingDir }

def toolMachine : Machine where
  root := .dir 0o755 [(Bytes.ofString "tmp", .dir 0o777 []), (Bytes.ofString "wd", .dir 0o755
    [(Bytes.ofString "bin", .dir 0o755 [(Bytes.ofString "tool",
      .file (Bytes.ofString "#!/bin/sh\n/bin/cat \"$2\"\n") 0o755)])])]
  cwd := []
  searchPath := none
  mask := 0o022
  strays := []

theorem relativeTool_starts_found_path : ∃ moved,
    (relativeTool "/wd").findCandidate toolMachine = some ⟨Bytes.ofString "/wd/bin/tool", []⟩ ∧
    toolMachine.enter (relativeTool "/wd").workingPath = .ok moved ∧
    moved.cwd ≠ toolMachine.cwd ∧
    toolMachine.startPlace ⟨Bytes.ofString "/wd/bin/tool", [Bytes.ofString "base"],
      (relativeTool "/wd").workingPath, 100⟩ =
      toolMachine.resolve (Bytes.ofString "/wd/bin/tool") := by
  have hfound : (relativeTool "/wd").findCandidate toolMachine =
      some ⟨Bytes.ofString "/wd/bin/tool", []⟩ := by decide +kernel
  obtain ⟨-, -, -, hplace, -⟩ := run_starts_found_path _ _ _ hfound
  have hargs : ∀ arg ∈ [Bytes.ofString "base"], arg.contains 0 = false := by decide +kernel
  have henter : toolMachine.enter (relativeTool "/wd").workingPath =
      .ok { toolMachine with cwd := [Bytes.ofString "wd"] } := rfl
  refine ⟨_, hfound, henter, nofun, (hplace _ 100 _ hargs henter).1 (Or.inl ?_)⟩
  decide +kernel

theorem relativeTool_not_started_from_found :
    ¬∀ (spec : ToolSpec) (m : Machine) (r : Resolved), spec.findCandidate m = some r →
      ∀ launch timeout scratchRoot built scenario machine, ∀ l ∈ Tool.started launch
        ⟨spec, timeout, scratchRoot, some ⟨built, some r⟩⟩ scenario machine,
        m.startPlace l = m.resolve r.program := by
  intro h
  have hfound : (relativeTool "wd").findCandidate toolMachine =
      some ⟨Bytes.ofString "wd/bin/tool", []⟩ := by decide +kernel
  let started := Tool.started (fun _ => pure (.exited 0 [] []))
    ⟨relativeTool "wd", 100, none, some ⟨none, some ⟨Bytes.ofString "wd/bin/tool", []⟩⟩⟩
    ⟨"S1", .conflict, "a", "b", "c", none, none⟩ toolMachine
  have hstarted : started.any (fun l => !(toolMachine.startPlace l).isOk) = true := by
    decide +kernel
  obtain ⟨l, hl, hmissing⟩ := List.any_eq_true.1 hstarted
  rw [h _ _ _ hfound _ _ _ _ _ _ l hl] at hmissing
  exact absurd hmissing (by decide +kernel)

end MergeTrial
