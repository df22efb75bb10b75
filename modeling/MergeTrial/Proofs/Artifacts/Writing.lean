import Mathlib.Data.List.Nodup
import Mathlib.Data.List.Perm.Subperm
import MergeTrial.Proofs.Artifacts.Layout
import MergeTrial.Proofs.FileTree.Below

/-! Writing the files of all runs to an empty directory: what is in it then, and that no file of a
run is lost unless two runs clash. -/

namespace MergeTrial.Artifacts
open Machine
variable {corpus : Corpus} {scenario : Scenario} {run : Run} {runs : List Run} {dir : Path}
  {start m after : Machine} {here location : Location} {mode n : Nat} {folders : List String}
  {as : List Artifact}

/-- The last of the files that are to be in a place. -/
def latest (as : List Artifact) (location : Location) : Option Artifact :=
  as.reverse.find? fun a => a.place = location

def layout (start : Machine) (mode : Nat) (folders : List String) (as : List Artifact) :
    Location → Option Node
  | [] => some (.dir mode [])
  | [folder] =>
    if folder ∈ folders.map Bytes.ofString then some (.dir (start.granted 0o777) []) else none
  | location =>
    (latest as location).map fun a => .file (Bytes.ofString a.content) (start.granted 0o666)

theorem latest_concat (as : List Artifact) (a : Artifact) (location : Location) :
    latest (as ++ [a]) location = if location = a.place then some a else latest as location := by
  rw [latest, List.reverse_concat, List.find?_cons]
  by_cases h : location = a.place
  · simp [h]
  · simp [h, Ne.symm h, latest]

theorem mem_of_latest {a : Artifact} (h : latest as location = some a) :
    a ∈ as ∧ a.place = location :=
  ⟨List.mem_reverse.1 (List.mem_of_find?_eq_some h), by simpa using List.find?_some h⟩

theorem isSome_latest_iff : (latest as location).isSome ↔ location ∈ as.map Artifact.place := by
  rw [latest, List.find?_isSome]
  simp

theorem latest_eq_some_iff (h : (as.map Artifact.place).Nodup) {a : Artifact} :
    latest as location = some a ↔ a ∈ as ∧ a.place = location := by
  refine ⟨mem_of_latest, ?_⟩
  rintro ⟨hmem, rfl⟩
  obtain ⟨b, hb⟩ := Option.isSome_iff_exists.1 (isSome_latest_iff.2 (List.mem_map_of_mem hmem))
  obtain ⟨hbmem, hplace⟩ := mem_of_latest hb
  exact hb.trans (congrArg some (List.inj_on_of_nodup_map h hbmem hmem hplace))

theorem layout_nil (start : Machine) (mode : Nat) : layout start mode [] [] =
    fun location => if location = [] then some (.dir mode []) else none := by
  funext location
  match location with
  | [] => rfl
  | [_] => rfl
  | _ :: _ :: _ => rfl

theorem layout_folder (start : Machine) (mode : Nat) (folders : List String) (as : List Artifact)
    (name : String) : layout start mode (folders ++ [name]) as = fun location =>
      if location = [Bytes.ofString name] then some (.dir (start.granted 0o777) [])
      else layout start mode folders as location := by
  funext location
  match location with
  | [] => rfl
  | [folder] => by_cases h : folder = Bytes.ofString name <;> simp [layout, h]
  | _ :: _ :: _ => simp [layout]

theorem layout_again {name : String} (hname : name ∈ folders) :
    layout start mode (folders ++ [name]) as = layout start mode folders as := by
  rw [layout_folder]
  funext location
  split
  · next heq => rw [heq, layout, if_pos (List.mem_map_of_mem hname)]
  · rfl

theorem layout_file (start : Machine) (mode : Nat) (folders : List String) (as : List Artifact)
    (a : Artifact) : layout start mode folders (as ++ [a]) = fun location =>
      if location = a.place then some (.file (Bytes.ofString a.content) (start.granted 0o666))
      else layout start mode folders as location := by
  funext location
  match location with
  | [] => rfl
  | [folder] => simp [layout, Artifact.place]
  | _ :: _ :: _ =>
    simp only [layout, latest_concat]
    split <;> rfl

structure Plain (scenario : Scenario) (run : Run) : Prop where
  folder : Path.IsName (Bytes.ofString scenario.name)
  flat : Path.slash ∉ Bytes.ofString scenario.name
  strategy : Path.slash ∉ Bytes.ofString run.strategy
  extension : ∀ extension ∈ scenario.extension, Path.slash ∉ Bytes.ofString extension

theorem Plain.artifact (h : Plain scenario run) {a : Artifact} (ha : a ∈ artifacts scenario run) :
    Path.IsName (Bytes.ofString a.name) ∧ Path.slash ∉ Bytes.ofString a.name := by
  obtain ⟨kind, ha⟩ := mem_artifacts_iff.1 ha
  cases ha with
  | intro =>
    obtain ⟨hslash, hlength⟩ : Path.slash ∉ Bytes.ofString (kind.suffix scenario.extension) ∧
        3 ≤ (Bytes.ofString (kind.suffix scenario.extension)).length := by
      cases kind with
      | merged =>
        cases hextension : scenario.extension with
        | none => decide
        | some extension =>
          rw [Kind.suffix, Bytes.ofString_append, List.mem_append, List.length_append]
          exact ⟨not_or.2 ⟨by decide, h.extension extension hextension⟩,
            Nat.le_trans (by decide) (Nat.le_add_right _ _)⟩
      | stderr | diff =>
        rw [Kind.suffix]
        decide
    rw [Bytes.ofString_append]
    refine ⟨Path.isName_of_length ?_, fun hmem => ?_⟩
    · rw [List.length_append]
      exact Nat.le_trans hlength (Nat.le_add_left _ _)
    · exact (List.mem_append.1 hmem).elim h.strategy hslash

section Steps
variable (h : Shows start m here (layout start mode folders as))
include h

theorem exists_folder {name : String} (hname : name ∈ folders) : ∃ bits entries,
    m.root.at? (here ++ [Bytes.ofString name]) = some (.dir bits entries) := by
  have hthere := h.below [Bytes.ofString name]
  rw [layout, if_pos (List.mem_map_of_mem hname)] at hthere
  obtain ⟨node, hnode, hbare⟩ := Option.map_eq_some_iff.1 hthere
  obtain ⟨entries, rfl⟩ := Node.exists_dir_of_bare hbare
  exact ⟨_, entries, hnode⟩

theorem folder_missing {name : String} (hname : name ∉ folders) :
    m.root.at? (here ++ [Bytes.ofString name]) = none := by
  have hthere := h.below [Bytes.ofString name]
  rwa [layout, if_neg (by simpa using hname), Option.map_eq_none_iff] at hthere

variable (hdir : start.resolve dir = .ok ⟨here, some (.dir mode [])⟩)
include hdir

theorem shows_folder (hcwd : start.HasCwd) {name : String}
    (hname : Path.IsName (Bytes.ofString name)) (hslash : Path.slash ∉ Bytes.ofString name)
    (hdoes : FileAction.Does (makeDirs (dir.join (Bytes.ofString name))) m (.ok ()) after) :
    Shows start after here (layout start mode (folders ++ [name]) as) := by
  obtain ⟨others, hresolve⟩ := resolve_dir_of_ways hdir h.ways h.cwd
  by_cases hmem : name ∈ folders
  · obtain ⟨bits, entries, hsome⟩ := exists_folder h hmem
    rcases makeDirs_join hresolve hslash hname (h.hasCwd hcwd) (by simp [hsome]) hdoes with
      ⟨hnone, -⟩ | ⟨-, rfl⟩
    · exact nomatch hnone.symm.trans hsome
    · rwa [layout_again hmem]
  · have hnone := folder_missing h hmem
    rcases makeDirs_join hresolve hslash hname (h.hasCwd hcwd) (by simp [hnone]) hdoes with
      ⟨-, rfl⟩ | ⟨⟨bits, entries, hsome⟩, -⟩
    · have hhere : m.root.at? here = some (.dir mode others) :=
        (Node.node_of_resolve hresolve).symm
      rw [layout_folder, h.granted_eq]
      exact h.put (fun _ hold => nomatch hnone.symm.trans hold) rfl (Node.at?_put_some hhere)
        (Node.keeps_put hnone _).ways
    · exact nomatch hnone.symm.trans hsome

theorem shows_file {a : Artifact} (hfolder : a.folder ∈ folders)
    (hname : Path.IsName (Bytes.ofString a.folder)) (hslash : Path.slash ∉ Bytes.ofString a.folder)
    (hchild : Path.IsName (Bytes.ofString a.name)) (hflat : Path.slash ∉ Bytes.ofString a.name)
    (hdoes : FileAction.Does (writeFile ((dir.join (Bytes.ofString a.folder)).join
      (Bytes.ofString a.name)) (Bytes.ofString a.content)) m (.ok ()) after) :
    Shows start after here (layout start mode folders (as ++ [a])) := by
  obtain ⟨others, hresolve⟩ := resolve_dir_of_ways hdir h.ways h.cwd
  obtain ⟨_, entries, hmade⟩ := exists_folder h hfolder
  have hfile : (m.root.at? (here ++ a.place)).map Node.bare = (latest as a.place).map fun a =>
      .file (Bytes.ofString a.content) (start.granted 0o666) := h.below a.place
  have hbare : ∀ node, m.root.at? (here ++ a.place) = some node → ∃ content,
      node = .file content (start.granted 0o666) := by
    intro node hnode
    rw [hnode] at hfile
    obtain ⟨old, -, hold⟩ := Option.map_eq_some_iff.1 hfile.symm
    exact ⟨_, Node.eq_file_of_bare hold.symm⟩
  obtain ⟨old, bits, hopens, rfl⟩ := writeFile_join_join hresolve hslash hname hmade hchild hflat
    (fun special hspecial => by
      obtain ⟨_, hnode⟩ := hbare _ hspecial
      exact nomatch hnode) hdoes
  have hbits : bits = start.granted 0o666 := by
    cases hopens with
    | existing hplace =>
      obtain ⟨_, hnode⟩ := hbare _ (Node.node_of_resolve hplace).symm
      exact (Node.file.inj hnode).2
    | new => exact h.granted_eq 0o666
  subst hbits
  rw [layout_file]
  refine h.put (fun node hnode => ?_) rfl hopens.at?_put hopens.keepsWays
  obtain ⟨_, rfl⟩ := hbare node hnode
  rfl

end Steps

def foldersOf (corpus : Corpus) (runs : List Run) : List String :=
  runs.filterMap fun run => (corpus.get? run.scenario).map (·.name)

theorem does_writeRun (hscenario : corpus.get? run.scenario = some scenario)
    (hdoes : FileAction.Does (writeRun dir corpus run) m (.ok n) after) : ∃ between,
      FileAction.Does (makeDirs (dir.join (Bytes.ofString scenario.name))) m (.ok ()) between ∧
      FileAction.Does ((files scenario run).forM fun file =>
        writeFile ((dir.join (Bytes.ofString scenario.name)).join (Bytes.ofString file.1))
          (Bytes.ofString file.2)) between (.ok ()) after ∧
      n = (files scenario run).length := by
  rw [writeRun, hscenario] at hdoes
  obtain ⟨_, between, hmake, hdoes⟩ := hdoes.exists_of_bind
  obtain ⟨_, between', hwrite, hdoes⟩ := hdoes.exists_of_bind
  obtain ⟨hcount, rfl⟩ := FileAction.does_pure_iff.1 hdoes
  exact ⟨between, hmake, hwrite, Except.ok.inj hcount⟩

theorem does_writeRun_missing (hscenario : corpus.get? run.scenario = none)
    (hdoes : FileAction.Does (writeRun dir corpus run) m (.ok n) after) : n = 0 ∧ after = m := by
  rw [writeRun, hscenario] at hdoes
  obtain ⟨hcount, rfl⟩ := FileAction.does_pure_iff.1 hdoes
  exact ⟨Except.ok.inj hcount, rfl⟩

section Runs
variable (hdir : start.resolve dir = .ok ⟨here, some (.dir mode [])⟩) (hcwd : start.HasCwd)
include hdir

theorem shows_files {left : List (String × String)}
    (h : Shows start m here (layout start mode folders as)) (hfolder : scenario.name ∈ folders)
    (hname : Path.IsName (Bytes.ofString scenario.name))
    (hslash : Path.slash ∉ Bytes.ofString scenario.name)
    (hleft : ∀ file ∈ left, Path.IsName (Bytes.ofString file.1) ∧
      Path.slash ∉ Bytes.ofString file.1)
    (hdoes : FileAction.Does (left.forM fun file =>
      writeFile ((dir.join (Bytes.ofString scenario.name)).join (Bytes.ofString file.1))
        (Bytes.ofString file.2)) m (.ok ()) after) :
    Shows start after here (layout start mode folders
      (as ++ left.map fun file => ⟨scenario.name, file.1, file.2⟩)) := by
  induction left generalizing m as with
  | nil =>
    obtain ⟨-, rfl⟩ := FileAction.does_pure_iff.1 hdoes
    rwa [List.map_nil, List.append_nil]
  | cons file left ih =>
    obtain ⟨⟨hchild, hflat⟩, hrest⟩ := List.forall_mem_cons.1 hleft
    obtain ⟨_, between, hwrite, hdoes⟩ := hdoes.exists_of_bind
    have hfirst := shows_file h hdir (a := ⟨scenario.name, file.1, file.2⟩) hfolder hname hslash
      hchild hflat hwrite
    rw [List.map_cons, List.append_cons]
    exact ih hfirst hrest hdoes

include hcwd

theorem shows_run (h : Shows start m here (layout start mode folders as))
    (hplain : ∀ scenario, corpus.get? run.scenario = some scenario → Plain scenario run)
    (hdoes : FileAction.Does (writeRun dir corpus run) m (.ok n) after) :
    Shows start after here (layout start mode (folders ++ foldersOf corpus [run])
      (as ++ artifactsOf corpus run)) := by
  rw [foldersOf, artifactsOf]
  cases hscenario : corpus.get? run.scenario with
  | none =>
    obtain ⟨-, rfl⟩ := does_writeRun_missing hscenario hdoes
    simpa [hscenario] using h
  | some scenario =>
    have hnames := hplain scenario hscenario
    obtain ⟨between, hmake, hwrite, -⟩ := does_writeRun hscenario hdoes
    have hfolder := shows_folder h hdir hcwd hnames.folder hnames.flat hmake
    have hfiles := shows_files hdir hfolder (by simp) hnames.folder hnames.flat
      (fun file hmem => hnames.artifact (List.mem_map_of_mem hmem)) hwrite
    simpa [hscenario, artifacts] using hfiles

theorem shows_runs {counts : List Nat} (h : Shows start m here (layout start mode folders as))
    (hplain : ∀ run ∈ runs, ∀ scenario, corpus.get? run.scenario = some scenario →
      Plain scenario run)
    (hdoes : FileAction.Does (runs.mapM (writeRun dir corpus)) m (.ok counts) after) :
    Shows start after here (layout start mode (folders ++ foldersOf corpus runs)
      (as ++ promised corpus runs)) := by
  induction runs generalizing m folders as counts with
  | nil =>
    obtain ⟨-, rfl⟩ := FileAction.does_pure_iff.1 hdoes
    simpa [foldersOf, promised] using h
  | cons run runs ih =>
    obtain ⟨hrun, hruns⟩ := List.forall_mem_cons.1 hplain
    rw [List.mapM_cons] at hdoes
    obtain ⟨count, between, hfirst, hdoes⟩ := hdoes.exists_of_bind
    obtain ⟨counts, between', hrest, hdoes⟩ := hdoes.exists_of_bind
    obtain ⟨-, rfl⟩ := FileAction.does_pure_iff.1 hdoes
    have hshows := ih (shows_run hdir hcwd h hrun hfirst) hruns hrest
    have hfolders : foldersOf corpus (run :: runs) =
        foldersOf corpus [run] ++ foldersOf corpus runs := List.filterMap_append (l := [run]) ..
    rw [hfolders, promised_cons, ← List.append_assoc, ← List.append_assoc]
    exact hshows

end Runs

theorem length_of_writeRun (hdoes : FileAction.Does (writeRun dir corpus run) m (.ok n) after) :
    n = (artifactsOf corpus run).length := by
  rw [artifactsOf]
  cases hscenario : corpus.get? run.scenario with
  | none => exact (does_writeRun_missing hscenario hdoes).1
  | some scenario =>
    obtain ⟨_, -, -, rfl⟩ := does_writeRun hscenario hdoes
    exact (List.length_map _).symm

theorem foldl_of_runs {counts : List Nat} (k : Nat)
    (hdoes : FileAction.Does (runs.mapM (writeRun dir corpus)) m (.ok counts) after) :
    counts.foldl (· + ·) k = k + (promised corpus runs).length := by
  induction runs generalizing m counts k with
  | nil =>
    obtain ⟨hcounts, -⟩ := FileAction.does_pure_iff.1 hdoes
    rw [Except.ok.inj hcounts]
    rfl
  | cons run runs ih =>
    rw [List.mapM_cons] at hdoes
    obtain ⟨count, between, hfirst, hdoes⟩ := hdoes.exists_of_bind
    obtain ⟨others, between', hrest, hdoes⟩ := hdoes.exists_of_bind
    obtain ⟨hcounts, rfl⟩ := FileAction.does_pure_iff.1 hdoes
    rw [Except.ok.inj hcounts, List.foldl_cons, ih _ hrest, length_of_writeRun hfirst,
      promised_cons, List.length_append, Nat.add_assoc]

theorem exists_counts (hwrite : FileAction.Does (write dir corpus runs) m (.ok n) after) :
    ∃ counts, FileAction.Does (runs.mapM (writeRun dir corpus)) m (.ok counts) after ∧
      n = counts.foldl (· + ·) 0 := by
  obtain ⟨counts, between, hruns, hdone⟩ := hwrite.exists_of_bind
  obtain ⟨hcount, rfl⟩ := FileAction.does_pure_iff.1 hdone
  exact ⟨counts, hruns, Except.ok.inj hcount⟩

theorem layout_eq_file_iff {content : Bytes} {bits : Nat} :
    layout start mode folders as location = some (.file content bits) ↔
      bits = start.granted 0o666 ∧
        ∃ a, latest as location = some a ∧ Bytes.ofString a.content = content := by
  have hshort : location.length ≠ 2 → latest as location = none := by
    intro hlength
    refine Option.eq_none_iff_forall_ne_some.2 fun a ha => hlength ?_
    obtain ⟨-, rfl⟩ := mem_of_latest ha
    rfl
  match location with
  | [] => simp [layout, hshort]
  | [folder] =>
    rw [layout, hshort (by simp)]
    split <;> simp
  | first :: second :: rest =>
    simp only [layout, Option.map_eq_some_iff, Node.file.injEq]
    constructor
    · rintro ⟨a, ha, hcontent, hbits⟩
      exact ⟨hbits.symm, a, ha, hcontent⟩
    · rintro ⟨hbits, a, ha, hcontent⟩
      exact ⟨a, ha, hcontent, hbits.symm⟩

structure HoldsFilesAt (m : Machine) (here : Location) (locations : List Location) : Prop where
  distinct : locations.Nodup
  mem_iff : ∀ location, location ∈ locations ↔
    ∃ content bits, m.root.at? (here ++ location) = some (.file content bits)

section Written
variable (h : Shows start m here (layout start mode folders as))
include h

theorem file_iff {content : Bytes} {bits : Nat} :
    m.root.at? (here ++ location) = some (.file content bits) ↔ bits = start.granted 0o666 ∧
      ∃ a, latest as location = some a ∧ Bytes.ofString a.content = content := by
  rw [← Node.map_bare_eq_file_iff, h.below, layout_eq_file_iff]

theorem mem_places_iff : location ∈ as.map Artifact.place ↔
    ∃ content bits, m.root.at? (here ++ location) = some (.file content bits) := by
  rw [← isSome_latest_iff, Option.isSome_iff_exists]
  constructor
  · rintro ⟨a, ha⟩
    exact ⟨_, _, (file_iff h).2 ⟨rfl, a, ha, rfl⟩⟩
  · rintro ⟨content, bits, hfile⟩
    obtain ⟨-, a, ha, -⟩ := (file_iff h).1 hfile
    exact ⟨a, ha⟩

theorem holdsFiles_iff :
    (∃ locations, HoldsFilesAt m here locations ∧ as.length = locations.length) ↔
      (as.map Artifact.place).Nodup := by
  constructor
  · rintro ⟨locations, hholds, hlength⟩
    have hsubset : locations ⊆ as.map Artifact.place := fun location hmem =>
      (mem_places_iff h).2 ((hholds.mem_iff location).1 hmem)
    -- as many places without repetition as there are files, all of them places of files
    have hperm := (List.subperm_of_subset hholds.distinct hsubset).perm_of_length_le
      (by rw [List.length_map, hlength])
    exact hperm.nodup_iff.1 hholds.distinct
  · intro hnodup
    exact ⟨_, ⟨hnodup, fun location => mem_places_iff h⟩, (List.length_map _).symm⟩

end Written

def Clashing (corpus : Corpus) (runs : List Run) : Prop :=
  ∃ one ∈ runs, ∃ other ∈ runs, Clash corpus one other

section Result
variable (hwrite : FileAction.Does (write dir corpus runs) m (.ok n) after)
include hwrite

theorem length_of_write : n = (promised corpus runs).length := by
  obtain ⟨counts, hruns, rfl⟩ := exists_counts hwrite
  rw [foldl_of_runs 0 hruns, Nat.zero_add]

variable (hdir : m.resolve dir = .ok ⟨here, some (.dir mode [])⟩) (hcwd : m.HasCwd)
  (hplain : ∀ run ∈ runs, ∀ scenario, corpus.get? run.scenario = some scenario →
    Plain scenario run)
include hdir hcwd hplain

theorem shows_write :
    Shows m after here (layout m mode (foldersOf corpus runs) (promised corpus runs)) := by
  obtain ⟨counts, hruns, -⟩ := exists_counts hwrite
  have hempty := Shows.empty (Node.node_of_resolve hdir).symm
  rw [← layout_nil m mode] at hempty
  exact shows_runs hdir hcwd hempty hplain hruns

variable (hpairs : (runs.map fun run => (run.scenario, run.strategy)).Nodup)
include hpairs

theorem holdsFiles_write :
    (∃ locations, HoldsFilesAt after here locations ∧ n = locations.length) ↔
      ¬Clashing corpus runs := by
  rw [length_of_write hwrite, holdsFiles_iff (shows_write hwrite hdir hcwd hplain)]
  exact nodup_places_iff hpairs

/-- What writing the files of all runs leaves in an empty directory: in each place the file that was
written last. Each run has its files there, and they are as many as the count says, exactly if no
two runs clash. -/
theorem write_lays_out :
    n = (promised corpus runs).length ∧
    Shows m after here (layout m mode (foldersOf corpus runs) (promised corpus runs)) ∧
    ((∃ locations, HoldsFilesAt after here locations ∧ n = locations.length) ↔
      ¬Clashing corpus runs) ∧
    (¬Clashing corpus runs → ∀ location content bits,
      after.root.at? (here ++ location) = some (.file content bits) ↔ bits = m.granted 0o666 ∧
        ∃ run ∈ runs, ∃ scenario kind a, corpus.get? run.scenario = some scenario ∧
          Promises scenario run kind a ∧ a.place = location ∧
          Bytes.ofString a.content = content) := by
  have hshows := shows_write hwrite hdir hcwd hplain
  refine ⟨length_of_write hwrite, hshows, holdsFiles_write hwrite hdir hcwd hplain hpairs,
    fun hclash location content bits => ?_⟩
  have hnodup := (nodup_places_iff hpairs).2 hclash
  rw [file_iff hshows]
  refine and_congr_right fun _ => ?_
  simp only [latest_eq_some_iff hnodup, mem_promised_iff]
  constructor
  · rintro ⟨a, ⟨⟨run, hrun, scenario, kind, hscenario, ha⟩, hplace⟩, hcontent⟩
    exact ⟨run, hrun, scenario, kind, a, hscenario, ha, hplace, hcontent⟩
  · rintro ⟨run, hrun, scenario, kind, a, hscenario, ha, hplace, hcontent⟩
    exact ⟨a, ⟨⟨run, hrun, scenario, kind, hscenario, ha⟩, hplace⟩, hcontent⟩

end Result

def emptyReport : Machine where
  root := .dir 0o755 [(Bytes.ofString "report", .dir 0o755 [])]
  cwd := []
  searchPath := none
  mask := 0o022
  strays := []

def diffCorpus : Corpus where
  byName := ⟨[("S", ⟨"S", .success, "", "", "", some "a\n", some "diff"⟩)],
    List.pairwise_singleton _ _⟩
  named := by simp

theorem plain_diffCorpus {runs : List Run}
    (hruns : ∀ run ∈ runs, Path.slash ∉ Bytes.ofString run.strategy) :
    ∀ run ∈ runs, ∀ scenario, diffCorpus.get? run.scenario = some scenario →
      Plain scenario run := by
  intro run hrun scenario hscenario
  have hmem := (Corpus.mem_scenarios_iff_get?.1 hscenario).1
  obtain rfl : scenario = ⟨"S", .success, "", "", "", some "a\n", some "diff"⟩ :=
    List.mem_singleton.1 hmem
  exact ⟨⟨by decide, by decide, by decide⟩, by decide, hruns run hrun, by decide⟩

def apartRuns : List Run :=
  [⟨"S", "X", .success, "a\n", "", .agrees⟩, ⟨"S", "Y", .success, "b\n", "warning\n", .differs⟩]

theorem apartRuns_laid_out : ∃ after,
    FileAction.Does (write (Bytes.ofString "report") diffCorpus apartRuns) emptyReport (.ok 4)
      after ∧
    ∃ locations, HoldsFilesAt after [Bytes.ofString "report"] locations ∧
      4 = locations.length := by
  have hpairs : (apartRuns.map fun run => (run.scenario, run.strategy)).Nodup := by decide
  have hclash : ¬Clashing diffCorpus apartRuns := (nodup_places_iff hpairs).1 (by decide)
  have hdir : emptyReport.resolve (Bytes.ofString "report") =
      .ok ⟨[Bytes.ofString "report"], some (.dir 0o755 [])⟩ := rfl
  obtain ⟨after, hdoes⟩ : ∃ after, FileAction.Does
      (write (Bytes.ofString "report") diffCorpus apartRuns) emptyReport (.ok 4) after := ⟨_, rfl⟩
  obtain ⟨-, -, hcounted, -⟩ :=
    write_lays_out hdoes hdir ⟨_, _, rfl⟩ (plain_diffCorpus (by decide)) hpairs
  exact ⟨after, hdoes, hcounted.2 hclash⟩

def clashingRuns : List Run :=
  [⟨"S", "A.merged", .success, "b\n", "", .differs⟩, ⟨"S", "A", .success, "a\n", "", .agrees⟩]

theorem clashingRuns_overwritten : ¬∀ corpus runs dir m after here mode n,
    FileAction.Does (write dir corpus runs) m (.ok n) after →
    m.resolve dir = .ok ⟨here, some (.dir mode [])⟩ → m.HasCwd →
    (∀ run ∈ runs, ∀ scenario, corpus.get? run.scenario = some scenario → Plain scenario run) →
    (runs.map fun run => (run.scenario, run.strategy)).Nodup →
    ∃ locations, HoldsFilesAt after here locations ∧ n = locations.length := by
  intro hall
  have hplain := @plain_diffCorpus clashingRuns (by decide)
  have hpairs : (clashingRuns.map fun run => (run.scenario, run.strategy)).Nodup := by decide
  have hdir : emptyReport.resolve (Bytes.ofString "report") =
      .ok ⟨[Bytes.ofString "report"], some (.dir 0o755 [])⟩ := rfl
  have hcwd : emptyReport.HasCwd := ⟨_, _, rfl⟩
  obtain ⟨after, hdoes⟩ : ∃ after, FileAction.Does
      (write (Bytes.ofString "report") diffCorpus clashingRuns) emptyReport (.ok 3) after :=
    ⟨_, rfl⟩
  have hcounted := hall _ _ _ _ _ _ _ _ hdoes hdir hcwd hplain hpairs
  have hapart := (holdsFiles_write hdoes hdir hcwd hplain hpairs).1 hcounted
  exact absurd ((nodup_places_iff hpairs).2 hapart) (by decide)

end MergeTrial.Artifacts
