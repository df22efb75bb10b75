import MergeTrial.CommandLine.Perform
import MergeTrial.Proofs.CommandLine.Steps
import MergeTrial.Proofs.FileTree.Saving
import MergeTrial.Proofs.Settings.RoundTrip

/-! Settings on the way to a file and back. -/

namespace MergeTrial

namespace CommandLine
open MergeTrial.CommandLine.Action
variable {m : Type → Type} [Monad m] [LawfulMonad m] {before after : Machine} {path : String}
  {s : Settings} {t : Transcript}

theorem ends_readSettings (htext : after.readText (Bytes.ofString path) = .ok s.write)
    (hs : s.InRange) : Ends (readSettings path : Action m Settings) t after (.ok s) t after := by
  have hread : Ends (readText (Bytes.ofString path)) t after (.ok (.ok s.write)) t after :=
    htext ▸ ends_readText (m := m) (Bytes.ofString path)
  refine hread.bind ?_
  simp only [Settings.read?_write hs]
  exact ends_pure s

/-- Settings that were saved to a file are read from it with all their parts, and saving what was
read leaves the file as it is. -/
theorem settings_survive_saving (hs : s.InRange) (hcwd : before.HasCwd)
    (h : FileAction.Does (Machine.saveFile (Bytes.ofString path) s.write) before (.ok ()) after)
    {location : Location} {content : Bytes} {mode : Nat}
    (hfile : after.resolve (Bytes.ofString path) = .ok ⟨location, some (.file content mode)⟩)
    (hread : Right.read.isIn mode = true) (t : Transcript) :
    content = Bytes.ofString s.write ∧
      Ends (readSettings path : Action m Settings) t after (.ok s) t after ∧
      (Right.write.isIn mode = true → Ends (do
        let loaded ← readSettings path
        Action.onFiles (Machine.saveFile (Bytes.ofString path) loaded.write) : Action m Unit)
        t after (.ok ()) t after) := by
  obtain ⟨between, hgrows, hwrite⟩ := Machine.exists_writeFile_of_saveFile h
  obtain rfl := Machine.content_of_writeFile hwrite hfile
  have hloads : ∀ t, Ends (readSettings path : Action m Settings) t after (.ok s) t after :=
    fun t => ends_readSettings ((Machine.readText_of_resolve hfile).trans
      (Machine.text_file_eq_ok_iff.2 ⟨hread, rfl⟩)) hs
  refine ⟨rfl, hloads t, fun hwritable => (hloads t).bind (ends_onFiles ?_)⟩
  have hcwd' : after.HasCwd := (hcwd.of_ways hgrows.keeps.ways hgrows.cwd).of_writeFile hwrite
  refine (Machine.does_saveFile_iff hfile ?_ hcwd' s.write).2
    (Machine.does_writeFile_again hfile hwritable hcwd')
  exact fun node hnode => Option.some.inj hnode ▸ rfl

def variedSettings : Settings where
  pass := ⟨wordMax, 0, .trueNegative, some "scratch dir"⟩
  log := ⟨some "logs", ""⟩
  tools := [
    ⟨"\"\u0001é", [["a \\", ""], []], some (-2147483648, 2147483647), true, some [], 0, some ""⟩,
    ⟨"", [], none, false, none, wordMax, none⟩]

theorem inRange_variedSettings : variedSettings.InRange where
  pass := ⟨Nat.le_refl _, Nat.zero_le _⟩
  tools := by
    intro spec hspec
    rcases List.mem_pair.1 hspec with rfl | rfl
    · exact ⟨by decide, Nat.zero_le _⟩
    · exact ⟨nofun, Nat.le_refl _⟩

def bareMachine : Machine := ⟨.dir 0o755 [], [], none, 0o022, []⟩

def savedMachine : Machine :=
  bareMachine.put [Bytes.ofString "varied.json"]
    (some (.file (Bytes.ofString variedSettings.write) 0o644))

theorem variedSettings_survive :
    FileAction.Does (Machine.saveFile (Bytes.ofString "varied.json") variedSettings.write)
        bareMachine (.ok ()) savedMachine ∧
      Ends (readSettings "varied.json" : Action Id Settings) .empty savedMachine
        (.ok variedSettings) .empty savedMachine := by
  have hsaved : FileAction.Does (Machine.saveFile (Bytes.ofString "varied.json")
      variedSettings.write) bareMachine (.ok ()) savedMachine := rfl
  have hfile : savedMachine.resolve (Bytes.ofString "varied.json") =
      .ok ⟨[Bytes.ofString "varied.json"],
        some (.file (Bytes.ofString variedSettings.write) 0o644)⟩ := rfl
  have hcwd : bareMachine.HasCwd := ⟨_, _, rfl⟩
  have hsurvives := settings_survive_saving (m := Id) inRange_variedSettings hcwd hsaved hfile rfl
    .empty
  exact ⟨hsaved, hsurvives.2.1⟩

end CommandLine
end MergeTrial
