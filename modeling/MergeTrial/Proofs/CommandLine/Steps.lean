import MergeTrial.CommandLine.Action
import MergeTrial.Proofs.FileTree.Writing

/-! What the actions of the program come to, as long as they start no process: a result, what was
printed and logged, and the machine as they leave it. -/

namespace MergeTrial.CommandLine.Action
variable {m : Type → Type} [Monad m] {α β : Type} {t t' t'' : Transcript} {s s' s'' : Machine}

/-- The action comes to the result; it leaves this behind, also when it fails. -/
def Ends (action : Action m α) (t : Transcript) (s : Machine) (result : Outcome α)
    (t' : Transcript) (s' : Machine) : Prop :=
  (action.run.run t).run s = pure ((result, t'), s')

theorem ends_pure (value : α) : Ends (pure value : Action m α) t s (.ok value) t s := rfl

theorem ends_throw (fault : Fault) : Ends (throw fault : Action m α) t s (.error fault) t s := rfl

variable [LawfulMonad m]

theorem Ends.bind {first : Action m α} {next : α → Action m β} {value : α} {result : Outcome β}
    (h : Ends first t s (.ok value) t' s') (hnext : Ends (next value) t' s' result t'' s'') :
    Ends (first >>= next) t s result t'' s'' := by
  unfold Ends at *
  rw [ExceptT.run_bind, StateT.run_bind, StateT.run_bind, h, pure_bind]
  exact hnext

theorem Ends.bind_error {first : Action m α} {next : α → Action m β} {fault : Fault}
    (h : Ends first t s (.error fault) t' s') : Ends (first >>= next) t s (.error fault) t' s' := by
  unfold Ends at *
  rw [ExceptT.run_bind, StateT.run_bind, StateT.run_bind, h, pure_bind]
  rfl

theorem Ends.lift {action : Action m α} {result : Outcome α} (h : Ends action t s result t' s') :
    Ends (ExceptT.lift action.run : Action m (Outcome α)) t s (.ok result) t' s' := by
  unfold Ends at *
  rw [ExceptT.run_lift, StateT.run_map, StateT.run_map, h, map_pure]

theorem ends_onMachine {action : StateT Machine m α} {value : α}
    (h : action.run s = pure (value, s')) : Ends (onMachine action) t s (.ok value) t s' := by
  unfold Ends onMachine
  rw [ExceptT.run_lift, StateT.run_map, StateT.run_map, StateT.run_lift, StateT.run_bind, h,
    pure_bind]
  exact map_pure _ _

theorem ends_machine : Ends (machine : Action m Machine) t s (.ok s) t s := ends_onMachine rfl

theorem ends_node? (path : Path) :
    Ends (node? path : Action m (Option Node)) t s (.ok (s.node? path)) t s :=
  ends_machine.bind (ends_pure _)

theorem ends_readText (path : Path) :
    Ends (readText path : Action m (Except FileFault String)) t s (.ok (s.readText path)) t s :=
  ends_machine.bind (ends_pure _)

theorem ends_files {action : FileAction α} {result : Except FileFault α}
    (h : FileAction.Does action s result s') : Ends (onMachine (Machine.lift action.run) :
      Action m (Except FileFault α)) t s (.ok result) t s' :=
  ends_onMachine (congrArg pure h)

theorem ends_onFiles {action : FileAction α} {value : α}
    (h : FileAction.Does action s (.ok value) s') :
    Ends (onFiles action : Action m α) t s (.ok value) t s' :=
  (ends_files h).bind (ends_pure value)

theorem ends_onFiles_error {action : FileAction α} {fault : FileFault}
    (h : FileAction.Does action s (.error fault) s') :
    Ends (onFiles action : Action m α) t s (.error (.file fault)) t s' :=
  (ends_files h).bind (ends_throw _)

theorem ends_modify (change : Transcript → Transcript) :
    Ends (modify change : Action m Unit) t s (.ok ()) (change t) s := by
  have hlift : (modify change : Action m Unit) =
      ExceptT.lift (modify change : StateT Transcript (StateT Machine m) Unit) := rfl
  unfold Ends
  rw [hlift, ExceptT.run_lift, StateT.run_map, StateT.run_map, StateT.run_modify]
  exact map_pure _ _

theorem ends_get : Ends (get : Action m Transcript) t s (.ok t) t s := by
  have hlift : (get : Action m Transcript) =
      ExceptT.lift (get : StateT Transcript (StateT Machine m) Transcript) := rfl
  unfold Ends
  rw [hlift, ExceptT.run_lift, StateT.run_map, StateT.run_map, StateT.run_get]
  exact map_pure _ _

theorem ends_say (text : String) : Ends (say text : Action m Unit) t s (.ok ())
    { t with output := t.output ++ text } s := ends_modify _

end MergeTrial.CommandLine.Action
