import MergeTrial.Tool.Session

/-! What is done in a run of actions on the machine. An account of an action says what comes of it
and, in order, which walks over candidates and which processes it takes. -/

namespace MergeTrial

inductive Deed where
  | walk
  | launch (launch : Launch)
  deriving DecidableEq

section
variable {m : Type → Type} [Monad m] {α β : Type}

def Deed.note (deed : Deed) : StateT Machine (StateT (List Deed) m) Unit :=
  StateT.lift (modify (· ++ [deed]))

def unnoted (action : StateT Machine m α) : StateT Machine (StateT (List Deed) m) α :=
  fun machine => StateT.lift (action.run machine)

def Launcher.noting (launch : Launcher m) : Launcher (StateT (List Deed) m) := fun process => do
  (Deed.launch process).note
  unnoted (launch process)

/-- The account of an action, which says what comes of it and what is done: nothing else comes of
the action, and that is what is noted if notes are taken. -/
structure Accounts (account : StateT Machine m (α × List Deed)) (plain : StateT Machine m α)
    (noted : StateT Machine (StateT (List Deed) m) α) : Prop where
  plain_eq : plain = Prod.fst <$> account
  run_noted : ∀ machine notes, (noted.run machine).run notes =
    (fun ended => ((ended.1.1, ended.2), notes ++ ended.1.2)) <$> account.run machine

variable [LawfulMonad m] {x : StateT Machine m (α × List Deed)} {plain : StateT Machine m α}
  {noted : StateT Machine (StateT (List Deed) m) α}

theorem Deed.run_note (deed : Deed) (machine : Machine) (notes : List Deed) :
    ((deed.note (m := m)).run machine).run notes = pure (((), machine), notes ++ [deed]) := by
  simp [note]

theorem run_unnoted (action : StateT Machine m α) (machine : Machine) (notes : List Deed) :
    ((unnoted action).run machine).run notes =
      (fun ended => (ended, notes)) <$> action.run machine :=
  (map_eq_pure_bind _ _).symm

namespace Accounts

theorem pure (a : α) : Accounts (Pure.pure (a, [])) (Pure.pure a : StateT Machine m α)
    (Pure.pure a) where
  plain_eq := by simp
  run_noted machine notes := by simp

theorem bind {β : Type} {y : α → StateT Machine m (β × List Deed)} {next : α → StateT Machine m β}
    {notedNext : α → StateT Machine (StateT (List Deed) m) β} (h : Accounts x plain noted)
    (hnext : ∀ a, Accounts (y a) (next a) (notedNext a)) :
    Accounts (do
      let (a, one) ← x
      let (b, more) ← y a
      return (b, one ++ more)) (plain >>= next) (noted >>= notedNext) where
  plain_eq := by
    rw [h.plain_eq, bind_map_left, map_bind]
    refine bind_congr fun made => ?_
    rw [(hnext made.1).plain_eq, map_bind, map_eq_pure_bind]
    exact bind_congr fun _ => by simp
  run_noted machine notes := by
    rw [StateT.run_bind, StateT.run_bind, h.run_noted, bind_map_left, StateT.run_bind, map_bind]
    refine bind_congr fun ended => ?_
    rw [(hnext ended.1.1).run_noted, StateT.run_bind, map_bind, map_eq_pure_bind]
    refine bind_congr fun _ => ?_
    rw [StateT.run_pure, map_pure, List.append_assoc]

theorem map {β : Type} (f : α → β) (h : Accounts x plain noted) :
    Accounts ((fun made => (f made.1, made.2)) <$> x) (f <$> plain) (f <$> noted) where
  plain_eq := by
    rw [h.plain_eq, Functor.map_map, Functor.map_map]
  run_noted machine notes := by
    rw [StateT.run_map, StateT.run_map, h.run_noted, StateT.run_map, Functor.map_map,
      Functor.map_map]

theorem mapM {β : Type} {account : β → StateT Machine m (α × List Deed)}
    {plain : β → StateT Machine m α} {noted : β → StateT Machine (StateT (List Deed) m) α}
    (h : ∀ b, Accounts (account b) (plain b) (noted b)) (bs : List β) :
    Accounts ((fun made => (made.map Prod.fst, made.flatMap Prod.snd)) <$> bs.mapM account)
      (bs.mapM plain) (bs.mapM noted) := by
  induction bs with
  | nil => simpa using Accounts.pure (m := m) ([] : List α)
  | cons b rest ih =>
    have hcons := (h b).bind fun a => ih.bind fun others => Accounts.pure (a :: others)
    simpa [List.mapM_cons] using hcons

theorem unnoted (action : StateT Machine m α) :
    Accounts ((·, []) <$> action) action (MergeTrial.unnoted action) where
  plain_eq := by
    rw [Functor.map_map]
    exact (id_map action).symm
  run_noted machine notes := by
    rw [run_unnoted, StateT.run_map, Functor.map_map]
    simp only [List.append_nil]

theorem launch (launch : Launcher m) (process : Launch) :
    Accounts ((·, [.launch process]) <$> launch process) (launch process)
      (launch.noting process) where
  plain_eq := by
    rw [Functor.map_map]
    exact (id_map _).symm
  run_noted machine notes := by
    rw [Launcher.noting, StateT.run_bind, StateT.run_bind, Deed.run_note, pure_bind, run_unnoted,
      StateT.run_map, Functor.map_map]

end Accounts
end
theorem run_lift_bind {m : Type → Type} [Monad m] [LawfulMonad m] {α β : Type}
    (action : StateM Machine α) (machine : Machine) (next : α → StateT Machine m β) :
    (Machine.lift action >>= next).run machine =
      (next (action.run machine).1).run (action.run machine).2 :=
  pure_bind ..

namespace Staging
variable {m : Type → Type} [Monad m] {α : Type}

def accountWithin (root : Option Path) (scenario : Scenario)
    (use : StagedPaths → StateT Machine m (α × List Deed)) :
    StateT Machine m (Except FileFault α × List Deed) := do
  match ← within root scenario use with
  | .error fault => return (.error fault, [])
  | .ok (a, deeds) => return (.ok a, deeds)

def staged (root : Option Path) (scenario : Scenario) (machine : Machine) :
    Except FileFault Scratch × Machine :=
  match ((prepareRoot root).bind makeScratch).run.run machine with
  | (.error fault, after) => (.error fault, after)
  | (.ok scratch, between) =>
    match (writeInputs scratch scenario).run.run between with
    | (.error fault, after) => (.error fault, ((remove scratch).run after).2)
    | (.ok (), after) => (.ok scratch, after)

variable [LawfulMonad m]

theorem run_within_eq (root : Option Path) (scenario : Scenario) (machine : Machine)
    (use : StagedPaths → StateT Machine m α) : (within root scenario use).run machine =
      match staged root scenario machine with
      | (.error fault, after) => pure (.error fault, after)
      | (.ok scratch, between) =>
        (fun ended => (.ok ended.1, ((remove scratch).run ended.2).2)) <$>
          (use (paths scratch scenario)).run between := by
  rw [within, run_lift_bind, staged]
  obtain ⟨made, between⟩ := ((prepareRoot root).bind makeScratch).run.run machine
  cases made with
  | error fault => rfl
  | ok scratch =>
    simp only
    rw [run_lift_bind]
    obtain ⟨written, after⟩ := (writeInputs scratch scenario).run.run between
    cases written with
    | error fault => exact run_lift_bind ..
    | ok =>
      exact (bind_congr fun ended => run_lift_bind ..).trans (map_eq_pure_bind _ _).symm

theorem accounts_within {account : StagedPaths → StateT Machine m (α × List Deed)}
    {plain : StagedPaths → StateT Machine m α}
    {noted : StagedPaths → StateT Machine (StateT (List Deed) m) α} (root : Option Path)
    (scenario : Scenario) (h : ∀ paths, Accounts (account paths) (plain paths) (noted paths)) :
    Accounts (accountWithin root scenario account) (within root scenario plain)
      (within root scenario noted) := by
  constructor
  case plain_eq =>
    refine StateT.ext fun machine => ?_
    rw [accountWithin, StateT.run_map, StateT.run_bind, run_within_eq, run_within_eq]
    obtain ⟨made, between⟩ := staged root scenario machine
    cases made with
    | error fault => simp
    | ok scratch => simp [(h _).plain_eq]
  case run_noted =>
    intro machine notes
    rw [accountWithin, StateT.run_bind, run_within_eq, run_within_eq]
    obtain ⟨made, between⟩ := staged root scenario machine
    cases made with
    | error fault => simp
    | ok scratch => simp [(h _).run_noted]

end Staging

end MergeTrial
