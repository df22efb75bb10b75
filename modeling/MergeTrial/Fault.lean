import MergeTrial.Comparison

/-! Everything that can stop the program, by cause, and the text shown for each cause. -/

namespace MergeTrial

inductive FileFault where
  | notPermitted
  | missing
  | noDevice
  | badExecutable
  | badDescriptor
  | denied
  | busy
  | occupied
  | notDirectory
  | isDirectory
  | invalid
  | noSpace
  | nameTooLong
  | notEmpty
  | tooManyLinks
  | nulByte
  | nulArgument
  | notText
  deriving DecidableEq, Inhabited

namespace FileFault

def reason : FileFault → String
  | .notPermitted => "Operation not permitted"
  | .missing => "No such file or directory"
  | .noDevice => "No such device or address"
  | .badExecutable => "Exec format error"
  | .badDescriptor => "Bad file descriptor"
  | .denied => "Permission denied"
  | .busy => "Device or resource busy"
  | .occupied => "File exists"
  | .notDirectory => "Not a directory"
  | .isDirectory => "Is a directory"
  | .invalid => "Invalid argument"
  | .noSpace => "No space left on device"
  | .nameTooLong => "File name too long"
  | .notEmpty => "Directory not empty"
  | .tooManyLinks => "Too many levels of symbolic links"
  | .nulByte => "file name contained an unexpected NUL byte"
  | .nulArgument => "nul byte found in provided data"
  | .notText => "stream did not contain valid UTF-8"

def number? : FileFault → Option Nat
  | .notPermitted => some 1
  | .missing => some 2
  | .noDevice => some 6
  | .badExecutable => some 8
  | .badDescriptor => some 9
  | .denied => some 13
  | .busy => some 16
  | .occupied => some 17
  | .notDirectory => some 20
  | .isDirectory => some 21
  | .invalid => some 22
  | .noSpace => some 28
  | .nameTooLong => some 36
  | .notEmpty => some 39
  | .tooManyLinks => some 40
  | .nulByte | .nulArgument | .notText => none

def message (fault : FileFault) : String :=
  match fault.number? with
  | some number => fault.reason ++ s!" (os error {number})"
  | none => fault.reason

end FileFault

inductive Role where
  | ancestor
  | left
  | right
  | expected
  deriving DecidableEq, Inhabited

namespace Role

def name : Role → String
  | .ancestor => "ancestor"
  | .left => "left"
  | .right => "right"
  | .expected => "expected"

end Role

/-- Why a run or a record of one has no verdict. -/
inductive Ambiguity where
  | unknownStatus (text : String)
  | unknownComparison (text : String)
  | otherScenario (name : String)
  | needlessComparison (status : Status) (comparison : Comparison)
  | noted (detail : String)
  deriving DecidableEq, Inhabited

namespace Ambiguity

def message : Ambiguity → String
  | .unknownStatus text => s!"unknown execution status '{text}'"
  | .unknownComparison text => s!"unknown comparison '{text}'"
  | .otherScenario name => s!"run belongs to scenario '{name}'"
  | .needlessComparison status comparison =>
    status.name ++ " run carries comparison " ++ comparison.name
  | .noted detail => detail

end Ambiguity

inductive Fault where
  | corpusMissing (path : String)
  | missingArtifact (scenario role : String)
  | repeatedArtifact (scenario : String) (role : Role) (first second : String)
  | missingLabel (scenario : String)
  | invalidLabel (scenario text : String)
  | orphanLabel (scenario : String)
  | unreadableName (path : String)
  | repeatedScenario (scenario : String)
  | malformedRecords (path : String)
  | unreadable (path : String) (cause : FileFault)
  | unavailable (strategy reason : String)
  | failedRun (scenario strategy reason : String)
  | ambiguous (scenario strategy : String) (cause : Ambiguity)
  | file (cause : FileFault)
  | malformedSettings
  | settingsExist (path : String)
  | unknownStrategies (names : List String)
  | unknownPolicy (text : String)
  -- the program cannot go on, and ends without a word of its own
  | breakdown (reason : String)
  deriving DecidableEq, Inhabited

namespace Fault

def message : Fault → String
  | .corpusMissing path => s!"corpus directory not found: {path}"
  | .missingArtifact scenario role => s!"scenario '{scenario}' is missing its {role} artifact"
  | .repeatedArtifact scenario role first second =>
    s!"scenario '{scenario}' has more than one " ++ role.name ++ s!" artifact: {first} and {second}"
  | .missingLabel scenario => s!"scenario '{scenario}' has no ground-truth label"
  | .invalidLabel scenario text =>
    s!"scenario '{scenario}' has invalid label '{text}' (expected CONFLICT or SUCCESS)"
  | .orphanLabel scenario =>
    s!"label file names scenario '{scenario}' but no such scenario directory exists"
  | .unreadableName path => s!"scenario directory name is not valid UTF-8: {path}"
  | .repeatedScenario scenario => s!"duplicate scenario name '{scenario}'"
  | .malformedRecords path => s!"label file {path} is not valid"
  | .unreadable path cause => s!"failed to read {path}: " ++ cause.message
  | .unavailable strategy reason => s!"strategy '{strategy}' is unavailable: {reason}"
  | .failedRun scenario strategy reason =>
    s!"strategy '{strategy}' failed on scenario '{scenario}': {reason}"
  | .ambiguous scenario strategy cause =>
    s!"cannot classify '{scenario}' for '{strategy}': " ++ cause.message
  | .file cause => cause.message
  | .malformedSettings => "invalid JSON"
  | .settingsExist path => s!"{path} already exists (use --force to overwrite)"
  | .unknownStrategies names => "Unknown strategy: " ++ ", ".intercalate names
  | .unknownPolicy text =>
    s!"unknown policy '{text}' (expected separate, true-negative or false-positive)"
  | .breakdown reason => reason

end Fault

abbrev Outcome (α : Type) := Except Fault α

namespace Outcome
variable {α β : Type}

theorem mapM_eq_ok {f : α → Outcome β} {g : α → β} {xs : List α}
    (h : ∀ x ∈ xs, f x = .ok (g x)) : xs.mapM f = .ok (xs.map g) := by
  induction xs with
  | nil => rfl
  | cons x xs ih =>
    rw [List.mapM_cons, h x List.mem_cons_self, ih fun y hy => h y (List.mem_cons_of_mem x hy)]
    rfl

theorem bind_eq_ok {ε : Type} {x : Except ε α} {f : α → Except ε β} {b : β} :
    (x >>= f) = .ok b ↔ ∃ a, x = .ok a ∧ f a = .ok b := by
  cases x with
  | error e => exact ⟨nofun, nofun⟩
  | ok a => exact ⟨fun h => ⟨a, rfl, h⟩, fun ⟨_, h, hf⟩ => Except.ok.inj h ▸ hf⟩

def fault? : Outcome α → Option Fault
  | .ok _ => none
  | .error fault => some fault

theorem fault?_eq_some_iff {x : Outcome α} {fault : Fault} :
    x.fault? = some fault ↔ x = .error fault := by
  cases x <;> simp [fault?]

theorem fault?_eq_none_iff {x : Outcome α} : x.fault? = none ↔ ∃ a, x = .ok a := by
  cases x <;> simp [fault?]

theorem fault?_bind {x : Outcome α} {f : α → Outcome β} {next : Option Fault}
    (h : ∀ a, x = .ok a → (f a).fault? = next) : (x >>= f).fault? = x.fault?.or next := by
  cases x with
  | error fault => rfl
  | ok a => exact h a rfl

theorem fault?_bind_pure (x : Outcome α) (f : α → β) :
    (x >>= fun a => pure (f a)).fault? = x.fault? := by
  cases x <;> rfl

theorem fault?_mapM (f : α → Outcome β) (xs : List α) :
    (xs.mapM f).fault? = xs.findSome? fun x => (f x).fault? := by
  induction xs with
  | nil => rfl
  | cons x rest ih =>
    rw [List.mapM_cons, List.findSome?_cons, ← ih]
    cases f x with
    | error fault => rfl
    | ok y => cases rest.mapM f <;> rfl

theorem mapM_cons_eq_ok_iff {f : α → Outcome β} {x : α} {xs : List α} {ys : List β} :
    (x :: xs).mapM f = .ok ys ↔ ∃ y zs, f x = .ok y ∧ xs.mapM f = .ok zs ∧ ys = y :: zs := by
  rw [List.mapM_cons]
  constructor
  · intro h
    obtain ⟨y, hy, h⟩ := bind_eq_ok.1 h
    obtain ⟨zs, hzs, h⟩ := bind_eq_ok.1 h
    exact ⟨y, zs, hy, hzs, (Except.ok.inj h).symm⟩
  · rintro ⟨y, zs, hy, hzs, rfl⟩
    rw [hy, hzs]
    rfl

theorem map_of_mapM_eq_ok {γ : Type} {f : α → Outcome β} {g : β → γ} {k : α → γ} {xs : List α}
    {ys : List β} (h : xs.mapM f = .ok ys) (hf : ∀ x ∈ xs, ∀ y, f x = .ok y → g y = k x) :
    ys.map g = xs.map k := by
  induction xs generalizing ys with
  | nil =>
    obtain rfl := Except.ok.inj h
    rfl
  | cons x rest ih =>
    obtain ⟨y, zs, hy, hzs, rfl⟩ := mapM_cons_eq_ok_iff.1 h
    rw [List.map_cons, List.map_cons, hf x List.mem_cons_self y hy,
      ih hzs fun z hz => hf z (List.mem_cons_of_mem x hz)]

theorem mapM_of_mapM_eq_ok {γ : Type} {f : α → Outcome β} {g : α → Outcome γ} {k : β → γ}
    {xs : List α} {ys : List β} (h : xs.mapM f = .ok ys)
    (hg : ∀ x ∈ xs, ∀ y, f x = .ok y → g x = .ok (k y)) : xs.mapM g = .ok (ys.map k) := by
  induction xs generalizing ys with
  | nil =>
    obtain rfl := Except.ok.inj h
    rfl
  | cons x rest ih =>
    obtain ⟨y, zs, hy, hzs, rfl⟩ := mapM_cons_eq_ok_iff.1 h
    have hrest := ih hzs fun z hz => hg z (List.mem_cons_of_mem x hz)
    exact mapM_cons_eq_ok_iff.2 ⟨k y, zs.map k, hg x List.mem_cons_self y hy, hrest, rfl⟩

theorem mapM_filter_eq_ok {f : α → Outcome β} {p : α → Bool} {q : β → Bool} {xs : List α}
    {ys : List β} (h : xs.mapM f = .ok ys) (hq : ∀ x ∈ xs, ∀ y, f x = .ok y → q y = p x) :
    (xs.filter p).mapM f = .ok (ys.filter q) := by
  induction xs generalizing ys with
  | nil =>
    obtain rfl := Except.ok.inj h
    rfl
  | cons x rest ih =>
    obtain ⟨y, zs, hy, hzs, rfl⟩ := mapM_cons_eq_ok_iff.1 h
    have hrest := ih hzs fun z hz => hq z (List.mem_cons_of_mem x hz)
    rw [List.filter_cons, List.filter_cons, hq x List.mem_cons_self y hy]
    cases p x with
    | false => exact hrest
    | true => exact mapM_cons_eq_ok_iff.2 ⟨y, zs.filter q, hy, hrest, rfl⟩

theorem mem_of_mapM_eq_ok {f : α → Outcome β} {xs : List α} {ys : List β}
    (h : xs.mapM f = .ok ys) :
    (∀ x ∈ xs, ∃ y ∈ ys, f x = .ok y) ∧ ∀ y ∈ ys, ∃ x ∈ xs, f x = .ok y := by
  induction xs generalizing ys with
  | nil =>
    obtain rfl := Except.ok.inj h
    exact ⟨fun _ hx => absurd hx List.not_mem_nil, fun _ hy => absurd hy List.not_mem_nil⟩
  | cons x rest ih =>
    obtain ⟨y, zs, hy, hzs, rfl⟩ := mapM_cons_eq_ok_iff.1 h
    obtain ⟨hresults, hsteps⟩ := ih hzs
    refine ⟨List.forall_mem_cons.2 ⟨⟨y, List.mem_cons_self, hy⟩, fun x' hx' => ?_⟩,
      List.forall_mem_cons.2 ⟨⟨x, List.mem_cons_self, hy⟩, fun z hz => ?_⟩⟩
    · exact (hresults x' hx').imp fun _ h => ⟨List.mem_cons_of_mem y h.1, h.2⟩
    · exact (hsteps z hz).imp fun _ h => ⟨List.mem_cons_of_mem x h.1, h.2⟩

theorem exists_mapM_eq_ok {f : α → Outcome β} {xs : List α} (h : ∀ x ∈ xs, ∃ y, f x = .ok y) :
    ∃ ys, xs.mapM f = .ok ys := by
  induction xs with
  | nil => exact ⟨[], rfl⟩
  | cons x rest ih =>
    obtain ⟨y, hy⟩ := h x List.mem_cons_self
    obtain ⟨ys, hys⟩ := ih fun z hz => h z (List.mem_cons_of_mem x hz)
    exact ⟨y :: ys, mapM_cons_eq_ok_iff.2 ⟨y, ys, hy, hys, rfl⟩⟩

theorem mapM_perm {f : α → Outcome β} {xs ys : List α} (h : xs.Perm ys) {bs : List β}
    (hbs : ys.mapM f = .ok bs) : ∃ as, xs.mapM f = .ok as ∧ as.Perm bs := by
  induction h generalizing bs with
  | nil => exact ⟨bs, hbs, List.Perm.refl bs⟩
  | cons x _ ih =>
    obtain ⟨b, rest, hb, hrest, rfl⟩ := mapM_cons_eq_ok_iff.1 hbs
    obtain ⟨as, has, hperm⟩ := ih hrest
    exact ⟨b :: as, mapM_cons_eq_ok_iff.2 ⟨b, as, hb, has, rfl⟩, hperm.cons b⟩
  | swap x y l =>
    obtain ⟨b, tail, hb, htail, rfl⟩ := mapM_cons_eq_ok_iff.1 hbs
    obtain ⟨c, rest, hc, hrest, rfl⟩ := mapM_cons_eq_ok_iff.1 htail
    refine ⟨c :: b :: rest, ?_, List.Perm.swap b c rest⟩
    exact mapM_cons_eq_ok_iff.2 ⟨c, b :: rest, hc, mapM_cons_eq_ok_iff.2 ⟨b, rest, hb, hrest, rfl⟩,
      rfl⟩
  | trans _ _ ih₁ ih₂ =>
    obtain ⟨cs, hcs, hperm⟩ := ih₂ hbs
    obtain ⟨as, has, hperm'⟩ := ih₁ hcs
    exact ⟨as, has, hperm'.trans hperm⟩

end Outcome
end MergeTrial
