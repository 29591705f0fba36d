import FramePatch.CommandLine.Report
import FramePatch.Proofs.Files.Tree

/-!
# Flags and variables

What the flags in front of a command give, together with the environment. A flag may be written with
its value attached, or with the value in an argument of its own, if that does not look like a flag
itself (`Spells`). A flag that is not written has the value of its variable, if that is set.

- `readFlags_spells`: what was written is read, by induction on the spelling.
- `Given.complete_eq`: variables stand in for the flags that are missing, by induction on the flags
  there are.
- `GivesPaths`: the flags and the environment give both paths, whatever command comes after them.
  `givesPaths_of_spells` says which paths these are; `givesPaths_attached`, `givesPaths_apart`,
  `givesPaths_variables` and `givesPaths_userVariable` are cases of it.
-/

namespace FramePatch.CommandLine

/-- Flags that give the paths of both configurations, whatever command comes after them. -/
def GivesPaths (environment : Text → Option Text) (flags : List Text) (paths : ConfigPaths) :
    Prop :=
  ∀ name args, looksLikeFlag name = false →
    Invocation.parse (flags ++ name :: args) environment =
      (Command.parse name args).map fun command => { paths, command }

/-! ## Flags as they are written -/

/-- How flags with their values are written. -/
inductive Spells : Given → List Text → Prop where
  | nil : Spells [] []
  | attached (flag : Flag) (value : Text) {given : Given} {args : List Text}
      (rest : Spells given args) :
      Spells ((flag, value) :: given) ((flag.name ++ '=' :: value) :: args)
  | apart (flag : Flag) {value : Text} (plain : looksLikeFlag value = false) {given : Given}
      {args : List Text} (rest : Spells given args) :
      Spells ((flag, value) :: given) (flag.name :: value :: args)

/-- Every flag is given once, and accepts its value. -/
structure Given.Valid (given : Given) : Prop where
  once : (given.map (·.1)).Nodup
  accepted : ∀ g ∈ given, g.1.accepts g.2

/-- An argument that is not read as a flag names a command. -/
theorem ofArgument_name {arg : Text} (h : looksLikeFlag arg = false) :
    Token.ofArgument arg = .command arg := by
  simp [Token.ofArgument, h]

theorem ofArgument_attached (flag : Flag) (value : Text) :
    Token.ofArgument (flag.name ++ '=' :: value) = .flag flag (some value) := by
  cases flag <;> rfl

theorem ofArgument_flag (flag : Flag) : Token.ofArgument flag.name = .flag flag none := by
  cases flag <;> rfl

/-- A new flag is taken in with any value that it accepts. -/
theorem add_of_new {given : Given} {flag : Flag} {value : Text} (hnew : given.lookup flag = none)
    (hvalue : flag.accepts value) : given.add flag value = .ok (given ++ [(flag, value)]) := by
  simp [Given.add, hnew, hvalue]

/-- The next one of the flags that are given is taken in. -/
theorem Given.Valid.add {given rest : Given} {flag : Flag} {value : Text}
    (h : Valid (given ++ (flag, value) :: rest)) :
    given.add flag value = .ok (given ++ [(flag, value)]) := by
  refine add_of_new (List.lookup_eq_none_iff.2 fun g hg => ?_) (h.accepted (flag, value) (by simp))
  have honce := h.once
  rw [List.map_append, List.map_cons] at honce
  have hother : g.1 ≠ flag :=
    (List.nodup_append.1 honce).2.2 _ (List.mem_map_of_mem hg) _ List.mem_cons_self
  simpa using hother.symm

/-- A command with its arguments ends the flags. The last value is checked after it. -/
theorem readFlags_name {given settled : Given} {pending : Option (Flag × Text)} {name : Text}
    (h : looksLikeFlag name = false) (hpending : given.settle pending = .ok settled)
    (args : List Text) :
    readFlags given pending (name :: args) =
      (Command.parse name args).map fun command => (settled, command) := by
  rw [readFlags, ofArgument_name h]
  simp only [hpending, ok_bind]
  cases Command.parse name args <;> rfl

theorem readFlags_attached {given settled : Given} {pending : Option (Flag × Text)}
    (hpending : given.settle pending = .ok settled) (flag : Flag) (value : Text)
    (args : List Text) :
    readFlags given pending ((flag.name ++ '=' :: value) :: args) =
      settled.add flag value >>= fun given => readFlags given none args := by
  rw [readFlags.eq_def]
  simp only [ofArgument_attached, hpending, ok_bind]

theorem readFlags_apart {given settled : Given} {pending : Option (Flag × Text)}
    (hpending : given.settle pending = .ok settled) (flag : Flag) {value : Text}
    (hvalue : looksLikeFlag value = false) (args : List Text) :
    readFlags given pending (flag.name :: value :: args) =
      readFlags settled (some (flag, value)) args := by
  rw [readFlags.eq_def]
  simp only [ofArgument_flag, hvalue, Bool.false_eq_true, if_false, hpending, ok_bind]

/-- **Flags that are written** are read, after those that were read before. -/
theorem readFlags_spells {given rest : Given} {flags : List Text} (h : Spells rest flags)
    {settled : Given} {pending : Option (Flag × Text)}
    (hpending : given.settle pending = .ok settled) (hvalid : Given.Valid (settled ++ rest))
    {name : Text} (hname : looksLikeFlag name = false) (args : List Text) :
    readFlags given pending (flags ++ name :: args) =
      (Command.parse name args).map fun command => (settled ++ rest, command) := by
  -- the last value that was read may be unchecked, so it counts among those that are settled next
  induction h generalizing given settled pending with
  | nil =>
    rw [List.append_nil]
    exact readFlags_name hname hpending args
  | attached flag value rest ih =>
    have hadd := hvalid.add
    rw [List.append_cons settled] at hvalid ⊢
    rw [List.cons_append, readFlags_attached hpending, hadd, ok_bind]
    exact ih rfl hvalid
  | @apart flag value plain _ _ rest ih =>
    have hnext : settled.settle (some (flag, value)) = .ok (settled ++ [(flag, value)]) :=
      hvalid.add
    rw [List.append_cons settled] at hvalid ⊢
    rw [List.cons_append, List.cons_append, readFlags_apart hpending flag plain]
    exact ih hnext hvalid

/-! ## Variables -/

/-- One flag is filled in, and the others are left as they are. -/
theorem Given.fill_eq {environment : Text → Option Text} {given : Given} {flag : Flag}
    (haccepts : ∀ value, given.lookup flag = none →
      environment flag.variableName = some value → flag.accepts value) :
    ∃ filled, given.fill environment flag = .ok filled ∧
      filled.lookup flag = (given.lookup flag).or (environment flag.variableName) ∧
      ∀ other, other ≠ flag → filled.lookup other = given.lookup other := by
  rw [Given.fill]
  cases hgiven : given.lookup flag with
  | some value => exact ⟨given, rfl, hgiven, fun _ _ => rfl⟩
  | none =>
    cases hvariable : environment flag.variableName with
    | none => exact ⟨given, rfl, hgiven, fun _ _ => rfl⟩
    | some value =>
      refine ⟨given ++ [(flag, value)], add_of_new hgiven (haccepts value hgiven hvariable), ?_,
        fun other hother => ?_⟩
      · rw [List.lookup_append, hgiven, List.lookup_cons_self]
      · rw [List.lookup_append, List.lookup_cons, beq_false_of_ne hother]
        exact Option.or_none

/-- **Variables** stand in for the flags that are missing, if these accept them. -/
theorem Given.foldlM_fill_eq {environment : Text → Option Text} {flags : List Flag}
    (hflags : flags.Nodup) {given : Given}
    (haccepts : ∀ flag ∈ flags, ∀ value, given.lookup flag = none →
      environment flag.variableName = some value → flag.accepts value) :
    ∃ all, flags.foldlM (Given.fill environment) given = .ok all ∧
      (∀ flag ∈ flags,
        all.lookup flag = (given.lookup flag).or (environment flag.variableName)) ∧
      ∀ flag, flag ∉ flags → all.lookup flag = given.lookup flag := by
  induction flags generalizing given with
  | nil => exact ⟨given, rfl, fun _ h => absurd h List.not_mem_nil, fun _ _ => rfl⟩
  | cons flag rest ih =>
    obtain ⟨hnew, hrest⟩ := List.nodup_cons.1 hflags
    obtain ⟨filled, hfill, hself, hothers⟩ := Given.fill_eq (haccepts flag List.mem_cons_self)
    have hne {other : Flag} (hother : other ∈ rest) : other ≠ flag :=
      ne_of_mem_of_not_mem hother hnew
    have hacceptsRest : ∀ other ∈ rest, ∀ value, filled.lookup other = none →
        environment other.variableName = some value → other.accepts value := by
      intro other hother value hmissing
      rw [hothers other (hne hother)] at hmissing
      exact haccepts other (List.mem_cons_of_mem flag hother) value hmissing
    obtain ⟨all, hall, hfilled, hkept⟩ := ih hrest hacceptsRest
    refine ⟨all, ?_, ?_, ?_⟩
    · rw [List.foldlM_cons, hfill, ok_bind, hall]
    · intro other hother
      rcases List.mem_cons.1 hother with rfl | hother
      · rw [hkept other hnew, hself]
      · rw [hfilled other hother, hothers other (hne hother)]
    · intro other hother
      rw [List.mem_cons, not_or] at hother
      rw [hkept other hother.2, hothers other hother.1]

theorem Given.complete_eq {environment : Text → Option Text} {given : Given}
    (haccepts : ∀ flag value, given.lookup flag = none →
      environment flag.variableName = some value → flag.accepts value) :
    ∃ all, given.complete environment = .ok all ∧
      ∀ flag, all.lookup flag = (given.lookup flag).or (environment flag.variableName) := by
  have hflags : Flag.all.Nodup := by decide
  obtain ⟨all, hall, hlookup, -⟩ :=
    Given.foldlM_fill_eq hflags fun flag _ value => haccepts flag value
  refine ⟨all, hall, fun flag => hlookup flag ?_⟩
  cases flag <;> decide

/-! ## Both paths -/

/-- **Each path** is the value of its flag, or else that of its variable. -/
theorem givesPaths_of_spells {environment : Text → Option Text} {given : Given}
    {flags : List Text} (h : Spells given flags) (hvalid : given.Valid)
    (haccepts : ∀ flag value, given.lookup flag = none →
      environment flag.variableName = some value → flag.accepts value) :
    GivesPaths environment flags
      { shipped := (given.lookup .shippedPath).or (environment Flag.shippedPath.variableName)
        user := (given.lookup .userPath).or (environment Flag.userPath.variableName) } := by
  intro name args hname
  obtain ⟨all, hcomplete, hlookup⟩ := Given.complete_eq haccepts
  have hstart : Given.settle [] none = .ok [] := rfl
  rw [Invocation.parse, readFlags_spells h hstart hvalid hname args, List.nil_append]
  cases Command.parse name args with
  | error stop => rfl
  | ok command =>
    show (Given.complete environment given >>= _) = _
    rw [hcomplete, ok_bind, hlookup, hlookup]
    rfl

theorem Flag.accepts_of_ne {value : Text} (h : value ≠ []) (flag : Flag) : flag.accepts value := by
  cases flag <;> simp [accepts, h]

section Cases

variable {shipped user : Text} (hs : shipped ≠ []) (hu : user ≠ [])

include hs hu

/-- Both paths are given if each of them is the value of its flag, or else that of its variable. -/
theorem givesPaths_of_values {environment : Text → Option Text} {given : Given} {flags : List Text}
    (h : Spells given flags) (hvalid : given.Valid)
    (hshipped : (given.lookup .shippedPath).or (environment Flag.shippedPath.variableName) =
      some shipped)
    (huser : (given.lookup .userPath).or (environment Flag.userPath.variableName) = some user) :
    GivesPaths environment flags { shipped := some shipped, user := some user } := by
  rw [← hshipped, ← huser]
  refine givesPaths_of_spells h hvalid fun flag value hmissing hvariable => ?_
  cases flag with
  | shippedPath =>
    rw [hmissing, hvariable, Option.none_or] at hshipped
    exact Flag.accepts_of_ne (Option.some.inj hshipped ▸ hs) _
  | userPath =>
    rw [hmissing, hvariable, Option.none_or] at huser
    exact Flag.accepts_of_ne (Option.some.inj huser ▸ hu) _
  | logLevel => rfl

theorem Given.Valid.paths : Given.Valid [(.shippedPath, shipped), (.userPath, user)] where
  once := by simp
  accepted := List.forall_mem_cons.2
    ⟨Flag.accepts_of_ne hs _, List.forall_mem_singleton.2 (Flag.accepts_of_ne hu _)⟩

/-- Flags with their values attached give the paths, whatever these look like. -/
theorem givesPaths_attached (environment : Text → Option Text) :
    GivesPaths environment
      [Flag.shippedPath.name ++ '=' :: shipped, Flag.userPath.name ++ '=' :: user]
      { shipped := some shipped, user := some user } :=
  givesPaths_of_values hs hu (.attached _ _ (.attached _ _ .nil)) (.paths hs hu) rfl rfl

/-- So do flags with their values in arguments of their own, if these do not look like flags. -/
theorem givesPaths_apart (hshipped : looksLikeFlag shipped = false)
    (huser : looksLikeFlag user = false) (environment : Text → Option Text) :
    GivesPaths environment [Flag.shippedPath.name, shipped, Flag.userPath.name, user]
      { shipped := some shipped, user := some user } :=
  givesPaths_of_values hs hu (.apart _ hshipped (.apart _ huser .nil)) (.paths hs hu) rfl rfl

section Variables

variable {environment : Text → Option Text}
  (huser : environment Flag.userPath.variableName = some user)

include huser

/-- So does the environment, without any flag. -/
theorem givesPaths_variables
    (hshipped : environment Flag.shippedPath.variableName = some shipped) :
    GivesPaths environment [] { shipped := some shipped, user := some user } :=
  givesPaths_of_values hs hu .nil ⟨List.nodup_nil, nofun⟩ hshipped huser

/-- So does one flag, with the environment for the other path. -/
theorem givesPaths_userVariable :
    GivesPaths environment [Flag.shippedPath.name ++ '=' :: shipped]
      { shipped := some shipped, user := some user } :=
  givesPaths_of_values hs hu (.attached _ _ .nil)
    ⟨by simp, List.forall_mem_singleton.2 (Flag.accepts_of_ne hs _)⟩ rfl huser

end Variables

end Cases

/-- The paths of two files, each in an argument of its own. -/
def twoPaths : List Text := [Flag.shippedPath.name, ['g'], Flag.userPath.name, ['l']]

theorem givesPaths_twoPaths :
    GivesPaths (fun _ => none) twoPaths { shipped := some ['g'], user := some ['l'] } :=
  givesPaths_apart (List.cons_ne_nil _ _) (List.cons_ne_nil _ _) rfl rfl _

end FramePatch.CommandLine
