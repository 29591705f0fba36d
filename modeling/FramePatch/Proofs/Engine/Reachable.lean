import FramePatch.Guest.Bytes
import FramePatch.Proofs.Engine.Persistence
import FramePatch.Proofs.Engine.Runs
import FramePatch.Proofs.Patch.Coherence

/-!
# States that an engine can reach

Whatever calls an engine gets, its patch list stays coherent: a load builds a coherent list, a
toggle keeps it one, and no other call touches it (`coherent_step`, `coherent_run`). So no name is
written to both lists of a save (`coherent_of_run`). Only loads from sources at hand have to be
restricted, to sources that are ini stores; loads from files always are.

If these stores are read from texts, as those in files are, every line of a save is one that can be
written to a file and read back (`plainLine_of_run`).
-/

namespace FramePatch

universe u v w

/-- The sources that a call brings are ini stores. -/
def Call.FromStores {φ : Type w} {μ : Type v} : Call φ μ → Prop
  | load shipped user _ =>
    (∃ store : Ini.Store, shipped = store.toSource) ∧ ∃ store : Ini.Store, user = store.toSource
  | reload shipped user _ =>
    (∃ store : Ini.Store, shipped = store.toSource) ∧ ∃ store : Ini.Store, user = store.toSource
  | _ => True

/-- A load from stores or from files has the sources of two stores. -/
theorem Call.FromStores.sources {φ : Type w} [FileSystem φ] {μ : Type v} {call : Call φ μ}
    (h : call.FromStores)
    {sources : Source × Source} (hsources : call.sources? = some sources) :
    ∃ shipped user : Ini.Store, sources = (shipped.toSource, user.toSource) := by
  cases call with
  | load shipped user session =>
    obtain ⟨⟨a, rfl⟩, b, rfl⟩ := h
    exact ⟨a, b, (Option.some.inj hsources).symm⟩
  | reload shipped user session =>
    obtain ⟨⟨a, rfl⟩, b, rfl⟩ := h
    exact ⟨a, b, (Option.some.inj hsources).symm⟩
  | loadFiles s paths session =>
    cases hread : paths.read s with
    | ok stores =>
      simp only [Call.sources?, hread, Option.some.injEq] at hsources
      exact ⟨stores.1, stores.2, hsources.symm⟩
    | error fault => simp [Call.sources?, hread] at hsources
  | _ => exact absurd hsources.symm (Option.some_ne_none sources)

namespace Engine

variable {σ : Type u} {φ : Type w} [FileSystem φ] {μ : Type v} [GuestMemory μ]

/-- **One call** keeps the patch list coherent. -/
theorem coherent_step (hooks : CodeEngines σ μ) {e : Engine σ} (he : Patch.Coherent e.patches)
    {call : Call φ μ} (hcall : call.FromStores) : Patch.Coherent (e.step hooks call).patches := by
  cases hanew : call.startsAnew with
  | false =>
    rw [(e.step_of_not_startsAnew hooks hanew).1]
    exact he.toggleAll call.toggle?.toList
  | true =>
    rw [(e.step_of_startsAnew hooks hanew).1]
    cases hsources : call.sources? with
    | none => exact Patch.coherent_nil
    | some sources =>
      obtain ⟨shipped, user, rfl⟩ := hcall.sources hsources
      exact Patch.coherent_merge Patch.onFrameSection shipped user

/-- So does any run. -/
theorem coherent_run (hooks : CodeEngines σ μ) {e : Engine σ} (he : Patch.Coherent e.patches)
    {calls : List (Call φ μ)} (hcalls : ∀ call ∈ calls, call.FromStores) :
    Patch.Coherent (e.run hooks calls).patches := by
  induction calls generalizing e with
  | nil => exact he
  | cons call rest ih =>
    obtain ⟨hcall, hrest⟩ := List.forall_mem_cons.1 hcalls
    exact ih (coherent_step hooks he hcall) hrest

/-- **Every state that an engine can reach** from a new one has a coherent patch list, and a save of
it lists no name both as enabled and as disabled. -/
theorem coherent_of_run (hooks : CodeEngines σ μ) (codes : σ) {calls : List (Call φ μ)}
    (hcalls : ∀ call ∈ calls, call.FromStores) :
    let e := (new codes).run hooks calls
    Patch.Coherent e.patches ∧
      (e.save.enabled.filterMap Patch.headerName?).Disjoint
        (e.save.disabled.filterMap Patch.headerName?) := by
  intro e
  have hcoherent : Patch.Coherent e.patches := coherent_run hooks Patch.coherent_nil hcalls
  exact ⟨hcoherent, hcoherent.disjoint_save⟩

/-- A shipped patch that is on by default and one of the user's share the name `A`. They disagree,
so neither is saved; the patch `B` is. -/
theorem coherent_of_run_shared_name :
    let shipped := Ini.Store.parse
      "[OnFrame]\n$A\n0x80001000:byte:0x1\n[OnFrame_Enabled]\n$A".toList
    let user := Ini.Store.parse
      "[OnFrame]\n$A\n0x80002000:word:0x2\n$B\n0x80003000:dword:0x3:0x4".toList
    let calls : List (Call FileTree ByteMemory) :=
      [.load shipped.toSource user.toSource {}, .setEnabled ['B'] true, .save]
    let e := (new ()).run .none calls
    (∀ call ∈ calls, call.FromStores) ∧
      e.patches.map (fun p => (p.name, p.enabled)) =
        [(['A'], true), (['A'], false), (['B'], true)] ∧
      e.save.enabled = [['$', 'B']] ∧ Patch.Coherent e.patches ∧
      (e.save.enabled.filterMap Patch.headerName?).Disjoint
        (e.save.disabled.filterMap Patch.headerName?) := by
  intro shipped user calls e
  have hcalls : ∀ call ∈ calls, call.FromStores :=
    List.forall_mem_cons.2 ⟨⟨⟨shipped, rfl⟩, user, rfl⟩,
      List.forall_mem_cons.2 ⟨trivial, List.forall_mem_singleton.2 trivial⟩⟩
  exact ⟨hcalls, by decide, by decide, coherent_of_run .none () hcalls⟩

end Engine

/-! ## Saved lines -/

/-- The sources that a call brings are read from texts. -/
def Call.FromTexts {φ : Type w} {μ : Type v} : Call φ μ → Prop
  | load shipped user _ =>
    (∃ text, shipped = (Ini.Store.parse text).toSource) ∧
      ∃ text, user = (Ini.Store.parse text).toSource
  | reload shipped user _ =>
    (∃ text, shipped = (Ini.Store.parse text).toSource) ∧
      ∃ text, user = (Ini.Store.parse text).toSource
  | _ => True

/-- A load from texts or from files has the sources of two well-formed stores. -/
theorem Call.FromTexts.sources {φ : Type w} [FileSystem φ] {μ : Type v} {call : Call φ μ}
    (h : call.FromTexts)
    {sources : Source × Source} (hsources : call.sources? = some sources) :
    ∃ shipped user : Ini.Store, shipped.WellFormed ∧ user.WellFormed ∧
      sources = (shipped.toSource, user.toSource) := by
  cases call with
  | load shipped user session =>
    obtain ⟨⟨a, rfl⟩, b, rfl⟩ := h
    exact ⟨_, _, Ini.Store.wellFormed_parse a, Ini.Store.wellFormed_parse b,
      (Option.some.inj hsources).symm⟩
  | reload shipped user session =>
    obtain ⟨⟨a, rfl⟩, b, rfl⟩ := h
    exact ⟨_, _, Ini.Store.wellFormed_parse a, Ini.Store.wellFormed_parse b,
      (Option.some.inj hsources).symm⟩
  | loadFiles s paths session =>
    cases hread : paths.read s with
    | ok stores =>
      obtain ⟨hshipped, huser⟩ := ConfigPaths.wellFormed_of_read hread
      simp only [Call.sources?, hread, Option.some.injEq] at hsources
      exact ⟨stores.1, stores.2, hshipped, huser, hsources.symm⟩
    | error fault => simp [Call.sources?, hread] at hsources
  | _ => exact absurd hsources.symm (Option.some_ne_none sources)

namespace Engine

variable {σ : Type u} {φ : Type w} [FileSystem φ] {μ : Type v}

/-- The last sources of a run are those of one of its calls. -/
theorem exists_of_lastSources? {calls : List (Call φ μ)} {sources : Source × Source}
    (h : lastSources? calls = some sources) : ∃ call ∈ calls, call.sources? = some sources := by
  obtain ⟨call, hfind, hsources⟩ := Option.bind_eq_some_iff.1 h
  rw [List.findRev?_eq_find?_reverse] at hfind
  exact ⟨call, List.mem_reverse.1 (List.mem_of_find?_eq_some hfind), hsources⟩

/-- **Every line that is saved** after a run from a new engine is plain, if all sources that were
loaded came from texts. -/
theorem plainLine_of_run [GuestMemory μ] (hooks : CodeEngines σ μ) (codes : σ)
    {calls : List (Call φ μ)} (hcalls : ∀ call ∈ calls, call.FromTexts) {line : Text}
    (hline : ((new codes).run hooks calls).save.Has line) : Ini.PlainLine line := by
  have hpatches := (run_state hooks codes calls).1
  rw [save, hpatches] at hline
  cases hlast : lastSources? calls with
  | none =>
    -- without sources there are no patches, toggled or not
    rw [hlast, patchesOf, Patch.toggleAll_eq_map] at hline
    obtain ⟨p, hp, -⟩ := Patch.of_save_has hline
    exact absurd hp List.not_mem_nil
  | some sources =>
    obtain ⟨call, hcall, hsources⟩ := exists_of_lastSources? hlast
    obtain ⟨shipped, user, hshipped, huser, rfl⟩ := (hcalls call hcall).sources hsources
    rw [hlast] at hline
    have hdescends := (Patch.descends_merge Patch.onFrameSection shipped.toSource
      user.toSource).toggleAll (togglesSince calls)
    exact hdescends.plainLine_of_save_has hshipped huser hline

end Engine

end FramePatch
