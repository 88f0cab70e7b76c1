-- SUMMARY: The soundness of the pool in every run of a session, and the targets of its stages.
import Mathlib.Data.List.Basic
import SeparableBlur.Gpu.Session
import SeparableBlur.Proofs.SafeWork

/-!
# Soundness of sessions

In every state that a session reaches, the pool of its renderer is sound while the
textures behind its handles are held. Each command keeps that: work on the renderer
is safe, letting handles go asks for less, and the end of a frame frees only what
no handle holds.

So a target that a stage is given is never one that a handle refers to, nor the
texture that the stage reads.
-/

namespace SeparableBlur.Gpu

/-! ## Handles -/

namespace Handles

variable {h : Handles} {name : String} {t : Texture}

theorem find?_mem (hfind : h.find? name = some t) : t ∈ h.textures := by
  obtain ⟨before, after, heq, -⟩ := List.lookup_eq_some_iff.1 hfind
  rw [textures, heq, List.map_append, List.map_cons]
  exact List.mem_append_right _ List.mem_cons_self

theorem mem_of_drop (ht : t ∈ (h.drop name).textures) : t ∈ h.textures :=
  (List.filter_sublist.map _).subset ht

theorem mem_of_keep {kept : Texture} (ht : t ∈ (h.keep name kept).textures) :
    t = kept ∨ t ∈ h.textures := by
  rcases List.mem_cons.1 ht with heq | ht
  · exact .inl heq
  · exact .inr (mem_of_drop ht)

theorem mem_of_keep? {name : Option String} {kept : Texture}
    (ht : t ∈ (h.keep? name kept).textures) : t = kept ∨ t ∈ h.textures := by
  cases name with
  | none => exact .inr ht
  | some name => exact mem_of_keep ht

theorem holds_eq_false : h.holds t = false ↔ ∀ u ∈ h.textures, u.id ≠ t.id := by
  simp [holds]

end Handles

/-! ## Commands -/

namespace Session

/-- The calls that a command makes on the renderer. -/
def calls (s : Session) : Command → List (Call Binary32 Texture)
  | .subpass input pass _ =>
    match s.handles.find? input with
    | some texture => [⟨⟨pass, texture⟩, ((Host.runSubpass ⟨pass, texture⟩).start s.host).1⟩]
    | none => []
  | .render blur named entity effect hint _ =>
    match s.inputs named with
    | .ok inputs =>
      blur.calls Host.subpassRenderer inputs entity effect hint ⟨s.host, blur.warnings⟩
    | .error _ => []
  | _ => []

/-- The renderer keeps its settings and its pool is sound while the handles are held. -/
structure Sound (s : Session) (settings : RendererSettings) : Prop where
  settings : s.host.renderer.settings = settings
  sound : s.host.Sound s.handles.textures

variable {s : Session} {settings : RendererSettings}

theorem inputs_cons_ok {n : NamedInput} {named : List NamedInput}
    {inputs : List (FilterInput Binary32 Host Texture)} (h : s.inputs (n :: named) = .ok inputs) :
    ∃ t rest, s.handles.find? n.name = some t ∧ s.inputs named = .ok rest ∧
      inputs = .ofTexture t t.size n.placement :: rest := by
  unfold Session.inputs at h
  rw [List.mapM_cons] at h
  cases hfind : s.handles.find? n.name with
  | none =>
    rw [hfind] at h
    cases h
  | some t =>
    rw [hfind] at h
    cases hrest : s.inputs named with
    | error e =>
      unfold Session.inputs at hrest
      rw [hrest] at h
      cases h
    | ok rest =>
      unfold Session.inputs at hrest
      rw [hrest] at h
      cases h
      exact ⟨t, rest, rfl, rfl, rfl⟩

/-- The inputs that names stand for are textures behind handles. -/
theorem inputs_safe {named : List NamedInput} {inputs : List (FilterInput Binary32 Host Texture)}
    (h : s.inputs named = .ok inputs) :
    ∀ input ∈ inputs, SafeInput s.handles.textures input := by
  induction named generalizing inputs with
  | nil =>
    cases h
    simp
  | cons n named ih =>
    obtain ⟨t, rest, hfind, hrest, rfl⟩ := inputs_cons_ok h
    exact List.forall_mem_cons.2
      ⟨safeInput_ofTexture (Handles.find?_mem hfind) t.size n.placement, ih hrest⟩

theorem forM_emit (events : List (Event Binary32)) (l : Logged Binary32 Host) :
    (events.forM Action.emit : Work Unit).runFrom l = (.ok (), ⟨l.state, l.log ++ events⟩) := by
  induction events generalizing l with
  | nil => simp
  | cons e events ih =>
    have hemit := Action.runFrom_emit l e
    rw [show (List.forM (e :: events) Action.emit : Work Unit) =
      (Action.emit e >>= fun _ => List.forM events Action.emit) from rfl,
      Action.runFrom_bind_ok hemit, ih, List.append_assoc, List.singleton_append]

/-- Without the bindings of the frame, what is left of the references are the handles. -/
theorem references_endFrame (s : Session) : s.endFrame.references = s.endFrame.handles.textures :=
  rfl

theorem refersTo_endFrame (s : Session) (t : Texture) :
    s.endFrame.refersTo t = s.handles.holds t := rfl

/-- The end of a frame frees the targets that no handle refers to. -/
theorem pool_endFrame (s : Session) :
    s.endFrame.host.renderer.pool =
      (s.host.renderer.pool.reset s.handles.holds).trim s.host.renderer.settings.maxIdleFrames :=
  rfl

theorem active_endFrame (s : Session) :
    s.endFrame.host.renderer.pool.active =
      s.host.renderer.pool.active.filter s.handles.holds := rfl

/-- Work that leads somewhere safe keeps the session sound. -/
theorem perform_sound {β : Type} (h : s.Sound settings) {work : Work β} (name : Option String)
    (kept : β → Option Texture) (reply : β → Reply)
    (hwork : ∀ answer after, work.runFrom ⟨s.host, []⟩ = (answer, after) →
      Leads s.handles.textures s.host (answer.toOption.bind kept) after.state) :
    (s.perform work name kept reply).1.Sound settings := by
  cases hrun : work.runFrom ⟨s.host, []⟩ with
  | mk answer after =>
    obtain ⟨hsettings, held, houtside, hkept, hsound⟩ := hwork answer after hrun
    unfold perform
    rw [Action.start_eq_runFrom, hrun]
    cases answer with
    | error e => exact ⟨hsettings.trans h.settings, hsound.mono (Nat.le_refl _) houtside⟩
    | ok b =>
      refine ⟨hsettings.trans h.settings, hsound.mono (Nat.le_refl _) fun t ht => ?_⟩
      cases hkeep : kept b with
      | none =>
        simp only [hkeep] at ht
        exact houtside t ht
      | some u =>
        simp only [hkeep] at ht
        rcases Handles.mem_of_keep? ht with rfl | ht
        · exact hkept t hkeep
        · exact houtside t ht

theorem importTexture_leads {outside : List Texture} {s after : Logged Binary32 Host}
    (h : s.state.Sound outside) {key : TextureKey} {answer : Except RenderError Texture}
    (hrun : (Host.importTexture key).runFrom s = (answer, after)) :
    Leads outside s.state (answer.toOption.bind some) after.state := by
  cases hrun
  refine ⟨rfl, _, fun _ ht => List.mem_cons_of_mem _ ht, ?_,
    Pool.Sound.cons_new h (t := (Texture.create key s.state.ids).1) rfl⟩
  rintro _ ⟨⟩
  exact List.mem_cons_self

theorem upload_leads {outside : List Texture} {s after : Logged Binary32 Host}
    (h : s.state.Sound outside) {size : Size} {pixels : ByteArray}
    {answer : Except RenderError Texture}
    (hrun : (Host.upload size pixels).runFrom s = (answer, after)) :
    Leads outside s.state (answer.toOption.bind some) after.state := by
  unfold Host.upload at hrun
  split at hrun
  · cases hrun
    exact .refl h (by rintro _ ⟨⟩)
  · split at hrun
    · cases hrun
      exact .refl h (by rintro _ ⟨⟩)
    · exact importTexture_leads h hrun

/-- Every command keeps the session sound. -/
theorem step_sound (h : s.Sound settings) (command : Command) :
    (s.step command).1.Sound settings := by
  cases command with
  | upload size pixels name =>
    refine perform_sound h name some .texture fun answer after hrun => ?_
    exact upload_leads h.sound hrun
  | importTexture key name =>
    refine perform_sound h name some .texture fun answer after hrun => ?_
    exact importTexture_leads h.sound hrun
  | subpass input pass name =>
    simp only [step]
    split
    · rename_i texture hfind
      refine perform_sound h name some .texture fun answer after hrun => ?_
      have hinput : (⟨pass, texture⟩ : Subpass Binary32 Texture).input ∈ s.handles.textures :=
        Handles.find?_mem hfind
      have hleads := (runSubpass_leads hrun h.sound hinput).1
      rwa [Option.bind_fun_some]
    · exact h
  | render blur named entity effect hint name =>
    simp only [step]
    split
    · rename_i inputs hinputs
      refine perform_sound h name (Option.map (·.texture)) .output fun answer after hrun => ?_
      rw [Action.runFrom_bind_ok (forM_emit _ _)] at hrun
      obtain ⟨_, _, hrender, hleads, -⟩ := render_leads blur entity effect hint
        (s := ⟨s.host, blur.warnings⟩) h.sound (inputs_safe hinputs)
      cases hrun.symm.trans hrender
      exact hleads
    · exact h
  | coverage blur named entity effect =>
    simp only [step]
    split <;> exact h
  | copy source name =>
    simp only [step]
    split
    · rename_i texture hfind
      refine ⟨h.settings, h.sound.mono (Nat.le_refl _) fun t ht => ?_⟩
      rcases Handles.mem_of_keep ht with rfl | ht
      · exact Handles.find?_mem hfind
      · exact ht
    · exact h
  | drop name =>
    exact ⟨h.settings, h.sound.mono (Nat.le_refl _) fun t ht => Handles.mem_of_drop ht⟩
  | read name =>
    simp only [step]
    split
    · split <;> exact h
    · exact h
  | endFrame =>
    refine ⟨h.settings, ?_⟩
    change Pool.Sound s.endFrame.host.renderer.pool s.host.ids s.handles.textures
    rw [pool_endFrame]
    refine Pool.Sound.trim (Pool.Sound.reset h.sound fun t ht u hu => ?_) _
    exact (Handles.holds_eq_false.1 hu t ht).symm

theorem create_sound (settings : RendererSettings) (capabilities : Capabilities)
    (maxDimension : UInt32) : (create settings capabilities maxDimension).1.Sound settings :=
  ⟨rfl, by simp [create, Host.create, Pool.textures, Pool.idle], by
    simp [create, Host.create, Pool.textures, Pool.idle], nofun, nofun, nofun⟩

/-- What every command keeps, a run keeps. -/
theorem run_keeps {P : Session → Prop} (hstep : ∀ s, P s → ∀ command, P (s.step command).1)
    (h : P s) (commands : List Command) : P (s.run commands) := by
  induction commands generalizing s with
  | nil => exact h
  | cons command commands ih => exact ih (hstep s h command)

theorem foldl_sound (h : s.Sound settings) (commands : List Command) :
    (s.run commands).Sound settings :=
  run_keeps (P := fun s => s.Sound settings) (fun _ hs => step_sound hs) h commands

/-- The targets that the calls of a command are given. -/
theorem calls_fresh (h : s.Sound settings) (command : Command) :
    ∀ call ∈ s.calls command, Fresh settings.format s.handles.textures call := by
  cases command with
  | subpass input pass name =>
    simp only [calls]
    split
    · rename_i texture hfind
      have hinput : (⟨pass, texture⟩ : Subpass Binary32 Texture).input ∈ s.handles.textures :=
        Handles.find?_mem hfind
      cases hrun : (Host.runSubpass ⟨pass, texture⟩).start s.host with
      | mk answer after =>
        have hfresh := (runSubpass_leads hrun h.sound hinput).2
        rw [← h.settings, List.forall_mem_singleton]
        exact hfresh
    · simp
  | render blur named entity effect hint name =>
    simp only [calls]
    split
    · rename_i inputs hinputs
      obtain ⟨_, _, -, -, hfresh⟩ := render_leads blur entity effect hint
        (s := ⟨s.host, blur.warnings⟩) h.sound (inputs_safe hinputs)
      rwa [h.settings] at hfresh
    · simp
  | _ => simp [calls]

/-- After any run of commands nothing is in the pool twice, nothing in it is free that a handle
    refers to, and every bucket holds what its key says. Whatever is done next, every target that
    a stage is given is as it was asked for, and neither what the stage reads nor anything that a
    handle refers to. -/
theorem run_sound (settings : RendererSettings) (capabilities : Capabilities)
    (maxDimension : UInt32) (commands : List Command) :
    let s := (create settings capabilities maxDimension).1.run commands
    let pool := s.host.renderer.pool
    (pool.textures.map (·.id)).Nodup ∧
    (∀ t ∈ pool.idle, s.handles.holds t = false) ∧
    (∀ bucket ∈ pool.free, ∀ t ∈ bucket.textures, t.key = bucket.key) ∧
    ∀ command, ∀ call ∈ s.calls command, ∀ target, call.answer = .ok target →
      target.size = call.subpass.size ∧ target.format = settings.format ∧
        target.id ≠ call.subpass.input.id ∧ s.handles.holds target = false := by
  intro s pool
  have h : s.Sound settings := foldl_sound (create_sound settings capabilities maxDimension) commands
  refine ⟨h.sound.nodup, fun t ht => ?_, h.sound.keyed, fun command call hcall target hok => ?_⟩
  · exact Handles.holds_eq_false.2 fun u hu => (h.sound.unheld u hu t ht).symm
  · obtain ⟨hsize, hformat, hinput, hother⟩ := calls_fresh h command call hcall target hok
    exact ⟨hsize, hformat, hinput, Handles.holds_eq_false.2 hother⟩

end Session

end SeparableBlur.Gpu
