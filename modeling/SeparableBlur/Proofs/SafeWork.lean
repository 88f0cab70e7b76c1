-- SUMMARY: Work on a device renderer that keeps its pool sound, and the targets that it is given.
import SeparableBlur.Proofs.Device

/-!
# Safe work

Work on a host is safe while some textures are held if it leaves the pool sound,
with those and the textures it returns held. Rendering a stage is safe when its
input is held, and the stages of a blur hold their targets from one to the next,
so rendering a blur is safe when asking for its input is.

On the way every target turns out to be fresh: it is as it was asked for, and none
of the textures that are held, among them the input of its stage.
-/

namespace SeparableBlur.Gpu

/-- The pool of the host is sound while `outside` is held. -/
def Host.Sound (host : Host) (outside : List Texture) : Prop :=
  host.renderer.pool.Sound host.ids outside

/-- If the call succeeded, its target is as it was asked for, and none of the textures in
    `outside` and not its own input. -/
def Fresh (format : TextureFormat) (outside : List Texture) (call : Call Binary32 Texture) : Prop :=
  ∀ target, call.answer = .ok target →
    target.size = call.subpass.size ∧ target.format = format ∧
    target.id ≠ call.subpass.input.id ∧ ∀ t ∈ outside, t.id ≠ target.id

theorem Fresh.mono {format : TextureFormat} {outside held : List Texture}
    {call : Call Binary32 Texture} (h : Fresh format held call)
    (hheld : ∀ t ∈ outside, t ∈ held) : Fresh format outside call := by
  intro target htarget
  obtain ⟨hsize, hformat, hinput, hother⟩ := h target htarget
  exact ⟨hsize, hformat, hinput, fun t ht => hother t (hheld t ht)⟩

/-- What work leads to while `outside` is held: a sound pool while more textures may be held,
    what the work returns among them. -/
structure Leads (outside : List Texture) (before : Host) (kept : Option Texture) (after : Host) :
    Prop where
  settings : after.renderer.settings = before.renderer.settings
  sound : ∃ held, (∀ t ∈ outside, t ∈ held) ∧ (∀ t, kept = some t → t ∈ held) ∧ after.Sound held

namespace Leads

variable {outside : List Texture} {before middle after : Host} {kept : Option Texture}

theorem refl (h : before.Sound outside) (hkept : ∀ t, kept = some t → t ∈ outside) :
    Leads outside before kept before :=
  ⟨rfl, outside, fun _ ht => ht, hkept, h⟩

/-- What was returned need not be kept. -/
theorem forget (h : Leads outside before kept after) : Leads outside before none after :=
  ⟨h.settings, h.sound.imp fun _ ⟨houtside, _, hsound⟩ => ⟨houtside, nofun, hsound⟩⟩

/-- What is held longer may be let go in between. -/
theorem extend {held : List Texture} (h : Leads held middle kept after)
    (houtside : ∀ t ∈ outside, t ∈ held)
    (hsettings : middle.renderer.settings = before.renderer.settings) :
    Leads outside before kept after := by
  obtain ⟨hsettings', held', hheld, hkept, hsound⟩ := h
  exact ⟨hsettings'.trans hsettings, held', fun t ht => hheld t (houtside t ht), hkept, hsound⟩

end Leads

/-! ## Stages -/

theorem Host.Draws.leads {host after : Host} {size : Size} {target : Texture}
    {outside : List Texture} (h : host.Draws size target after) (hsound : host.Sound outside) :
    Leads outside host (some target) after ∧ target.key = host.renderer.targetKey size ∧
      ∀ t ∈ outside, t.id ≠ target.id := by
  obtain ⟨hpool, hkey, hfresh⟩ := Pool.Sound.allocate hsound (host.renderer.targetKey size)
  rw [← h.target] at hpool hkey hfresh
  refine ⟨⟨h.settings, target :: outside, fun t ht => List.mem_cons_of_mem _ ht, ?_, ?_⟩, hkey,
    hfresh⟩
  · rintro t ht
    cases ht
    exact List.mem_cons_self
  · rw [Host.Sound, h.pool]
    exact hpool.mono h.ids fun _ ht => ht

variable {outside : List Texture}

/-- A stage whose input is held is safe, and its target is fresh. -/
theorem runSubpass_leads {s after : Logged Binary32 Host} {subpass : Subpass Binary32 Texture}
    {answer : Except RenderError Texture}
    (hrun : (Host.runSubpass subpass).runFrom s = (answer, after))
    (hsound : s.state.Sound outside) (hinput : subpass.input ∈ outside) :
    Leads outside s.state answer.toOption after.state ∧
      Fresh s.state.renderer.settings.format outside ⟨subpass, answer⟩ := by
  cases hrefusal : s.state.renderer.refusal? subpass.toPass with
  | some e =>
    cases hrun.symm.trans (Host.runFrom_runSubpass_refused s subpass hrefusal)
    refine ⟨.refl hsound ?_, ?_⟩
    · rintro _ ⟨⟩
    · rintro _ ⟨⟩
  | none =>
    obtain ⟨target, _, hok, hdraws⟩ := Host.runFrom_runSubpass_accepted s subpass hrefusal
    cases hrun.symm.trans hok
    obtain ⟨hleads, hkey, hfresh⟩ := hdraws.leads hsound
    refine ⟨hleads, ?_⟩
    rintro _ ⟨⟩
    refine ⟨?_, ?_, ?_, hfresh⟩
    · exact congrArg TextureKey.size hkey
    · exact congrArg TextureKey.format hkey
    · exact (hfresh _ hinput).symm

/-- Stages that read the targets of each other are safe, and all their targets are fresh. -/
theorem chained_leads {s final : Host} {t : Texture} {passes : List (Pass Binary32)}
    {calls : List (Call Binary32 Texture)} {outcome : Except RenderError Texture}
    (h : Chained Host.subpassRenderer s t passes calls outcome final) (hsound : s.Sound outside)
    (ht : t ∈ outside) :
    Leads outside s outcome.toOption final ∧
      ∀ call ∈ calls, Fresh s.renderer.settings.format outside call := by
  induction h generalizing outside with
  | done =>
    refine ⟨.refl hsound ?_, by simp⟩
    rintro _ ⟨⟩
    exact ht
  | @failed s t pass passes e log after hrun =>
    obtain ⟨hleads, hfresh⟩ := runSubpass_leads hrun hsound ht
    exact ⟨hleads, by simpa using hfresh⟩
  | @rendered s t pass passes target calls outcome final log after hrun _ ih =>
    obtain ⟨hleads, hfresh⟩ := runSubpass_leads hrun hsound ht
    obtain ⟨hsettings, held, houtside, hkept, hheld⟩ := hleads
    obtain ⟨hleads', hfresh'⟩ := ih hheld (hkept target rfl)
    rw [hsettings] at hfresh'
    refine ⟨hleads'.extend houtside hsettings, ?_⟩
    exact List.forall_mem_cons.2 ⟨hfresh, fun call hcall => (hfresh' call hcall).mono houtside⟩

/-! ## Blurs -/

/-- An input that is safe to ask for its texture while `outside` is held. -/
def SafeInput (outside : List Texture) (input : FilterInput Binary32 Host Texture) : Prop :=
  ∀ label entity limit (s : Logged Binary32 Host), s.state.Sound outside →
    ∀ answer after, (input.snapshot label entity limit).runFrom s = (answer, after) →
      Leads outside s.state (answer.toOption.bind (Option.map (·.texture))) after.state

/-- A texture that is held is a safe input. -/
theorem safeInput_ofTexture {t : Texture} (ht : t ∈ outside) (size : Size)
    (placement : Matrix4 Binary32) : SafeInput outside (.ofTexture t size placement) := by
  intro label entity limit s hsound answer after hrun
  cases hrun
  refine .refl hsound ?_
  rintro _ ⟨⟩
  exact ht

/-- A blur of safe inputs is safe, and all its targets are fresh. -/
theorem render_leads (b : Blur Binary32) {inputs : List (FilterInput Binary32 Host Texture)}
    (entity : Entity Binary32) (effect : Matrix4 Binary32) (hint : Option (Rect Binary32))
    {s : Logged Binary32 Host} (hsound : s.state.Sound outside)
    (hinputs : ∀ input ∈ inputs, SafeInput outside input) :
    ∃ result after,
      (b.render Host.subpassRenderer inputs entity effect hint).runFrom s = (result, after) ∧
      Leads outside s.state (result.toOption.bind (Option.map (·.texture))) after.state ∧
      ∀ call ∈ b.calls Host.subpassRenderer inputs entity effect hint s,
        Fresh s.state.renderer.settings.format outside call := by
  obtain ⟨calls, result, final, log, hcalls, hrun, h⟩ :=
    b.renders Host.subpassRenderer entity inputs effect hint s
  refine ⟨result, ⟨final, log⟩, hrun, ?_⟩
  rw [hcalls]
  cases h with
  | noInput => exact ⟨.refl hsound (by rintro _ ⟨⟩), by simp⟩
  | failed hsnapshot =>
    have hleads := hinputs _ List.mem_cons_self _ _ _ s hsound _ _ hsnapshot
    exact ⟨hleads, by simp⟩
  | nothing hsnapshot =>
    have hleads := hinputs _ List.mem_cons_self _ _ _ s hsound _ _ hsnapshot
    exact ⟨hleads, by simp⟩
  | empty hsnapshot _ =>
    have hleads := hinputs _ List.mem_cons_self _ _ _ s hsound _ _ hsnapshot
    exact ⟨hleads.forget, by simp⟩
  | weak hsnapshot _ _ =>
    have hleads := hinputs _ List.mem_cons_self _ _ _ s hsound _ _ hsnapshot
    exact ⟨hleads, by simp⟩
  | blurred hsnapshot _ _ hissues =>
    obtain ⟨hsettings, held, houtside, hkept, hheld⟩ :=
      hinputs _ List.mem_cons_self _ _ _ s hsound _ _ hsnapshot
    obtain ⟨down, passes, outcome, -, -, hchain, rfl⟩ := hissues.chain
    obtain ⟨hleads, hfresh⟩ := chained_leads hchain hheld (hkept _ rfl)
    rw [hsettings] at hfresh
    have hleads := hleads.extend houtside hsettings
    refine ⟨?_, fun call hcall => (hfresh call hcall).mono houtside⟩
    cases outcome with
    | error e => exact hleads
    | ok texture => exact hleads

end SeparableBlur.Gpu
